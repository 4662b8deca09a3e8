import PageTemplate.Location

/-!
# Tokens

A token is a classified piece of source text together with the location of its
first character.

**Results.**
* `splitFirst_eq_none_iff`: only a token of at most one character cannot be split.
* `content_of_splitFirst`, `location_of_splitFirst`: the two pieces of a split
  token are its text, and the second starts where the first ends.
-/

namespace PageTemplate

/-- Classification of a token. -/
inductive TokenKind
  /-- Letters, numerals and underscores, not starting with a numeral. -/
  | identifier
  /-- A run of spaces and tabs. -/
  | whiteSpace
  /-- A line feed, or a carriage return and a line feed. -/
  | newLine
  /-- `// ...` up to the end of the line, or `/* ... */`. -/
  | comment
  /-- A double-quoted string with its quotes. -/
  | stringLiteral
  /-- The character `@`. -/
  | transition
  /-- The character `.`. -/
  | dot
  /-- The character `,`. -/
  | comma
  /-- The character `<`. -/
  | lessThan
  /-- The character `>`. -/
  | greaterThan
  /-- The character `?`. -/
  | questionMark
  /-- The character `[`. -/
  | leftBracket
  /-- The character `]`. -/
  | rightBracket
  /-- Any other single character. -/
  | other
  deriving DecidableEq, Repr, Inhabited

/-- A classified piece of the source. -/
structure Token where
  /-- What the piece is. -/
  kind : TokenKind
  /-- The piece itself. -/
  content : Text
  /-- Where its first character stands. -/
  location : Location
  deriving DecidableEq, Repr, Inhabited

namespace Token

/-- The place just after the token. -/
def endLocation (t : Token) : Location :=
  t.location.advance t.content

/-- Whether the token is the identifier `keyword`. -/
def isKeyword (keyword : Text) (t : Token) : Bool :=
  t.kind = .identifier && t.content = keyword

/-- Whether the token is white space or a comment, or, if asked for, a line end. -/
def isSpacing (newLines comments : Bool) (t : Token) : Bool :=
  match t.kind with
  | .whiteSpace => true
  | .newLine => newLines
  | .comment => comments
  | _ => false

/-- The first character and the rest as two tokens of the same kind. -/
def splitFirst (t : Token) : Option (Token × Token) :=
  match t.content with
  | c :: d :: rest =>
      some (⟨t.kind, [c], t.location⟩, ⟨t.kind, d :: rest, t.location.advance [c]⟩)
  | _ => none

/-- The text of a list of tokens. -/
def textOf (ts : List Token) : Text :=
  ts.flatMap content

@[simp] theorem textOf_nil : textOf [] = [] := rfl

@[simp] theorem textOf_cons (t : Token) (ts : List Token) :
    textOf (t :: ts) = t.content ++ textOf ts := rfl

@[simp] theorem textOf_append (ts us : List Token) :
    textOf (ts ++ us) = textOf ts ++ textOf us :=
  List.flatMap_append

theorem textOf_flatMap {α : Type} (f : α → List Token) (xs : List α) :
    textOf (xs.flatMap f) = xs.flatMap (fun x => textOf (f x)) :=
  List.flatMap_assoc

theorem isKeyword_iff (keyword : Text) (t : Token) :
    t.isKeyword keyword = true ↔ t.kind = .identifier ∧ t.content = keyword := by
  simp [isKeyword]

theorem splitFirst_eq_none_iff (t : Token) : t.splitFirst = none ↔ t.content.length ≤ 1 := by
  unfold splitFirst
  split
  · next h => simp [h]
  · next h =>
      match hc : t.content with
      | [] => simp
      | [c] => simp
      | c :: d :: rest => exact absurd hc (h c d rest)

theorem content_of_splitFirst {t first rest : Token}
    (h : t.splitFirst = some (first, rest)) :
    first.content.length = 1 ∧ first.content ++ rest.content = t.content := by
  unfold splitFirst at h
  split at h
  · next hc =>
      cases h
      simp [hc]
  · cases h

theorem kind_of_splitFirst {t first rest : Token}
    (h : t.splitFirst = some (first, rest)) : first.kind = t.kind ∧ rest.kind = t.kind := by
  unfold splitFirst at h
  split at h
  · cases h
    exact ⟨rfl, rfl⟩
  · cases h

theorem location_of_splitFirst {t first rest : Token}
    (h : t.splitFirst = some (first, rest)) :
    first.location = t.location ∧ rest.location = first.endLocation ∧
      rest.endLocation = t.endLocation := by
  unfold splitFirst at h
  split at h
  · next hc =>
      cases h
      simp [endLocation, hc]
  · cases h

end Token

end PageTemplate
