import PageTemplate.Proofs.Token.Fits

/-!
# Tokens by byte positions

A text can be cut at byte positions of its UTF-8 form, as long as none of them lies inside a
character.  Reading tokens this way, with every size counted in bytes, is a program of its
own; it fails if a cut lies inside a character or if a token has no bytes.

**Input.**  A text.

**Algorithm.**  The size of the token at the start of the text is found by searching for the
character or the mark that ends it.  The text is cut there, and the rest of it is read in the
same way.

**Results.**
* `cut?_eq_some_iff`: a text is cut in two parts, of which the first has the size asked for.
* `prefixSize_eq`, `lineSize?_eq`, `commentSize?_eq`, `literalSize_eq`: each size in bytes is
  that of the characters counted for it.
* `scan?_eq`: the size of a token in bytes is that of its lexeme.
* `tokensAt?_eq`: the reading never fails, and gives the same tokens.
-/

namespace PageTemplate

namespace Text

/-- The parts of a text before and after its first `n` bytes, unless these end inside a
character or there are not as many. -/
def cut? (n : Nat) : Text → Option (Text × Text)
  | [] => if n = 0 then some ([], []) else none
  | c :: t =>
      if n = 0 then some ([], c :: t)
      else if c.utf8Size ≤ n then
        (cut? (n - c.utf8Size) t).map (fun parts => (c :: parts.1, parts.2))
      else none

/-- Bytes before the first character that satisfies `p`. -/
def find? (p : Char → Bool) : Text → Option Nat
  | [] => none
  | c :: t => if p c then some 0 else (find? p t).map (c.utf8Size + ·)

/-- Bytes before the first `ab`. -/
def findPair? (a b : Char) : Text → Option Nat
  | [] => none
  | c :: t =>
      if c = a ∧ t.head? = some b then some 0 else (findPair? a b t).map (c.utf8Size + ·)

@[simp] theorem cut?_zero (t : Text) :
    cut? 0 t = some ([], t) := by
  cases t <;> rfl

/-- A text can be cut at the end of any of its characters. -/
theorem cut?_utf8Size (t rest : Text) :
    cut? t.utf8Size (t ++ rest) = some (t, rest) := by
  induction t with
  | nil =>
      simp
  | cons c t ih =>
      have hpos := c.utf8Size_pos
      have hne : ¬ c.utf8Size + utf8Size t = 0 := by omega
      rw [List.cons_append, cut?, utf8Size_cons, if_neg hne, if_pos (Nat.le_add_right _ _),
        Nat.add_sub_cancel_left, ih]
      rfl

/-- A cut gives two parts of the text, the first of the size asked for. -/
theorem cut?_eq_some_iff
    {n : Nat} {t before rest : Text} :
    cut? n t = some (before, rest) ↔ t = before ++ rest ∧ n = before.utf8Size := by
  constructor
  · intro h
    induction t generalizing n before with
    | nil =>
        unfold cut? at h
        split at h
        · next hzero =>
            cases h
            exact ⟨rfl, hzero⟩
        · cases h
    | cons c t ih =>
        unfold cut? at h
        split at h
        · next hzero =>
            cases h
            exact ⟨rfl, hzero⟩
        split at h
        · next hle =>
            obtain ⟨⟨before, rest⟩, hcut, heq⟩ := Option.map_eq_some_iff.mp h
            cases heq
            obtain ⟨rfl, hsize⟩ := ih hcut
            refine ⟨rfl, ?_⟩
            rw [utf8Size_cons, ← hsize]
            omega
        · cases h
  · rintro ⟨rfl, rfl⟩
    exact cut?_utf8Size before rest

theorem find?_eq (p : Char → Bool) (t : Text) :
    (find? p t).getD t.utf8Size = utf8Size (t.takeWhile (fun c => !p c)) := by
  induction t with
  | nil =>
      rfl
  | cons c t ih =>
      rw [find?]
      cases hc : p c with
      | true =>
          simp [hc]
      | false =>
          simp only [Bool.false_eq_true, if_false, List.takeWhile_cons, hc, Bool.not_false,
            if_true, utf8Size_cons, ← ih]
          cases find? p t <;> rfl

end Text

namespace Token

open Text (cut? find? findPair? utf8Size)

/-! ## Sizes in bytes -/

/-- Bytes of the characters at the start of a text that satisfy `p`. -/
def prefixSize (p : Char → Bool) (t : Text) : Nat :=
  (find? (fun c => !p c) t).getD t.utf8Size

/-- Bytes up to the line end. -/
def lineSize? (t : Text) : Option Nat :=
  let stop := (find? (· = '\n') t).getD t.utf8Size
  (cut? stop t).map (fun parts => if parts.1.getLast? = some '\r' then stop - 1 else stop)

/-- Bytes of a text that starts with a block comment, through the end of the comment. -/
def commentSize? (t : Text) : Option Nat :=
  (cut? 2 t).map (fun parts => ((findPair? '*' '/' parts.2).map (· + 4)).getD t.utf8Size)

/-- Bytes of a string literal, of which the first `i` are read, with or without a backslash
that protects the next character. -/
def literalSizeFrom (escaped : Bool) (i : Nat) : Text → Nat
  | [] => i
  | c :: t =>
      if (c = '\n' ∨ c = '\r') ∧ escaped = false then i
      else if c = '"' ∧ escaped = false then i + 1
      else if c = '\\' then literalSizeFrom (!escaped) (i + c.utf8Size) t
      else literalSizeFrom false (i + c.utf8Size) t

/-- Bytes of the string literal at the start of a text. -/
def literalSize : Text → Nat
  | [] => 0
  | c :: t => literalSizeFrom false c.utf8Size t

/-- Whether a text starts with `ab`, where `b` is sought one byte after the start. -/
def startsPair? (a b : Char) : Text → Option Bool
  | [] => some false
  | c :: t =>
      if c = a then (cut? 1 (c :: t)).map (fun parts => parts.2.head? = some b)
      else some false

/-- Kind and size of the token at the start of a text. -/
def scan? (t : Text) : Option (TokenKind × Nat) := do
  let lineEnd ← startsPair? '\r' '\n' t
  let lineComment ← startsPair? '/' '/' t
  let blockComment ← startsPair? '/' '*' t
  match t.head? with
  | none => some (.other, 0)
  | some c =>
      if c = '\n' then some (.newLine, 1)
      else if lineEnd then some (.newLine, 2)
      else if isSpaceOrTab c then some (.whiteSpace, prefixSize isSpaceOrTab t)
      else if lineComment then (lineSize? t).map (fun n => (.comment, n))
      else if blockComment then (commentSize? t).map (fun n => (.comment, n))
      else if c = '"' then some (.stringLiteral, literalSize t)
      else
        match punctuation.lookup c with
        | some kind => some (kind, 1)
        | none =>
            if isIdentifierStart c then some (.identifier, prefixSize isIdentifierPart t)
            else some (.other, c.utf8Size)

/-- The tokens of a text whose first character stands at `l`. -/
def tokensAt? (l : Location) (t : Text) : Option (List Token) :=
  if t = [] then some []
  else
    match scan? t with
    | none => none
    | some (kind, n) =>
        match cut? n t with
        | none => none
        | some (content, rest) =>
            -- Without a step forward the reading would go on for ever.
            if rest.length < t.length then
              (tokensAt? (l.advance content) rest).map (⟨kind, content, l⟩ :: ·)
            else none
termination_by t.length

/-! ## Sizes in characters -/

/-- The size of a run is the size of the characters counted in it. -/
theorem prefixSize_eq (p : Char → Bool) (t : Text) :
    prefixSize p t = utf8Size (t.take (runLength p t)) := by
  rw [prefixSize, Text.find?_eq, take_runLength]
  simp only [Bool.not_not]

/-- A carriage return is one byte. -/
theorem lineSize?_eq (t : Text) :
    lineSize? t = some (utf8Size (t.take (lineLength t))) := by
  obtain ⟨line, hdef⟩ : ∃ line, t.takeWhile (· ≠ '\n') = line := ⟨_, rfl⟩
  have hcut : t = line ++ t.dropWhile (· ≠ '\n') := by
    rw [← hdef, List.takeWhile_append_dropWhile]
  have hstop : (find? (· = '\n') t).getD t.utf8Size = utf8Size line := by
    rw [Text.find?_eq, ← hdef]
    simp
  have hparts : cut? (utf8Size line) t = some (line, t.dropWhile (· ≠ '\n')) :=
    Text.cut?_eq_some_iff.mpr ⟨hcut, rfl⟩
  rw [lineSize?, hstop, hparts, Option.map_some, Option.some.injEq]
  rcases lineLength_eq hdef with ⟨hplain, hlength⟩ | ⟨body, hbody, hlength⟩
  · rw [if_neg hplain, hlength, hcut, List.take_left]
  · rw [hbody, List.append_assoc] at hcut
    rw [hlength, hcut, List.take_left, hbody, if_pos (by simp), Text.utf8Size_append]
    exact Nat.add_sub_cancel _ 1

/-- The end of a comment is found at the same place by bytes and by characters. -/
theorem findPair?_eq (t : Text) :
    ((findPair? '*' '/' t).map (· + 2)).getD t.utf8Size =
      utf8Size (t.take (throughClose t 0)) := by
  induction t with
  | nil =>
      rfl
  | cons c t ih =>
      rw [findPair?, throughClose_cons]
      split
      · next hclose =>
          obtain ⟨rfl, hslash⟩ := hclose
          obtain ⟨t, rfl⟩ := List.head?_eq_some_iff.mp hslash
          rfl
      · rw [List.take_succ_cons, Text.utf8Size_cons, Text.utf8Size_cons, ← ih]
        cases findPair? '*' '/' t with
        | none => rfl
        | some n => exact Nat.add_assoc c.utf8Size n 2

/-- Both marks of a comment are two bytes. -/
theorem commentSize?_eq (t : Text) :
    commentSize? ('/' :: '*' :: t) =
      some (utf8Size ('/' :: '*' :: t.take (throughClose t 0))) := by
  have hcut : cut? 2 ('/' :: '*' :: t) = some (['/', '*'], t) :=
    Text.cut?_eq_some_iff.mpr ⟨rfl, rfl⟩
  have hmarks (u : Text) : utf8Size ('/' :: '*' :: u) = 2 + utf8Size u :=
    (Nat.add_assoc 1 1 u.utf8Size).symm
  rw [commentSize?, hcut, Option.map_some, hmarks, hmarks, ← findPair?_eq]
  cases findPair? '*' '/' t with
  | none =>
      rfl
  | some n =>
      exact congrArg some (Nat.add_comm (n + 2) 2)

/-- A literal ends at the same place by bytes and by characters. -/
theorem literalSizeFrom_eq (escaped : Bool) (i : Nat) (t : Text) :
    literalSizeFrom escaped i t = i + utf8Size (t.take (literalLength escaped t 0)) := by
  induction t generalizing escaped i with
  | nil =>
      simp [literalSizeFrom, literalLength]
  | cons c t ih =>
      cases escaped with
      | true =>
          rw [literalLength_cons_true, List.take_succ_cons, Text.utf8Size_cons, ← Nat.add_assoc,
            ← ih, literalSizeFrom]
          simp
      | false =>
          rw [literalLength_cons_false]
          by_cases hquote : c = '"'
          · subst hquote
            rfl
          by_cases hend : c = '\n' ∨ c = '\r'
          · simp [literalSizeFrom, hquote, hend]
          · rw [if_neg hquote, if_neg hend, List.take_succ_cons, Text.utf8Size_cons,
              ← Nat.add_assoc, ← ih, literalSizeFrom]
            simp only [hquote, hend, false_and, if_false]
            by_cases hslash : c = '\\'
            · simp [hslash]
            · simp [hslash]

theorem startsPair?_eq
    {a : Char} (ha : a.utf8Size = 1) (b c : Char) (t : Text) :
    startsPair? a b (c :: t) = some (decide (c = a ∧ t.head? = some b)) := by
  rw [startsPair?]
  split
  · next hc =>
      have hcut : cut? 1 (c :: t) = some ([c], t) :=
        Text.cut?_eq_some_iff.mpr ⟨rfl, by rw [hc, Text.utf8Size_cons, ha]; rfl⟩
      rw [hcut]
      simp [hc]
  · next hc =>
      simp [hc]

theorem utf8Size_of_lookup
    {c : Char} {kind : TokenKind} (h : punctuation.lookup c = some kind) :
    c.utf8Size = 1 := by
  have key : ∀ e ∈ punctuation, e.1.utf8Size = 1 := by decide
  obtain ⟨before, after, heq, -⟩ := List.lookup_eq_some_iff.mp h
  exact key (c, kind) (by rw [heq]; simp)

/-- Each token has the size of its lexeme. -/
theorem scan?_eq (c : Char) (rest : Text) :
    scan? (c :: rest) =
      some ((lexeme c rest).1, utf8Size (c :: rest.take (lexeme c rest).2)) := by
  have hscan : scan? (c :: rest) =
      if c = '\n' then some (.newLine, 1)
      else if c = '\r' ∧ rest.head? = some '\n' then some (.newLine, 2)
      else if isSpaceOrTab c then some (.whiteSpace, prefixSize isSpaceOrTab (c :: rest))
      else if c = '/' ∧ rest.head? = some '/' then
        (lineSize? (c :: rest)).map (fun n => (.comment, n))
      else if c = '/' ∧ rest.head? = some '*' then
        (commentSize? (c :: rest)).map (fun n => (.comment, n))
      else if c = '"' then some (.stringLiteral, literalSize (c :: rest))
      else
        match punctuation.lookup c with
        | some kind => some (kind, 1)
        | none =>
            if isIdentifierStart c then
              some (.identifier, prefixSize isIdentifierPart (c :: rest))
            else some (.other, c.utf8Size) := by
    rw [scan?, startsPair?_eq rfl, startsPair?_eq rfl, startsPair?_eq rfl]
    simp
  rw [hscan]
  unfold lexeme
  split
  · next hc =>
      subst hc
      rfl
  split
  · next hc =>
      obtain ⟨rfl, hnext⟩ := hc
      obtain ⟨rest, rfl⟩ := List.head?_eq_some_iff.mp hnext
      rfl
  split
  · next hc =>
      rw [prefixSize_eq, runLength_cons hc]
      rfl
  split
  · next hc =>
      obtain ⟨rfl, hnext⟩ := hc
      obtain ⟨rest, rfl⟩ := List.head?_eq_some_iff.mp hnext
      rw [lineSize?_eq, lineLength_cons (by decide) (by decide)]
      rfl
  split
  · next hc =>
      obtain ⟨rfl, hnext⟩ := hc
      obtain ⟨rest, rfl⟩ := List.head?_eq_some_iff.mp hnext
      have hcount : throughClose rest 1 = throughClose rest 0 + 1 := by
        rw [throughClose_eq, Nat.add_comm]
      rw [commentSize?_eq, List.tail_cons, hcount]
      rfl
  split
  · next hc =>
      subst hc
      rw [literalSize, literalSizeFrom_eq]
      rfl
  cases hmark : punctuation.lookup c with
  | some kind =>
      rw [List.take_zero, Text.utf8Size_cons, utf8Size_of_lookup hmark]
      rfl
  | none =>
      dsimp only
      split
      · next hc =>
          have hpart := isIdentifierPart_of_isIdentifierStart hc
          rw [prefixSize_eq, runLength_cons hpart]
          rfl
      · rfl

/-- Every cut lies between characters, and the tokens are the same. -/
theorem tokensAt?_eq (l : Location) (t : Text) :
    tokensAt? l t = some (tokensFrom l t) := by
  induction l, t using tokensFrom_induction with
  | nil l =>
      simp [tokensAt?]
  | cons l c rest ih =>
      have hcut : cut? (utf8Size (c :: rest.take (lexeme c rest).2)) (c :: rest) =
          some (c :: rest.take (lexeme c rest).2, rest.drop (lexeme c rest).2) := by
        refine Text.cut?_eq_some_iff.mpr ⟨?_, rfl⟩
        rw [List.cons_append, List.take_append_drop]
      have hless : (rest.drop (lexeme c rest).2).length < (c :: rest).length := by
        rw [List.length_drop, List.length_cons]
        omega
      rw [tokensAt?, if_neg (List.cons_ne_nil c rest), scan?_eq]
      dsimp only
      rw [hcut]
      dsimp only
      rw [if_pos hless]
      rw [tokensFrom_cons]
      exact congrArg (Option.map _) ih

end Token
end PageTemplate
