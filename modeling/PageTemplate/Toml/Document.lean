import PageTemplate.Toml.Moment
import PageTemplate.Toml.Quoted
import PageTemplate.Toml.Value

/-!
# Documents of TOML

**Input.**  The text of a document.

**Algorithm.**  A reading function takes a text and gives what it has read together
with the text after it.  Values nest at most `nestingLimit` deep, which bounds the
recursion; the items of a list and the lines of a document are read in a loop that
takes at least one character each time.
-/

namespace PageTemplate
namespace Toml

/-- How deep values may nest, and how many parts a key may have. -/
def nestingLimit : Nat :=
  80

/-- Whether `c` is a space or a tab. -/
def isGap (c : Char) : Bool :=
  c = ' ' || c = '\t'

/-- The text without the spaces and tabs at its start. -/
def skipGap (t : Text) : Text :=
  t.dropWhile isGap

/-- The text without the spaces, line ends and comments at its start.  The flag says
whether the text starts inside a comment. -/
def skipLines? : Bool → Text → Option Text
  | _, [] => some []
  | inComment, c :: rest =>
      if c = '\n' then skipLines? false rest
      else if c = '\r' ∧ rest.head? = some '\n' then skipLines? inComment rest
      else if inComment then (if isPlain c then skipLines? true rest else none)
      else if isGap c then skipLines? false rest
      else if c = '#' then skipLines? true rest
      else some (c :: rest)

/-- Whether a line may end here. -/
def atLineEnd : Text → Bool
  | [] => true
  | '\n' :: _ => true
  | '\r' :: '\n' :: _ => true
  | '#' :: _ => true
  | _ => false

/-! ## Keys -/

/-- Whether `c` may stand in a key without quotes. -/
def isBare (c : Char) : Bool :=
  c.isAlphanum || c = '_' || c = '-'

/-- One part of a key. -/
def keyPart? (t : Text) : Option (Text × Text) :=
  match short? t with
  | some part => some part
  | none =>
      let bare := t.takeWhile isBare
      if bare.isEmpty then none else some (bare, t.drop bare.length)

/-- A key of at most the given number of parts: the parts before the last, and the
last. -/
def key? : Nat → Text → Option ((List Text × Text) × Text)
  | 0, _ => none
  | limit + 1, t =>
      match keyPart? t with
      | none => none
      | some (part, rest) =>
          match skipGap rest with
          | '.' :: more =>
              (key? limit (skipGap more)).map
                (fun ((path, last), after) => ((part :: path, last), after))
          | after => some (([], part), after)

/-! ## Values -/

/-- Whether `c` may stand in a value without quotes: it is no white space and no mark of
the grammar around values. -/
def isScalar (c : Char) : Bool :=
  !("=,#[]\x7b\x7d \t\r\n".toList.contains c)

/-- The value that a whole text without quotes writes. -/
def scalarOf? (t : Text) : Option Value :=
  if t = "true".toList then some (.boolean true)
  else if t = "false".toList then some (.boolean false)
  else if isSpecial t then some .special
  else if isMoment t then some .moment
  else if isUnreadable t then some .unreadable
  else
    match integer? t with
    | some n => some (.integer n)
    | none => (decimal? t).map .decimal

/-- The text of the value without quotes at the start of a text.  A space between a
date and a time belongs to it. -/
def scalarText (t : Text) : Text :=
  let word := t.takeWhile isScalar
  match t.drop word.length with
  | ' ' :: c :: rest =>
      if isDate word && c.isDigit then word ++ ' ' :: (c :: rest).takeWhile isScalar
      else word
  | _ => word

/-- The value without quotes at the start of a text. -/
def scalar? (t : Text) : Option (Value × Text) :=
  (scalarOf? (scalarText t)).map (fun v => (v, t.drop (scalarText t).length))

/-- Items up to a closing mark, with commas between them and, if there is an item,
perhaps one after the last.  Each item changes what was gathered before it; `rounds`
is more than the number of items. -/
def gather? {σ : Type} (close : Char) (item : σ → Text → Option (σ × Text)) :
    Nat → σ → Text → Option (σ × Text)
  | 0, _, _ => none
  | rounds + 1, gathered, t =>
      match skipLines? false t with
      | none => none
      | some [] => none
      | some (c :: rest) =>
          if c = close then some (gathered, rest)
          else
            match item gathered (c :: rest) with
            | none => none
            | some (more, after) =>
                match skipLines? false after with
                | some (d :: rest) =>
                    if d = ',' then gather? close item rounds more rest
                    else if d = close then some (more, rest)
                    else none
                | _ => none

/-- A key and its value, added to the entries of a table in braces.  Line ends and
comments may stand on both sides of the equals sign, but not inside the key. -/
def member? (value? : Text → Option (Value × Text)) (entries : Entries) (t : Text) :
    Option (Entries × Text) :=
  match key? nestingLimit t with
  | none => none
  | some ((path, key), after) =>
      match skipLines? false after with
      | some ('=' :: rest) =>
          match (skipLines? false rest).bind value? with
          | some (v, after) => (assignAt path key v .braces entries).map (·, after)
          | none => none
      | _ => none

/-- A value in which others nest at most `depth` deep and no list has as many items as
`rounds`. -/
def value? (rounds : Nat) : Nat → Text → Option (Value × Text)
  | depth, t =>
      match t with
      | '[' :: rest =>
          match depth with
          | 0 => none
          | inner + 1 =>
              (gather? ']'
                (fun items t => (value? rounds inner t).map (fun (v, t) => (v :: items, t)))
                rounds [] rest).map
                  (fun (items, after) => (.array items.reverse, after))
      | '\x7b' :: rest =>
          match depth with
          | 0 => none
          | inner + 1 =>
              (gather? '\x7d' (member? (fun t => value? rounds inner t))
                rounds [] rest).map
                  (fun (entries, after) => (.table .braces entries, after))
      | '"' :: _ => (string? t).map (fun (s, after) => (.text s, after))
      | '\'' :: _ => (string? t).map (fun (s, after) => (.text s, after))
      | _ => scalar? t

/-! ## Lines -/

/-- What was read of a document. -/
structure Progress where
  /-- The path of the table that the next lines add to. -/
  place : List Text
  /-- The entries of the whole document. -/
  entries : Entries
  deriving Repr, Inhabited

/-- The entries of a document with a value for a key of the table at a place. -/
def assignIn (place path : List Text) (key : Text) (value : Value) (entries : Entries) :
    Option Entries :=
  modifyAt false (assignAt path key value) place .header entries

/-- A header or an assignment, and the text after it. -/
def line? (rounds : Nat) (p : Progress) (t : Text) : Option (Progress × Text) :=
  match t with
  | '[' :: '[' :: rest =>
      match key? nestingLimit (skipGap rest) with
      | some ((path, key), ']' :: ']' :: after) =>
          (openElement path key p.entries).map (fun es => (⟨path ++ [key], es⟩, after))
      | _ => none
  | '[' :: rest =>
      match key? nestingLimit (skipGap rest) with
      | some ((path, key), ']' :: after) =>
          (openTable path key p.entries).map (fun es => (⟨path ++ [key], es⟩, after))
      | _ => none
  | _ =>
      match key? nestingLimit t with
      | some ((path, key), '=' :: rest) =>
          match value? rounds nestingLimit (skipGap rest) with
          | some (v, after) =>
              (assignIn p.place path key v p.entries).map (fun es => (⟨p.place, es⟩, after))
          | none => none
      | _ => none

/-- The entries of a document after what was read of it, if the lines left are fewer
than the second number.  The first one bounds the items of lists. -/
def lines? (rounds : Nat) : Nat → Progress → Text → Option Entries
  | 0, _, _ => none
  | left + 1, p, t =>
      match skipLines? false t with
      | none => none
      | some [] => some p.entries
      | some t =>
          match line? rounds p t with
          | some (p, after) =>
              if atLineEnd (skipGap after) then lines? rounds left p (skipGap after) else none
          | none => none

/-- The text without the mark of its encoding. -/
def dropMark : Text → Text
  | '\ufeff' :: rest => rest
  | t => t

/-- The entries of a document. -/
def entries? (t : Text) : Option Entries :=
  lines? (t.length + 1) (t.length + 1) ⟨[], []⟩ (dropMark t)

end Toml
end PageTemplate
