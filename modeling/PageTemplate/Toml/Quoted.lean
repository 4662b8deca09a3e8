import PageTemplate.Toml.Number

/-!
# Strings of TOML

**Input.**  The text after the opening mark of a string, and the style of the string:
its quote, whether it may go over several lines, and whether a backslash has a
meaning.

**Algorithm.**  Characters are read up to the closing mark.  A string over several
lines closes with three quotes; up to two more before them belong to the string.
-/

namespace PageTemplate
namespace Toml

/-- Whether `c` may stand for itself: it is a tab or no control character. -/
def isPlain (c : Char) : Bool :=
  c = '\t' || (' ' ≤ c && c ≠ '\x7f')

/-- The ways to write a string. -/
structure Style where
  /-- The quote around the string. -/
  quote : Char
  /-- Whether it may go over several lines. -/
  long : Bool
  /-- Whether a backslash starts an escape. -/
  escapes : Bool
  deriving DecidableEq, Repr, Inhabited

/-- The character with the code point that the `n` hexadecimal digits at the start of
a text write. -/
def codePoint? (n : Nat) (t : Text) : Option Char :=
  let digits := t.take n
  let code := valueOf 16 0 digits
  if digits.length = n ∧ digits.all (isDigitOf 16) ∧ code.isValidChar then
    some (Char.ofNat code)
  else none

/-- The characters with a short escape. -/
def shortEscapes : List (Char × Char) :=
  [('b', '\x08'), ('t', '\t'), ('n', '\n'), ('f', '\x0c'), ('r', '\r'), ('e', '\x1b'),
    ('"', '"'), ('\\', '\\')]

/-- The character that an escape stands for, from the text after the backslash, and the
number of characters that the escape takes of it. -/
def escape? : Text → Option (Char × Nat)
  | [] => none
  | c :: rest =>
      match shortEscapes.lookup c with
      | some d => some (d, 1)
      | none =>
          if c = 'x' then (codePoint? 2 rest).map (·, 3)
          else if c = 'u' then (codePoint? 4 rest).map (·, 5)
          else if c = 'U' then (codePoint? 8 rest).map (·, 9)
          else none

/-- Number of spaces, tabs and line ends at the start of a text, added to `n`. -/
def gapLength : Text → Nat → Nat
  | [], n => n
  | c :: rest, n =>
      if c = ' ' ∨ c = '\t' ∨ c = '\n' then gapLength rest (n + 1)
      else if c = '\r' ∧ rest.head? = some '\n' then gapLength rest (n + 1)
      else n

/-- The spaces and line ends that a backslash before a line end hides, counted from
the text after the backslash. -/
def hidden? (t : Text) : Option Nat :=
  let n := gapLength t 0
  let line := (t.take n).takeWhile (fun c => c = ' ' || c = '\t' || c = '\r')
  if line.length < n then some n else none

/-- The characters of a string up to its closing mark, after those already `read`,
the latest of which comes first; and the text after the closing mark. -/
def body (style : Style) (read : Text) : Text → Option (Text × Text)
  | [] => none
  | c :: rest =>
      if c = style.quote then
        if style.long then
          if rest.take 2 = [style.quote, style.quote] then
            let extra := ((rest.drop 2).take 2).takeWhile (· = style.quote)
            some ((extra ++ read).reverse, rest.drop (2 + extra.length))
          else body style (c :: read) rest
        else some (read.reverse, rest)
      else if style.escapes ∧ c = '\\' then
        match if style.long then hidden? rest else none with
        | some n => body style read (rest.drop n)
        | none =>
            match escape? rest with
            | some (d, n) => body style (d :: read) (rest.drop n)
            | none => none
      else if isPlain c ∨ (style.long ∧ (c = '\n' ∨ c = '\r' ∧ rest.head? = some '\n')) then
        body style (c :: read) rest
      else none
termination_by t => t.length
decreasing_by all_goals simp only [List.length_drop, List.length_cons]; omega

/-- The text without the line end at its start. -/
def dropLineEnd : Text → Text
  | '\n' :: rest => rest
  | '\r' :: '\n' :: rest => rest
  | t => t

/-- The string on one line at the start of a text, and the text after it. -/
def short? : Text → Option (Text × Text)
  | '"' :: rest => body ⟨'"', false, true⟩ [] rest
  | '\'' :: rest => body ⟨'\'', false, false⟩ [] rest
  | _ => none

/-- The string of any style at the start of a text, and the text after it. -/
def string? (t : Text) : Option (Text × Text) :=
  match t with
  | '"' :: '"' :: '"' :: rest => body ⟨'"', true, true⟩ [] (dropLineEnd rest)
  | '\'' :: '\'' :: '\'' :: rest => body ⟨'\'', true, false⟩ [] (dropLineEnd rest)
  | _ => short? t

end Toml
end PageTemplate
