import PageTemplate.Token.Basic
import PageTemplate.Text.Letter

/-!
# The lexeme at the start of a text

**Input.**  The first character `c` of a text and the characters `rest` after it.

**Algorithm.**  `lexeme c rest` chooses the kind of the token that starts with `c`
and counts how many characters of `rest` belong to it.  Runs (spaces, letters) are
as long as possible.  A line comment stops before the line end; a block comment
and a string literal stop after their closing mark, and a literal without one stops
before the line end.

**Results.**
* `lexeme_snd_le`: no more characters are taken than there are.
* `throughClose_eq`, `literalLength_eq`: the counters add to the count they start
  from.
-/

namespace PageTemplate
namespace Token

open Text (isLetter isLetterOrNumeral)

/-- Whether an identifier may start with `c`. -/
def isIdentifierStart (c : Char) : Bool :=
  c = '_' || isLetter c

/-- Whether an identifier may go on with `c`. -/
def isIdentifierPart (c : Char) : Bool :=
  c = '_' || isLetterOrNumeral c

/-- Whether `c` is a space or a tab. -/
def isSpaceOrTab (c : Char) : Bool :=
  c = ' ' || c = '\t'

/-- The kinds of the tokens that are always one character. -/
def punctuation : List (Char × TokenKind) :=
  [('@', .transition), ('.', .dot), (',', .comma), ('<', .lessThan), ('>', .greaterThan),
    ('?', .questionMark), ('[', .leftBracket), (']', .rightBracket)]

/-- Length of the longest run of characters satisfying `p` at the start of a text. -/
def runLength (p : Char → Bool) (t : Text) : Nat :=
  (t.takeWhile p).length

/-- Characters up to the line end.  A carriage return before a line feed, or at the
end of the text, belongs to the line end. -/
def lineLength (t : Text) : Nat :=
  let line := t.takeWhile (· ≠ '\n')
  if line.getLast? = some '\r' then line.length - 1 else line.length

/-- Characters through the first `*/`, or all of them, added to `n`. -/
def throughClose : Text → Nat → Nat
  | [], n => n
  | [_], n => n + 1
  | c :: d :: rest, n =>
      if c = '*' ∧ d = '/' then n + 2 else throughClose (d :: rest) (n + 1)

/-- Characters of a string literal after its opening quote, added to `n`.  The flag
says whether a backslash protects the next character. -/
def literalLength : Bool → Text → Nat → Nat
  | _, [], n => n
  | true, _ :: rest, n => literalLength false rest (n + 1)
  | false, c :: rest, n =>
      if c = '"' then n + 1
      else if c = '\n' ∨ c = '\r' then n
      else literalLength (c = '\\') rest (n + 1)

/-- Kind of the token that starts with `c`, and how many characters of `rest`
belong to it. -/
def lexeme (c : Char) (rest : Text) : TokenKind × Nat :=
  if c = '\n' then (.newLine, 0)
  else if c = '\r' ∧ rest.head? = some '\n' then (.newLine, 1)
  else if isSpaceOrTab c then (.whiteSpace, runLength isSpaceOrTab rest)
  else if c = '/' ∧ rest.head? = some '/' then (.comment, lineLength rest)
  else if c = '/' ∧ rest.head? = some '*' then (.comment, throughClose rest.tail 1)
  else if c = '"' then (.stringLiteral, literalLength false rest 0)
  else
    match punctuation.lookup c with
    | some kind => (kind, 0)
    | none =>
        if isIdentifierStart c then (.identifier, runLength isIdentifierPart rest)
        else (.other, 0)

theorem runLength_le (p : Char → Bool) (t : Text) : runLength p t ≤ t.length :=
  (List.takeWhile_sublist p).length_le

theorem lineLength_le (t : Text) : lineLength t ≤ t.length := by
  have h := runLength_le (· ≠ '\n') t
  simp only [runLength] at h
  simp only [lineLength]
  split <;> omega

theorem throughClose_eq : ∀ (t : Text) (n : Nat), throughClose t n = n + throughClose t 0
  | [], n => rfl
  | [_], n => by simp [throughClose]
  | c :: d :: rest, n => by
      simp only [throughClose]
      split
      · omega
      · rw [throughClose_eq (d :: rest) (n + 1), throughClose_eq (d :: rest) (0 + 1)]
        omega

theorem throughClose_le : ∀ (t : Text) (n : Nat), throughClose t n ≤ n + t.length
  | [], n => by simp [throughClose]
  | [_], n => by simp [throughClose]
  | c :: d :: rest, n => by
      have ih := throughClose_le (d :: rest) (n + 1)
      simp only [throughClose, List.length_cons] at ih ⊢
      split <;> omega

theorem literalLength_eq :
    ∀ (escaped : Bool) (t : Text) (n : Nat),
      literalLength escaped t n = n + literalLength escaped t 0
  | _, [], n => by simp [literalLength]
  | true, _ :: rest, n => by
      simp only [literalLength]
      rw [literalLength_eq false rest (n + 1), literalLength_eq false rest (0 + 1)]
      omega
  | false, c :: rest, n => by
      simp only [literalLength]
      split
      · omega
      · split
        · omega
        · rw [literalLength_eq _ rest (n + 1), literalLength_eq _ rest (0 + 1)]
          omega

theorem literalLength_le :
    ∀ (escaped : Bool) (t : Text) (n : Nat), literalLength escaped t n ≤ n + t.length
  | _, [], n => by simp [literalLength]
  | true, _ :: rest, n => by
      have ih := literalLength_le false rest (n + 1)
      simp only [literalLength, List.length_cons]
      omega
  | false, c :: rest, n => by
      have ih := literalLength_le (c = '\\') rest (n + 1)
      simp only [literalLength, List.length_cons]
      split
      · omega
      · split <;> omega

/-- A lexeme never reaches behind the end of the text. -/
theorem lexeme_snd_le (c : Char) (rest : Text) : (lexeme c rest).2 ≤ rest.length := by
  have hpair : rest.head? = some '\n' → 1 ≤ rest.length := by
    cases rest <;> simp
  have hclose : rest.head? = some '*' → throughClose rest.tail 1 ≤ rest.length := by
    cases rest with
    | nil => simp
    | cons d rest =>
        have := throughClose_le rest 1
        simp only [List.tail_cons, List.length_cons]
        omega
  have hspace := runLength_le isSpaceOrTab rest
  have hpart := runLength_le isIdentifierPart rest
  have hline := lineLength_le rest
  have hliteral := literalLength_le false rest 0
  unfold lexeme
  split
  · simp
  split
  · next h => exact hpair h.2
  split
  · exact hspace
  split
  · exact hline
  split
  · next h => exact hclose h.2
  split
  · simpa using hliteral
  split
  · simp
  · split
    · exact hpart
    · simp

end Token
end PageTemplate
