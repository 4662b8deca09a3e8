import PageTemplate.Text.Basic

/-!
# Numbers of TOML

**Input.**  The text of a value, whole.

**Algorithm.**  Digits may be grouped by single underscores between digits.  Integers
are decimal, with a sign and without leading zeros, or have one of the prefixes `0x`,
`0o`, `0b`.  Decimal fractions have a fractional part, an exponent, or both.  A word
that only starts like an integer is not refused here: it is an integer that nobody can
read, and matters only to those who want its value.
-/

namespace PageTemplate
namespace Toml

/-- Whether the text is digits with single underscores between some of them. -/
def grouped (isDigit : Char → Bool) : Text → Bool
  | [] => false
  | [c] => isDigit c
  | c :: d :: rest =>
      isDigit c && (if d = '_' then grouped isDigit rest else grouped isDigit (d :: rest))

/-- The value of a digit of any base up to sixteen. -/
def digitValue (c : Char) : Nat :=
  if c.isDigit then c.toNat - '0'.toNat
  else if 'a' ≤ c ∧ c ≤ 'f' then c.toNat - 'a'.toNat + 10
  else c.toNat - 'A'.toNat + 10

/-- Whether `c` is a digit of the given base. -/
def isDigitOf (base : Nat) (c : Char) : Bool :=
  (c.isDigit || 'a' ≤ c && c ≤ 'f' || 'A' ≤ c && c ≤ 'F') && digitValue c < base

/-- The number written by digits, of which underscores are no part, after the digits
already read as `n`. -/
def valueOf (base : Nat) (n : Nat) (t : Text) : Nat :=
  t.foldl (fun n c => if c = '_' then n else n * base + digitValue c) n

/-- The sign of a number, and the text after it. -/
def signed : Text → Bool × Text
  | '-' :: rest => (true, rest)
  | '+' :: rest => (false, rest)
  | t => (false, t)

/-- Whether the text is a decimal integer without sign and leading zero. -/
def isWhole (t : Text) : Bool :=
  grouped (isDigitOf 10) t && (t.length = 1 || t.head? ≠ some '0')

/-- The integer that the text writes. -/
def integer? (t : Text) : Option Int :=
  match t with
  | '0' :: 'x' :: rest => based 16 rest
  | '0' :: 'o' :: rest => based 8 rest
  | '0' :: 'b' :: rest => based 2 rest
  | _ =>
      let (negative, body) := signed t
      if isWhole body then
        let n : Int := valueOf 10 0 body
        some (if negative then -n else n)
      else none
where
  /-- An integer after a prefix that names its base. -/
  based (base : Nat) (rest : Text) : Option Int :=
    if grouped (isDigitOf base) rest then some (valueOf base 0 rest) else none

/-- Whether every underscore stands between digits of some base.  The flag says whether
there is such a digit directly before the text. -/
def joinsDigits : Bool → Text → Bool
  | _, [] => true
  | digitBefore, c :: rest =>
      if c = '_' then digitBefore && rest.head?.any (isDigitOf 16) && joinsDigits false rest
      else joinsDigits (isDigitOf 16 c) rest

/-- Whether the text is the prefix of a base without digits, or starts like a decimal
integer and goes on in a way that neither an integer nor a fraction nor a date does. -/
def isUnreadable (t : Text) : Bool :=
  let body := (signed t).2
  let rest := body.dropWhile (fun c => isDigitOf 10 c || c = '_')
  t = "0x".toList || t = "0o".toList || t = "0b".toList
    || body.head?.any (fun c => isDigitOf 10 c && c ≠ '0')
      && rest.head?.any (fun c => c ≠ '-' && c ≠ ':')
      && rest.all (fun c => c ≠ '.' && c ≠ 'e' && c ≠ 'E')
      && joinsDigits false t

/-- The number `coefficient * 10 ^ exponent`, or its opposite. -/
structure Decimal where
  /-- The digits as a number. -/
  coefficient : Nat
  /-- How far the point stands to the right of the last digit. -/
  exponent : Int
  deriving DecidableEq, Repr, Inhabited

namespace Decimal

/-- The least number that is too great to be rounded to a finite number of double
precision: halfway between the greatest one and the next power of two. -/
def bound : Nat :=
  Nat.pow 2 1024 - Nat.pow 2 970

/-- Whether the number rounds to a finite number of double precision.  Only numbers
of about the size of the bound have to be compared with it. -/
def isFinite (d : Decimal) : Bool :=
  let magnitude : Int := (Nat.toDigits 10 d.coefficient).length + d.exponent
  if d.coefficient = 0 ∨ magnitude ≤ 308 then true
  else if magnitude ≥ 310 then false
  else
    d.coefficient * Nat.pow 10 d.exponent.toNat < bound * Nat.pow 10 (-d.exponent).toNat

end Decimal

/-- The exponent that the text writes, after its `e`. -/
def exponent? (t : Text) : Option Int :=
  let (negative, body) := signed t
  if grouped (isDigitOf 10) body then
    let n : Int := valueOf 10 0 body
    some (if negative then -n else n)
  else none

/-- The decimal fraction that the text writes. -/
def decimal? (t : Text) : Option Decimal :=
  let body := (signed t).2
  let isMark (c : Char) : Bool := c = 'e' || c = 'E'
  let mantissa := body.takeWhile (!isMark ·)
  let whole := mantissa.takeWhile (· ≠ '.')
  let fraction := (mantissa.dropWhile (· ≠ '.')).tail
  let pointed := mantissa.contains '.'
  let places := (fraction.filter (· ≠ '_')).length
  if !isWhole whole || pointed && !grouped (isDigitOf 10) fraction then none
  else
    let coefficient := valueOf 10 (valueOf 10 0 whole) fraction
    match body.dropWhile (!isMark ·) with
    | [] => if pointed then some ⟨coefficient, -places⟩ else none
    | _ :: written => (exponent? written).map (fun e => ⟨coefficient, e - places⟩)

/-- Whether the text writes an infinite number or none at all. -/
def isSpecial (t : Text) : Bool :=
  let body := (signed t).2
  body = "inf".toList || body = "nan".toList

end Toml
end PageTemplate
