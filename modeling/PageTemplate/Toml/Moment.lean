import PageTemplate.Toml.Number

/-!
# Dates and times of TOML

A moment is a date, a time of day, or both; with both there may be an offset from
universal time.  Seconds may be left out.
-/

namespace PageTemplate
namespace Toml

/-- Whether the digits write a number between `lo` and `hi`. -/
def between (lo hi : Nat) (t : Text) : Bool :=
  t.all (isDigitOf 10) && (lo ≤ valueOf 10 0 t && valueOf 10 0 t ≤ hi)

/-- Whether the year has a day more than others. -/
def isLeap (year : Nat) : Bool :=
  year % 4 = 0 && (year % 100 ≠ 0 || year % 400 = 0)

/-- Number of days of a month. -/
def daysIn (year month : Nat) : Nat :=
  if month = 2 then (if isLeap year then 29 else 28)
  else if month ∈ [4, 6, 9, 11] then 30
  else 31

/-- The text after the date at its start. -/
def afterDate? : Text → Option Text
  | y1 :: y2 :: y3 :: y4 :: '-' :: m1 :: m2 :: '-' :: d1 :: d2 :: rest =>
      let year := [y1, y2, y3, y4]
      let month := [m1, m2]
      let days := daysIn (valueOf 10 0 year) (valueOf 10 0 month)
      if between 0 9999 year && between 1 12 month && between 1 days [d1, d2] then some rest
      else none
  | _ => none

/-- The text after the fraction of a second at its start, if there is one. -/
def afterFraction? : Text → Option Text
  | '.' :: rest =>
      if rest.head?.any (isDigitOf 10) then some (rest.dropWhile (isDigitOf 10)) else none
  | t => some t

/-- The text after the time of day at its start. -/
def afterTime? : Text → Option Text
  | h1 :: h2 :: ':' :: m1 :: m2 :: rest =>
      if between 0 23 [h1, h2] && between 0 59 [m1, m2] then
        match rest with
        | ':' :: s1 :: s2 :: rest => if between 0 60 [s1, s2] then afterFraction? rest else none
        | ':' :: _ => none
        | _ => some rest
      else none
  | _ => none

/-- Whether the text is an offset from universal time, or empty. -/
def isOffset : Text → Bool
  | [] => true
  | ['Z'] => true
  | ['z'] => true
  | [sign, h1, h2, ':', m1, m2] =>
      (sign = '+' || sign = '-') && between 0 23 [h1, h2] && between 0 59 [m1, m2]
  | _ => false

/-- Whether the text is a date without time. -/
def isDate (t : Text) : Bool :=
  afterDate? t = some []

/-- Whether the text is a moment. -/
def isMoment (t : Text) : Bool :=
  match afterDate? t with
  | some [] => true
  | some (mark :: rest) =>
      (mark = 'T' || mark = 't' || mark = ' ') && (afterTime? rest).any isOffset
  | none => afterTime? t = some []

end Toml
end PageTemplate
