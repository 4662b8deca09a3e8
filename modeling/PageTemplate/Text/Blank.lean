import PageTemplate.Text.Basic

/-!
# Blank characters

The blank characters are those of the Unicode property `White_Space`.  Names
and patterns are trimmed of them on both sides.

**Results.**
* `trim_eq_nil_iff`: nothing is left of a text exactly when all of it is blank.
* `trim_of_ends`: a text with no blank at either end is its own trimmed form.
-/

namespace PageTemplate
namespace Text

/-- The characters with the property `White_Space`. -/
def blanks : List Char :=
  ['\t', '\n', '\x0b', '\x0c', '\r', ' ', '\u0085', '\u00a0', '\u1680',
    '\u2000', '\u2001', '\u2002', '\u2003', '\u2004', '\u2005', '\u2006', '\u2007',
    '\u2008', '\u2009', '\u200a', '\u2028', '\u2029', '\u202f', '\u205f', '\u3000']

/-- Whether `c` is blank. -/
def isBlank (c : Char) : Bool :=
  blanks.contains c

/-- The text without the blanks at its start. -/
def trimStart (t : Text) : Text :=
  t.dropWhile isBlank

/-- The text without the blanks at its end. -/
def trimEnd (t : Text) : Text :=
  (t.reverse.dropWhile isBlank).reverse

/-- The text without the blanks at either end. -/
def trim (t : Text) : Text :=
  trimEnd (trimStart t)

theorem isBlank_iff (c : Char) : isBlank c = true ↔ c ∈ blanks := by
  simp [isBlank]

theorem trimStart_eq_nil_iff :
    ∀ t : Text, trimStart t = [] ↔ ∀ c ∈ t, isBlank c = true
  | [] => by simp [trimStart]
  | c :: t => by
      have ih := trimStart_eq_nil_iff t
      unfold trimStart at ih ⊢
      cases h : isBlank c with
      | true => simp [h, ih]
      | false => simp [h]

theorem trimEnd_eq_nil_iff (t : Text) : trimEnd t = [] ↔ ∀ c ∈ t, isBlank c = true := by
  have h := trimStart_eq_nil_iff t.reverse
  simp only [List.mem_reverse] at h
  rw [trimEnd, List.reverse_eq_nil_iff]
  exact h

@[simp] theorem trim_nil : trim [] = [] := rfl

theorem trim_eq_nil_iff (t : Text) : trim t = [] ↔ ∀ c ∈ t, isBlank c = true := by
  rw [trim, trimEnd_eq_nil_iff]
  constructor
  · intro h c hc
    rw [← List.takeWhile_append_dropWhile (p := isBlank) (l := t)] at hc
    rcases List.mem_append.mp hc with hc | hc
    · exact List.all_eq_true.mp List.all_takeWhile c hc
    · exact h c hc
  · intro h c hc
    exact h c (List.dropWhile_subset isBlank hc)

/-- Nothing is trimmed from a text without blanks at its ends. -/
theorem trim_of_ends {t : Text} (hhead : ∀ c, t.head? = some c → isBlank c = false)
    (hlast : ∀ c, t.getLast? = some c → isBlank c = false) : trim t = t := by
  have hstart : trimStart t = t := by
    cases t with
    | nil => rfl
    | cons c t => simp [trimStart, hhead c rfl]
  have hend : trimEnd t = t := by
    unfold trimEnd
    rcases hr : t.reverse with _ | ⟨c, r⟩
    · simpa using hr.symm
    · have hc : t.getLast? = some c := by
        rw [List.getLast?_eq_head?_reverse, hr]; rfl
      rw [List.dropWhile_cons_of_neg (by simp [hlast c hc]), ← hr, List.reverse_reverse]
  rw [trim, hstart, hend]

end Text
end PageTemplate
