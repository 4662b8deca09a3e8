import PageTemplate.Text.Blank
import PageTemplate.Text.Ranges

/-!
# Letters and numerals

Letters are the characters of the Unicode property `Alphabetic`; numerals are
those of the general categories `Nd`, `Nl` and `No`.

**Results.**
* `within_iff`: a look-up in an increasing table finds exactly the members of its
  ranges.
* `isLetter_of_isAlpha`, `isNumeral_of_isDigit`: the ASCII classes are covered.
* `isBlank_eq_false_of_isLetter`, `isBlank_eq_false_of_isNumeral`: no letter and no
  numeral is blank.
-/

namespace PageTemplate
namespace Text

/-- Whether `n` lies in one of the ranges of an increasing table. -/
def within : List (Nat × Nat) → Nat → Bool
  | [], _ => false
  | (lo, hi) :: ranges, n =>
      if n < lo then false else if n ≤ hi then true else within ranges n

/-- Whether the ranges are proper and lie above `bound`, each above the one before. -/
def increasing : Nat → List (Nat × Nat) → Bool
  | _, [] => true
  | bound, (lo, hi) :: ranges => bound ≤ lo && lo ≤ hi && increasing (hi + 1) ranges

/-- Whether `c` is a letter. -/
def isLetter (c : Char) : Bool :=
  within letterRanges c.toNat

/-- Whether `c` is a numeral. -/
def isNumeral (c : Char) : Bool :=
  within numeralRanges c.toNat

/-- Whether `c` is a letter or a numeral. -/
def isLetterOrNumeral (c : Char) : Bool :=
  isLetter c || isNumeral c

theorem le_of_within {n : Nat} :
    ∀ {bound : Nat} {ranges : List (Nat × Nat)}, increasing bound ranges = true →
      (∃ r ∈ ranges, r.1 ≤ n ∧ n ≤ r.2) → bound ≤ n
  | bound, (lo, hi) :: ranges, h, ⟨r, hr, hlo, hhi⟩ => by
      simp only [increasing, Bool.and_eq_true, decide_eq_true_eq] at h
      rcases List.mem_cons.mp hr with rfl | hr
      · exact Nat.le_trans h.1.1 hlo
      · have := le_of_within h.2 ⟨r, hr, hlo, hhi⟩
        omega

/-- A search through increasing ranges finds the range of a number if there is one. -/
theorem within_iff {n : Nat} :
    ∀ {bound : Nat} {ranges : List (Nat × Nat)}, increasing bound ranges = true →
      (within ranges n = true ↔ ∃ r ∈ ranges, r.1 ≤ n ∧ n ≤ r.2)
  | _, [], _ => by simp [within]
  | bound, (lo, hi) :: ranges, h => by
      simp only [increasing, Bool.and_eq_true, decide_eq_true_eq] at h
      have ih := within_iff (n := n) h.2
      have above : (∃ r ∈ ranges, r.1 ≤ n ∧ n ≤ r.2) → hi + 1 ≤ n := le_of_within h.2
      by_cases hlo : n < lo
      · simp only [within, hlo, if_true, List.mem_cons, exists_eq_or_imp]
        constructor
        · simp
        · rintro (h' | h')
          · omega
          · have := above h'
            omega
      · by_cases hhi : n ≤ hi
        · simp only [within, hlo, hhi, if_true, if_false, List.mem_cons, exists_eq_or_imp]
          exact ⟨fun _ => Or.inl ⟨by omega, trivial⟩, fun _ => trivial⟩
        · simp only [within, hlo, hhi, if_false, List.mem_cons, exists_eq_or_imp, ih]
          exact ⟨Or.inr, fun h' => h'.resolve_left (fun h'' => h''.2)⟩

theorem increasing_letterRanges : increasing 0 letterRanges = true := by
  decide +kernel

theorem increasing_numeralRanges : increasing 0 numeralRanges = true := by
  decide +kernel

theorem isLetter_of_isAlpha (c : Char) (h : c.isAlpha = true) : isLetter c = true := by
  rw [isLetter, within_iff increasing_letterRanges]
  have hcase : (c.isUpper || c.isLower) = true := h
  rcases (Bool.or_eq_true _ _).mp hcase with h | h
  · have hc : 'A'.val ≤ c.val ∧ c.val ≤ 'Z'.val := of_decide_eq_true h
    exact ⟨(0x41, 0x5A), List.Mem.head _, UInt32.le_iff_toNat_le.mp hc.1,
      UInt32.le_iff_toNat_le.mp hc.2⟩
  · have hc := (Bool.and_eq_true _ _).mp h
    exact ⟨(0x61, 0x7A), List.Mem.tail _ (List.Mem.head _),
      UInt32.le_iff_toNat_le.mp (of_decide_eq_true hc.1),
      UInt32.le_iff_toNat_le.mp (of_decide_eq_true hc.2)⟩

theorem isNumeral_of_isDigit (c : Char) (h : c.isDigit = true) : isNumeral c = true := by
  rw [isNumeral, within_iff increasing_numeralRanges]
  simp only [Char.isDigit, Bool.and_eq_true, decide_eq_true_eq, ge_iff_le,
    UInt32.le_iff_toNat_le] at h
  exact ⟨(0x30, 0x39), List.Mem.head _, h⟩

theorem isBlank_eq_false_of_isLetter (c : Char) (h : isLetter c = true) : isBlank c = false := by
  have key : blanks.all (fun b => !isLetter b) = true := by decide +kernel
  cases hb : isBlank c with
  | false => rfl
  | true => simpa [h] using List.all_eq_true.mp key c ((isBlank_iff c).mp hb)

theorem isBlank_eq_false_of_isNumeral (c : Char) (h : isNumeral c = true) :
    isBlank c = false := by
  have key : blanks.all (fun b => !isNumeral b) = true := by decide +kernel
  cases hb : isBlank c with
  | false => rfl
  | true => simpa [h] using List.all_eq_true.mp key c ((isBlank_iff c).mp hb)

end Text
end PageTemplate
