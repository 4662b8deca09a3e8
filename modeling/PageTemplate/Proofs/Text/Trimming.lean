import PageTemplate.Text.Blank

/-!
# What trimming leaves

Blanks at the ends of a text do not count; everything between two characters that are not
blank does.

**Results.**
* `trim_append_left`, `trim_append_right`: blanks at either end do not count.
* `trim_append_append`: what stands between two texts that are not blank stays.
* `mem_unquote_iff`: unquoting takes nothing but quotes away.
-/

namespace PageTemplate
namespace Text

/-- Whether the text has nothing but blanks. -/
def AllBlank (t : Text) : Prop :=
  ∀ c ∈ t, isBlank c = true

instance (t : Text) : Decidable (AllBlank t) :=
  decidable_of_iff (t.all isBlank = true) List.all_eq_true

@[simp] theorem allBlank_nil :
    AllBlank [] := by
  simp [AllBlank]

@[simp] theorem allBlank_cons
    (c : Char) (t : Text) :
    AllBlank (c :: t) ↔ isBlank c = true ∧ AllBlank t := by
  simp [AllBlank]

@[simp] theorem allBlank_append
    (s t : Text) :
    AllBlank (s ++ t) ↔ AllBlank s ∧ AllBlank t := by
  simp [AllBlank, or_imp, forall_and]

theorem trimStart_append_left
    {a : Text} (h : AllBlank a) (t : Text) :
    trimStart (a ++ t) = trimStart t :=
  List.dropWhile_append_of_pos h

theorem trimEnd_append_right
    {b : Text} (h : AllBlank b) (t : Text) :
    trimEnd (t ++ b) = trimEnd t := by
  have hreverse : ∀ c ∈ b.reverse, isBlank c = true :=
    fun c hc => h c (List.mem_reverse.mp hc)
  rw [trimEnd, List.reverse_append, List.dropWhile_append_of_pos hreverse, trimEnd]

/-- A text that is not blank keeps what follows it. -/
theorem trimStart_append
    {a : Text} (h : ¬ AllBlank a) (t : Text) :
    trimStart (a ++ t) = trimStart a ++ t := by
  have hne : ¬ (trimStart a).isEmpty = true := by
    rw [List.isEmpty_iff, trimStart_eq_nil_iff]
    exact h
  unfold trimStart at hne ⊢
  rw [List.dropWhile_append, if_neg hne]

theorem trimEnd_append
    {b : Text} (h : ¬ AllBlank b) (t : Text) :
    trimEnd (t ++ b) = t ++ trimEnd b := by
  have hreverse : ¬ AllBlank b.reverse := by
    intro hall
    exact h (fun c hc => hall c (List.mem_reverse.mpr hc))
  have hstart := trimStart_append hreverse t.reverse
  unfold trimStart at hstart
  rw [trimEnd, List.reverse_append, hstart, List.reverse_append, List.reverse_reverse, trimEnd]

/-- Blanks before a text are trimmed off with its own. -/
theorem trim_append_left
    {a : Text} (h : AllBlank a) (t : Text) :
    trim (a ++ t) = trim t := by
  rw [trim, trimStart_append_left h, trim]

/-- Blanks behind a text are trimmed off with its own. -/
theorem trim_append_right
    {b : Text} (h : AllBlank b) (t : Text) :
    trim (t ++ b) = trim t := by
  by_cases ht : AllBlank t
  · have hboth : AllBlank (t ++ b) := (allBlank_append t b).mpr ⟨ht, h⟩
    rw [(trim_eq_nil_iff _).mpr hboth, (trim_eq_nil_iff _).mpr ht]
  · rw [trim, trimStart_append ht, trimEnd_append_right h, trim]

/-- Trimming stops at both ends before what is between them. -/
theorem trim_append_append
    {a b : Text} (ha : ¬ AllBlank a) (hb : ¬ AllBlank b) (m : Text) :
    trim (a ++ m ++ b) = trimStart a ++ m ++ trimEnd b := by
  rw [trim, List.append_assoc, trimStart_append ha, ← List.append_assoc, trimEnd_append hb]

theorem unquote_of_head?_ne
    {t : Text} (h : t.head? ≠ some '"') :
    unquote t = t := by
  cases t with
  | nil =>
      rfl
  | cons c t =>
      refine unquote_of_head_ne ?_ t
      rintro rfl
      exact h rfl

/-- No character but quotes is taken off. -/
theorem mem_unquote_iff
    {c : Char} (hc : c ≠ '"') (t : Text) :
    c ∈ unquote t ↔ c ∈ t := by
  unfold unquote
  split
  · next inner =>
      split
      · next hlast =>
          obtain ⟨init, rfl⟩ := List.getLast?_eq_some_iff.mp hlast
          simp [hc]
      · rfl
  · rfl

end Text
end PageTemplate
