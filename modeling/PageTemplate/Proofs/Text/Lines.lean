import PageTemplate.Proofs.Text.Trimming

/-!
# The first line of a text

**Results.**
* `firstLine_append_laterLines`: a text is its first line and what follows.
* `firstLine_append_of_not_mem`, `laterLines_append_of_not_mem`: a text without line feed
  belongs to the line of what follows it.
* `trim_eq_trim_firstLine`: later lines of blanks are trimmed off.
* `newline_mem_trim_iff`: a line feed survives trimming exactly when more than blanks follow.
-/

namespace PageTemplate
namespace Text

/-- The text before the first line feed. -/
def firstLine (t : Text) : Text :=
  t.takeWhile (· ≠ '\n')

/-- The text from the first line feed on. -/
def laterLines (t : Text) : Text :=
  t.dropWhile (· ≠ '\n')

/-- A text is its first line and what comes later. -/
theorem firstLine_append_laterLines (t : Text) :
    firstLine t ++ laterLines t = t :=
  List.takeWhile_append_dropWhile

theorem newline_not_mem_firstLine (t : Text) :
    '\n' ∉ firstLine t := by
  intro h
  have hne := List.all_eq_true.mp List.all_takeWhile _ h
  simp at hne

theorem all_ne_of_not_mem
    {s : Text} (h : '\n' ∉ s) :
    ∀ c ∈ s, decide (c ≠ '\n') = true := by
  intro c hc
  exact decide_eq_true (fun heq => h (heq ▸ hc))

/-- A text of one line goes before the first line of what follows. -/
theorem firstLine_append_of_not_mem
    {s : Text} (h : '\n' ∉ s) (t : Text) :
    firstLine (s ++ t) = s ++ firstLine t :=
  List.takeWhile_append_of_pos (all_ne_of_not_mem h)

theorem laterLines_append_of_not_mem
    {s : Text} (h : '\n' ∉ s) (t : Text) :
    laterLines (s ++ t) = laterLines t :=
  List.dropWhile_append_of_pos (all_ne_of_not_mem h)

/-- A text with a line feed is its first line, the line feed, and the rest. -/
theorem laterLines_of_mem
    {t : Text} (h : '\n' ∈ t) :
    ∃ rest, laterLines t = '\n' :: rest := by
  cases hlater : laterLines t with
  | nil =>
      rw [← firstLine_append_laterLines t, hlater, List.append_nil] at h
      exact absurd h (newline_not_mem_firstLine t)
  | cons c rest =>
      have hstop := List.head?_dropWhile_not (· ≠ '\n') t
      have hhead : (t.dropWhile (· ≠ '\n')).head? = some c := by
        rw [← laterLines, hlater, List.head?_cons]
      rw [hhead] at hstop
      have hc : c = '\n' := by simpa using hstop
      exact ⟨rest, by rw [hc]⟩

/-- A text of several lines has its first line whatever follows. -/
theorem firstLine_append_of_mem
    {s : Text} (h : '\n' ∈ s) (t : Text) :
    firstLine (s ++ t) = firstLine s := by
  obtain ⟨rest, hrest⟩ := laterLines_of_mem h
  have hsplit := firstLine_append_laterLines s
  have hcut : s ++ t = firstLine s ++ '\n' :: (rest ++ t) := by
    rw [← List.cons_append, ← hrest, ← List.append_assoc, hsplit]
  rw [hcut, firstLine_append_of_not_mem (newline_not_mem_firstLine s)]
  simp [firstLine]

theorem laterLines_eq_nil
    {t : Text} (h : '\n' ∉ t) :
    laterLines t = [] := by
  have hcut := laterLines_append_of_not_mem h []
  rwa [List.append_nil] at hcut

/-! ## Trimming more than one line -/

theorem newline_not_mem_trim
    {t : Text} (h : '\n' ∉ t) :
    '\n' ∉ trim t := by
  intro hmem
  have hend : '\n' ∈ (trimStart t).reverse :=
    List.dropWhile_subset isBlank (List.mem_reverse.mp hmem)
  exact h (List.dropWhile_subset isBlank (List.mem_reverse.mp hend))

/-- Blank lines after the first one are trimmed off. -/
theorem trim_eq_trim_firstLine
    {t : Text} (h : AllBlank (laterLines t)) :
    trim t = trim (firstLine t) := by
  conv => lhs; rw [← firstLine_append_laterLines t]
  exact trim_append_right h (firstLine t)

/-- A line feed survives trimming exactly when more than blanks follow. -/
theorem newline_mem_trim_iff
    {t : Text} (h : AllBlank (firstLine t) → AllBlank (laterLines t)) :
    '\n' ∈ trim t ↔ ¬ AllBlank (laterLines t) := by
  constructor
  · intro hmem hblank
    rw [trim_eq_trim_firstLine hblank] at hmem
    exact newline_not_mem_trim (newline_not_mem_firstLine t) hmem
  · intro hlater
    have hfirst : ¬ AllBlank (firstLine t) := fun hall => hlater (h hall)
    have hmem : '\n' ∈ t := by
      refine Decidable.byContradiction ?_
      intro hnone
      rw [laterLines_eq_nil hnone] at hlater
      exact hlater allBlank_nil
    obtain ⟨rest, hrest⟩ := laterLines_of_mem hmem
    have hlast : ¬ AllBlank rest := by
      intro hall
      rw [hrest, allBlank_cons] at hlater
      exact hlater ⟨rfl, hall⟩
    have hcut : t = firstLine t ++ ['\n'] ++ rest := by
      rw [List.append_assoc, List.singleton_append, ← hrest, firstLine_append_laterLines]
    rw [hcut, trim_append_append hfirst hlast]
    simp

end Text
end PageTemplate
