import PageTemplate.Proofs.Text.Trimming

/-!
# Line ends spelled differently

A text is written with something else for each of its line feeds.  What stands for a line
feed is blank, as the line feed is, and so trimming and unquoting do not see the difference.

**Results.**
* `withLineEnd_append`, `withLineEnd_of_not_mem`: only the line feeds change.
* `trim_withLineEnd`, `unquote_withLineEnd`: names and patterns change as the text does.
* `takeWhile_withLineEnd`: what stops at a line feed stops at what stands for it.
-/

namespace PageTemplate
namespace Text

/-- What stands for a character when `eol` stands for a line feed. -/
def spell (eol : Text) (c : Char) : Text :=
  if c = '\n' then eol else [c]

/-- The text with `eol` for every line feed. -/
def withLineEnd (eol : Text) (t : Text) : Text :=
  t.flatMap (spell eol)

section Spelling

variable (eol : Text)

@[simp] theorem withLineEnd_nil :
    withLineEnd eol [] = [] := rfl

theorem withLineEnd_cons
    (c : Char) (t : Text) :
    withLineEnd eol (c :: t) = spell eol c ++ withLineEnd eol t := rfl

@[simp] theorem withLineEnd_newline (t : Text) :
    withLineEnd eol ('\n' :: t) = eol ++ withLineEnd eol t := rfl

theorem withLineEnd_cons_of_ne
    {c : Char} (h : c ≠ '\n') (t : Text) :
    withLineEnd eol (c :: t) = c :: withLineEnd eol t := by
  rw [withLineEnd_cons, spell, if_neg h, List.singleton_append]

@[simp] theorem withLineEnd_append (s t : Text) :
    withLineEnd eol (s ++ t) = withLineEnd eol s ++ withLineEnd eol t :=
  List.flatMap_append

/-- A text of one line stays as it is. -/
theorem withLineEnd_of_not_mem
    {t : Text} (h : '\n' ∉ t) :
    withLineEnd eol t = t := by
  induction t with
  | nil =>
      rfl
  | cons c t ih =>
      rw [List.mem_cons, not_or] at h
      rw [withLineEnd_cons_of_ne eol (Ne.symm h.1), ih h.2]

/-- A line feed may stand for itself. -/
theorem withLineEnd_lineFeed (t : Text) :
    withLineEnd ['\n'] t = t := by
  induction t with
  | nil =>
      rfl
  | cons c t ih =>
      by_cases hc : c = '\n'
      · rw [hc, withLineEnd_newline, ih, List.singleton_append]
      · rw [withLineEnd_cons_of_ne _ hc, ih]

/-- Read backwards, a text has its line ends backwards. -/
theorem reverse_withLineEnd (t : Text) :
    (withLineEnd eol t).reverse = withLineEnd eol.reverse t.reverse := by
  induction t with
  | nil =>
      rfl
  | cons c t ih =>
      have hone : (spell eol c).reverse = spell eol.reverse c := by
        unfold spell
        split
        · rfl
        · rfl
      rw [withLineEnd_cons, List.reverse_append, ih, List.reverse_cons, withLineEnd_append,
        withLineEnd_cons, withLineEnd_nil, List.append_nil, hone]

/-- What stops at a line feed stops at what stands for it. -/
theorem takeWhile_withLineEnd
    {p : Char → Bool} (hp : p '\n' = false) {first : Char} (hfirst : p first = false)
    (rest t : Text) :
    (withLineEnd (first :: rest) t).takeWhile p = t.takeWhile p := by
  induction t with
  | nil =>
      rfl
  | cons c t ih =>
      by_cases hc : c = '\n'
      · subst hc
        rw [withLineEnd_newline, List.cons_append, List.takeWhile_cons_of_neg (by simp [hfirst]),
          List.takeWhile_cons_of_neg (by simp [hp])]
      · rw [withLineEnd_cons_of_ne _ hc, List.takeWhile_cons, List.takeWhile_cons, ih]

end Spelling

/-! ## Line ends that are blank -/

section Blank

variable {eol : Text} (hblank : AllBlank eol)
include hblank

theorem allBlank_spell (c : Char) :
    AllBlank (spell eol c) ↔ isBlank c = true := by
  unfold spell
  split
  · next hc =>
      subst hc
      exact iff_of_true hblank rfl
  · rw [allBlank_cons]
    exact and_iff_left allBlank_nil

theorem trimStart_withLineEnd (t : Text) :
    trimStart (withLineEnd eol t) = withLineEnd eol (trimStart t) := by
  induction t with
  | nil =>
      rfl
  | cons c t ih =>
      cases hc : isBlank c with
      | true =>
          have hspell := (allBlank_spell hblank c).mpr hc
          rw [withLineEnd_cons, trimStart_append_left hspell, ih, trimStart, trimStart,
            List.dropWhile_cons_of_pos hc]
      | false =>
          have hne : c ≠ '\n' := by
            rintro rfl
            cases hc
          rw [trimStart, trimStart, withLineEnd_cons_of_ne eol hne,
            List.dropWhile_cons_of_neg (by simp [hc]),
            List.dropWhile_cons_of_neg (by simp [hc]), withLineEnd_cons_of_ne eol hne]

theorem trimEnd_withLineEnd (t : Text) :
    trimEnd (withLineEnd eol t) = withLineEnd eol (trimEnd t) := by
  have hreverse : AllBlank eol.reverse := fun c hc => hblank c (List.mem_reverse.mp hc)
  have hstart := trimStart_withLineEnd hreverse t.reverse
  unfold trimStart at hstart
  rw [trimEnd, reverse_withLineEnd, hstart, reverse_withLineEnd, List.reverse_reverse, trimEnd]

/-- Trimming a text and writing it down can change places. -/
theorem trim_withLineEnd (t : Text) :
    trim (withLineEnd eol t) = withLineEnd eol (trim t) := by
  rw [trim, trimStart_withLineEnd hblank, trimEnd_withLineEnd hblank, trim]

variable (hne : eol ≠ [])
include hne

/-- A character that is not blank stands where it stood. -/
theorem head?_withLineEnd
    {c : Char} (hc : isBlank c = false) (t : Text) :
    (withLineEnd eol t).head? = some c ↔ t.head? = some c := by
  cases t with
  | nil =>
      rfl
  | cons d t =>
      by_cases hd : d = '\n'
      · subst hd
        obtain ⟨e, rest, rfl⟩ := List.exists_cons_of_ne_nil hne
        have he : isBlank e = true := hblank e List.mem_cons_self
        have hec : e ≠ c := by
          rintro rfl
          rw [he] at hc
          cases hc
        have hnc : '\n' ≠ c := by
          rintro rfl
          cases hc
        simp [hec, hnc]
      · rw [withLineEnd_cons_of_ne eol hd, List.head?_cons, List.head?_cons]

/-- The last character stays if it is not blank. -/
theorem getLast?_withLineEnd
    {c : Char} (hc : isBlank c = false) (t : Text) :
    (withLineEnd eol t).getLast? = some c ↔ t.getLast? = some c := by
  have hreverse : AllBlank eol.reverse := fun c hc => hblank c (List.mem_reverse.mp hc)
  have hhead := head?_withLineEnd hreverse (List.reverse_ne_nil_iff.mpr hne) hc t.reverse
  rwa [← reverse_withLineEnd, List.head?_reverse, List.head?_reverse] at hhead

/-- Taking off quotes and writing a text down can change places. -/
theorem unquote_withLineEnd (t : Text) :
    unquote (withLineEnd eol t) = withLineEnd eol (unquote t) := by
  by_cases hquote : t.head? = some '"'
  · obtain ⟨inner, rfl⟩ := List.head?_eq_some_iff.mp hquote
    have hlast := getLast?_withLineEnd hblank hne (c := '"') (by decide) inner
    rw [withLineEnd_cons_of_ne eol (by decide)]
    simp only [unquote, hlast]
    split
    · next hclose =>
        obtain ⟨init, rfl⟩ := List.getLast?_eq_some_iff.mp hclose
        rw [withLineEnd_append, withLineEnd_cons_of_ne eol (by decide), withLineEnd_nil,
          List.dropLast_concat, List.dropLast_concat]
    · rw [withLineEnd_cons_of_ne eol (by decide)]
  · have hother : (withLineEnd eol t).head? ≠ some '"' :=
      mt (head?_withLineEnd hblank hne (by decide) t).mp hquote
    rw [unquote_of_head?_ne hother, unquote_of_head?_ne hquote]

end Blank

end Text
end PageTemplate
