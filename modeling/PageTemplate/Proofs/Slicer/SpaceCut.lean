import Mathlib.Data.List.DropRight
import PageTemplate.Slicer.Basic

/-!
# Cutting white space

A location counts what lies before it, so a text may be cut anywhere: reading it leads to where
reading its pieces in turn leads to.  White space is cut in this way after its first character,
whatever the token may hold.

**Input.**  A slicer in any state, with white space at its cursor.

**Algorithm.**  The token is passed.  Its first character is accepted as a token of its own, and
the caller is given what is left; a token of at most one character is accepted as it is.

**Results.**
* `Text.exists_append_lastLine`: a text is cut at its last line feed.
* `column_advance_eq`: only what follows the last line feed of a text counts for the column.
* `cutsFirst_of_none`, `cutsFirst_of_some`: what splitting a token makes of it.
* `acceptOneSpace_eq_cut`: what is accepted of white space, and what is given back.
* `advance_and_acceptOneSpace`: locations and white space that are cut.
-/

namespace PageTemplate

/-! ## Where a text leads to -/

/-- The text after the last line feed. -/
def Text.lastLine (t : Text) : Text :=
  t.rtakeWhile (· ≠ '\n')

theorem Text.newline_not_mem_lastLine (t : Text) :
    '\n' ∉ lastLine t := by
  intro h
  simpa using List.mem_rtakeWhile_imp h

/-- A text with a line feed is cut at its last one. -/
theorem Text.exists_append_lastLine
    {t : Text} (h : '\n' ∈ t) :
    ∃ s, t = s ++ '\n' :: lastLine t := by
  obtain ⟨s, hs⟩ : ∃ s, t.rdropWhile (· ≠ '\n') = s := ⟨_, rfl⟩
  have hcut : s ++ lastLine t = t := by
    rw [← hs]
    exact List.rdropWhile_append_rtakeWhile
  have hne : s ≠ [] := by
    intro hnil
    rw [hnil, List.rdropWhile_eq_nil_iff] at hs
    simpa using hs '\n' h
  have hlast : s.getLast hne = '\n' := by
    subst hs
    simpa using List.rdropWhile_last_not _ t hne
  refine ⟨s.dropLast, ?_⟩
  rw [← List.singleton_append, ← List.append_assoc, ← hlast, List.dropLast_append_getLast, hcut]

/-- Only what follows the last line feed counts for the column, and all of a text without one. -/
theorem Location.column_advance_eq
    (l : Location) (t : Text) :
    (l.advance t).column =
      if '\n' ∈ t then (Text.lastLine t).length else l.column + t.length := by
  split
  case isTrue h =>
    obtain ⟨s, hs⟩ := Text.exists_append_lastLine h
    have hcolumn := l.column_advance_newline s (Text.newline_not_mem_lastLine t)
    rwa [← hs] at hcolumn
  case isFalse h =>
    exact l.column_advance h

/-! ## Tokens cut after their first character -/

/-- Whether the token is cut into its first character, which is all of a token with no more than
one, and the rest, if there is any. -/
structure Token.CutsFirst (t first : Token) (rest : Option Token) : Prop where
  kind : first.kind = t.kind
  location : first.location = t.location
  content : first.content = t.content.take 1
  whole : t.content.length ≤ 1 → first = t
  rest_eq_none_iff : rest = none ↔ t.content.length ≤ 1
  kind_rest : ∀ r, rest = some r → r.kind = t.kind
  location_rest : ∀ r, rest = some r → r.location = first.endLocation
  content_rest : ∀ r, rest = some r → first.content ++ r.content = t.content
  endLocation_rest : ∀ r, rest = some r → r.endLocation = t.endLocation

namespace Token

variable {t first rest : Token}

/-- White space that cannot be split is cut off as a whole. -/
theorem cutsFirst_of_none (h : t.splitFirst = none) :
    t.CutsFirst t none := by
  have hlength : t.content.length ≤ 1 := (splitFirst_eq_none_iff t).mp h
  exact {
    kind := rfl
    location := rfl
    content := (List.take_of_length_le hlength).symm
    whole := fun _ => rfl
    rest_eq_none_iff := iff_of_true rfl hlength
    kind_rest := nofun
    location_rest := nofun
    content_rest := nofun
    endLocation_rest := nofun }

/-- Longer white space is cut behind its first character. -/
theorem cutsFirst_of_some (h : t.splitFirst = some (first, rest)) :
    t.CutsFirst first (some rest) := by
  obtain ⟨hlength, hcontent⟩ := content_of_splitFirst h
  obtain ⟨hplace, hrest, hend⟩ := location_of_splitFirst h
  obtain ⟨hfirst, hkind⟩ := kind_of_splitFirst h
  have hlong : ¬ t.content.length ≤ 1 := by
    rw [← splitFirst_eq_none_iff, h]
    exact Option.some_ne_none _
  exact {
    kind := hfirst
    location := hplace
    content := by rw [← hcontent, ← hlength, List.take_left]
    whole := fun hshort => absurd hshort hlong
    rest_eq_none_iff := iff_of_false (Option.some_ne_none _) hlong
    kind_rest := by
      rintro _ ⟨⟩
      exact hkind
    location_rest := by
      rintro _ ⟨⟩
      exact hrest
    content_rest := by
      rintro _ ⟨⟩
      exact hcontent
    endLocation_rest := by
      rintro _ ⟨⟩
      exact hend }

end Token

/-! ## White space at the cursor -/

theorem Cursor.position_move_one
    {c : Cursor} {t : Token} (h : c.current? = some t) :
    (c.move 1).position = c.position + 1 := by
  obtain ⟨ts, hrest⟩ := List.head?_eq_some_iff.mp h
  rw [position_move, hrest, List.length_cons]
  omega

namespace Slicer

/-- White space is passed as a whole and accepted up to its first character. -/
theorem acceptOneSpace_eq_cut
    {s : Slicer} {t : Token} (ht : s.cursor.current? = some t) (hkind : t.kind = .whiteSpace) :
    ∃ first : Token, t.CutsFirst first s.acceptOneSpace.1 ∧
      s.acceptOneSpace.2 =
        { s with cursor := s.cursor.move 1, draft := s.draft.accept [first] } := by
  have hspace : s.cursor.current?.filter (·.kind = .whiteSpace) = some t := by
    rw [ht]
    simp [hkind]
  cases hsplit : t.splitFirst with
  | none =>
      obtain ⟨ts, hrest⟩ := List.head?_eq_some_iff.mp ht
      have hnext : s.cursor.rest.take 1 = [t] := by rw [hrest]; rfl
      have hone : s.acceptOneSpace = (none, s.acceptNext 1) := by
        simp only [acceptOneSpace, hspace, hsplit]
      rw [hone]
      refine ⟨t, Token.cutsFirst_of_none hsplit, ?_⟩
      simp only [acceptNext, hnext]
  | some pieces =>
      have hone : s.acceptOneSpace = (some pieces.2,
          { s with cursor := s.cursor.move 1, draft := s.draft.accept [pieces.1] }) := by
        simp only [acceptOneSpace, hspace, hsplit]
      rw [hone]
      exact ⟨pieces.1, Token.cutsFirst_of_some hsplit, rfl⟩

/-- Reading a text leads to where its pieces lead to in turn: on by its bytes, down by its line
feeds, and to the column after its last line feed.  So white space is cut after its first
character without a gap, and the end of what is given back is the end of the token. -/
theorem advance_and_acceptOneSpace :
    (∀ (l : Location) (a b : Text), l.advance (a ++ b) = (l.advance a).advance b) ∧
    (∀ (l : Location) (t : Text),
      (l.advance t).offset = l.offset + Text.utf8Size t ∧
      (l.advance t).line = l.line + t.count '\n' ∧
      (l.advance t).column =
        if '\n' ∈ t then (Text.lastLine t).length else l.column + t.length) ∧
    ∀ (s : Slicer) (t : Token), s.cursor.current? = some t → t.kind = .whiteSpace →
      ∃ first : Token, t.CutsFirst first s.acceptOneSpace.1 ∧
        s.acceptOneSpace.2 =
          { s with cursor := s.cursor.move 1, draft := s.draft.accept [first] } ∧
        (s.cursor.move 1).position = s.cursor.position + 1 := by
  refine ⟨Location.advance_append, ?_, ?_⟩
  · intro l t
    exact ⟨l.offset_advance t, l.line_advance t, l.column_advance_eq t⟩
  · intro s t ht hkind
    obtain ⟨first, hcut, hafter⟩ := acceptOneSpace_eq_cut ht hkind
    exact ⟨first, hcut, hafter, Cursor.position_move_one ht⟩

/-- The first character may take more than one byte, and what is left may start a line. -/
example :
    (⟨.whiteSpace, ['\u00a0', '\n', ' '], ⟨5, 1, 2⟩⟩ : Token).splitFirst =
      some (⟨.whiteSpace, ['\u00a0'], ⟨5, 1, 2⟩⟩, ⟨.whiteSpace, ['\n', ' '], ⟨7, 1, 3⟩⟩) := by
  decide

end Slicer
end PageTemplate
