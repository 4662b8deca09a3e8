import PageTemplate.Proofs.Slicer.Onward
import PageTemplate.Proofs.Reader.Run

/-!
# Calls from any state

**Input.**  A slicer that any operations have brought into any state, and a reader that goes
on with it, after any calls.

Nothing has to be in order for the next call: there may be tokens in the draft, a block may
be open, and its completion requested.  What is read goes on from there.

**Results.**
* `onward_perform`, `onward_readAll`, `onward_run`: calls only go on.
* `exists_readAll_settled`: the rest of every document can be read, and then nothing is left.
* `exists_handle_eq_error_iff`, `error_of_handle`: a directive is refused where its keyword does
  not stand.
* `position_of_handle`: a directive is followed by what follows its line.
* `call_run`: what any call does after any operations and any calls.
-/

namespace PageTemplate

open Token (line)

namespace Token

/-- The number of the token after the line that goes on at the number `i`.  At design time that
is the line end itself. -/
def lineStop (designTime : Bool) (ts : List Token) (i : Nat) : Nat :=
  match (ts.drop i).findIdx? (·.kind = .newLine) with
  | some n => i + n + (if designTime then 0 else 1)
  | none => ts.length

/-- The line that goes on at a number ends at its stop. -/
theorem add_length_line
    (designTime : Bool) {ts : List Token} {i : Nat} (h : i ≤ ts.length) :
    i + (line designTime (ts.drop i)).length = lineStop designTime ts i := by
  rw [length_line, lineStop]
  cases (ts.drop i).findIdx? (·.kind = .newLine) with
  | none =>
      simp only [List.length_drop]
      omega
  | some n =>
      exact (Nat.add_assoc _ _ _).symm

end Token

namespace Cursor

theorem current?_eq (c : Cursor) :
    c.current? = c.tokens[c.position]? := by
  rw [current?, c.rest_eq_drop, List.head?_drop]

/-- A keyword stands at the cursor when the token of its number is that identifier. -/
theorem isAtKeyword_iff
    (keyword : Text) (c : Cursor) :
    c.isAtKeyword keyword = true ↔
      ∃ t, c.tokens[c.position]? = some t ∧ t.kind = .identifier ∧ t.content = keyword := by
  rw [isAtKeyword, current?_eq, Option.any_eq_true]
  simp only [Token.isKeyword_iff]

end Cursor

namespace Slicer

theorem onward_reportAll
    (ds : List Diagnostic) (s : Slicer) :
    s.Onward (s.reportAll ds) where
  cursor := Cursor.Reaches.refl _
  designTime := rfl
  blocks := List.prefix_rfl
  diagnostics := by simp [reportAll]

/-- Taking a line goes on, since each of its steps does. -/
theorem onward_takeLine
    (baseType : Text) (l : DirectiveLine) (s : Slicer) :
    s.Onward (s.takeLine baseType l) :=
  ((s.onward_outputKeyword.trans (onward_reportAll _ _)).trans (onward_acceptNext _ _)).trans
    (onward_finishDirective _ _ _)

theorem onward_outputTransition (s : Slicer) :
    s.Onward s.outputTransition :=
  ((s.onward_beginBlock .statement).trans (onward_acceptNext _ 1)).trans (onward_output _ _)

theorem onward_ensureMarkup (s : Slicer) :
    s.Onward s.ensureMarkup := by
  unfold ensureMarkup
  split
  · exact Onward.refl s
  · exact s.onward_beginBlock .markup

/-- Once everything is settled, what came out is what has come out already. -/
theorem results_of_settled
    {s : Slicer} (h : s.Settled) :
    s.results = ⟨s.blocks.toList, s.diagnostics.toList⟩ := by
  rw [results, endBlock_of_settled h]

end Slicer

namespace Reader

open Slicer (Onward Settled)
open Token (lineStop)

/-! ## Calls go on -/

/-- Performing a directive goes on. -/
theorem onward_perform
    {r : Reader} {k : Token} {ts : List Token}
    (h : r.slicer.cursor.rest = k :: ts) (d : Directive) :
    r.slicer.Onward (r.perform d).slicer := by
  rw [perform_eq h]
  exact ((r.slicer.onward_acceptNext 1).trans (Slicer.onward_takeLine _ _ _)).trans
    (Slicer.onward_reportAll _ _)

theorem keptBySteps_onward (s : Slicer) :
    KeptBySteps (fun _ r => s.Onward r.slicer) where
  perform hrest _ h := h.trans (onward_perform hrest _)
  transition h := h.trans (Slicer.onward_outputTransition _)
  endBlock h := h.trans (Slicer.onward_endBlock _)
  markup h := (h.trans (Slicer.onward_ensureMarkup _)).trans (Slicer.onward_acceptNext _ _)

/-- Reading the rest of a document goes on, by the steps it is made of. -/
theorem onward_readAll
    {r done : Reader} (h : r.readAll = .ok done) :
    r.slicer.Onward done.slicer :=
  @KeptBySteps.after_readAll _ (keptBySteps_onward r.slicer) [] r done (Onward.refl _) h

/-- Whatever calls are made, they go on. -/
theorem onward_run
    (r : Reader) (calls : List Call) :
    r.slicer.Onward (r.run calls).slicer :=
  @KeptBySteps.after_run _ (keptBySteps_onward r.slicer) [] r (Onward.refl _) calls

/-! ## The rest of the document -/

/-- The last step of the reading ends the block that is open at the end of the document. -/
theorem exists_readAll_eq_endBlock (r : Reader) :
    ∃ (s : Slicer) (h : History),
      s.cursor.rest = [] ∧ r.readAll = .ok ⟨s.endBlock, h⟩ := by
  induction r using induction_on with
  | atEnd r hend =>
      exact ⟨r.slicer, r.history, hend, readAll_of_end hend⟩
  | directive r d hd ih =>
      rwa [readAll_of_directive hd]
  | markup r hne hd ih =>
      rwa [readAll_of_markup hne hd]

/-- At the end of the document, with everything settled, there is nothing more to read. -/
theorem readAll_of_settled
    {r : Reader} (hend : r.slicer.cursor.rest = []) (h : r.slicer.Settled) :
    r.readAll = .ok r := by
  rw [readAll_of_end hend, Slicer.endBlock_of_settled h]

/-- The rest of every document can be read, once. -/
theorem exists_readAll_settled (r : Reader) :
    ∃ done, r.readAll = .ok done ∧
      done.slicer.cursor.position = r.slicer.cursor.tokens.length ∧
      done.slicer.Settled ∧ done.readAll = .ok done := by
  obtain ⟨s, h, hend, hdone⟩ := exists_readAll_eq_endBlock r
  have hsettled := s.settled_endBlock
  have hrest : s.endBlock.cursor.rest = [] := by
    rw [Slicer.cursor_endBlock, hend]
  have htokens : s.endBlock.cursor.tokens = r.slicer.cursor.tokens :=
    (onward_readAll hdone).cursor.tokens_eq
  have hposition : s.endBlock.cursor.position = r.slicer.cursor.tokens.length := by
    rw [← htokens, Cursor.tokens, hrest, List.append_nil, List.length_reverse, Cursor.position]
  exact ⟨_, hdone, hposition, hsettled, readAll_of_settled hrest hsettled⟩

/-! ## One directive -/

/-- Where its keyword does not stand, a directive is refused with what stands there. -/
theorem handle_of_not_isAtKeyword
    {d : Directive} {r : Reader} (h : r.slicer.cursor.isAtKeyword d.keyword = false) :
    r.handle d =
      .error ⟨d.keyword, (r.slicer.cursor.current?.map Token.content).getD [],
        r.slicer.location⟩ := by
  simp [handle, Slicer.checkKeyword, h]

/-- A directive is refused everywhere but at its keyword. -/
theorem exists_handle_eq_error_iff
    (d : Directive) (r : Reader) :
    (∃ e, r.handle d = .error e) ↔
      ¬ ∃ t, r.slicer.cursor.tokens[r.slicer.cursor.position]? = some t ∧
        t.kind = .identifier ∧ t.content = d.keyword := by
  rw [← Cursor.isAtKeyword_iff]
  cases hat : r.slicer.cursor.isAtKeyword d.keyword with
  | false =>
      simp [handle_of_not_isAtKeyword hat]
  | true =>
      simp [(handle_eq_ok_iff d r _).mpr ⟨hat, rfl⟩]

/-- The refusal says what stands in the place of the keyword. -/
theorem error_of_handle
    {d : Directive} {r : Reader} {e : UnexpectedDirective} (h : r.handle d = .error e) :
    e = ⟨d.keyword,
      (r.slicer.cursor.tokens[r.slicer.cursor.position]?.map Token.content).getD [],
      r.slicer.location⟩ := by
  cases hat : r.slicer.cursor.isAtKeyword d.keyword with
  | false =>
      rw [handle_of_not_isAtKeyword hat, Except.error.injEq] at h
      rw [← h, Cursor.current?_eq]
  | true =>
      rw [(handle_eq_ok_iff d r _).mpr ⟨hat, rfl⟩] at h
      cases h

/-- What follows the keyword of a directive is passed up to the next line end, and so is the
line end unless at design time. -/
theorem position_perform
    {r : Reader} {k : Token} {ts : List Token}
    (h : r.slicer.cursor.rest = k :: ts) (d : Directive) :
    (r.perform d).slicer.cursor.position =
      lineStop r.slicer.designTime r.slicer.cursor.tokens (r.slicer.cursor.position + 1) := by
  have hafter : r.slicer.cursor.tokens.drop (r.slicer.cursor.position + 1) = ts := by
    rw [← List.drop_drop, ← r.slicer.cursor.rest_eq_drop, h]
    rfl
  have htotal : r.slicer.cursor.position + 1 ≤ r.slicer.cursor.tokens.length := by
    simp [Cursor.tokens, Cursor.position, h]
  have hfits : 1 + (line r.slicer.designTime ts).length ≤ r.slicer.cursor.rest.length := by
    have hle := (List.take_sublist (line r.slicer.designTime ts).length ts).length_le
    rw [Token.take_length_line] at hle
    rw [h, List.length_cons]
    omega
  rw [← Token.add_length_line r.slicer.designTime htotal, hafter, cursor_perform h,
    Cursor.position_move, Nat.min_eq_left hfits, Nat.add_assoc]

/-- A directive that is not refused is followed by what follows its line. -/
theorem position_of_handle
    {d : Directive} {r done : Reader} (h : r.handle d = .ok done) :
    done.slicer.cursor.position =
      lineStop r.slicer.designTime r.slicer.cursor.tokens (r.slicer.cursor.position + 1) := by
  obtain ⟨hat, rfl⟩ := (handle_eq_ok_iff d r done).mp h
  obtain ⟨k, hhead, -⟩ := (Option.any_eq_true _ _).mp hat
  obtain ⟨ts, hrest⟩ := List.head?_eq_some_iff.mp hhead
  exact position_perform hrest d

/-- After any operations and any calls, the rest of the document can be read to its end, and
then nothing is left; and a directive is performed exactly where its keyword stands, up to
the end of its line, while a refused one changes nothing. -/
theorem call_run
    (designTime : Bool) (ts : List Token) (ops : List Slicer.Operation) (baseType : Text)
    (calls : List Call) :
    let r := (ofSlicer baseType ((Slicer.ofTokens designTime ts).run ops)).run calls
    let here := r.slicer.cursor.position
    (∃ done, r.readAll = .ok done ∧ Call.readAll.apply r = done ∧
      done.slicer.cursor.position = ts.length ∧ done.slicer.Settled ∧
      done.results = ⟨done.slicer.blocks.toList, done.slicer.diagnostics.toList⟩ ∧
      done.readAll = .ok done) ∧
    (∀ d, directiveAt r.slicer.cursor.rest = some d →
      ∃ done, handle d { r with slicer := r.slicer.outputTransition } = .ok done) ∧
    ∀ d : Directive,
      ((∃ e, r.handle d = .error e) ↔
        ¬ ∃ t, ts[here]? = some t ∧ t.kind = .identifier ∧ t.content = d.keyword) ∧
      (∀ e, r.handle d = .error e →
        (Call.handle d).apply r = r ∧
          e = ⟨d.keyword, (ts[here]?.map Token.content).getD [], r.slicer.location⟩) ∧
      (∀ done, r.handle d = .ok done →
        (Call.handle d).apply r = done ∧
          done.slicer.cursor.position = lineStop designTime ts (here + 1)) := by
  intro r here
  have hall : (Slicer.ofTokens designTime ts).Onward r.slicer :=
    (Slicer.onward_run _ ops).trans (onward_run (ofSlicer baseType _) calls)
  have htokens : r.slicer.cursor.tokens = ts :=
    hall.cursor.tokens_eq
  have hmode : r.slicer.designTime = designTime :=
    hall.designTime
  refine ⟨?_, fun d hd => ⟨_, handle_of_directiveAt hd⟩, fun d => ⟨?_, ?_, ?_⟩⟩
  · obtain ⟨done, hdone, hposition, hsettled, hagain⟩ := exists_readAll_settled r
    rw [htokens] at hposition
    exact ⟨done, hdone, by rw [Call.apply, hdone], hposition, hsettled,
      Slicer.results_of_settled hsettled, hagain⟩
  · have hiff := exists_handle_eq_error_iff d r
    rwa [htokens] at hiff
  · intro e he
    have herror := error_of_handle he
    rw [htokens] at herror
    exact ⟨by rw [Call.apply, he], herror⟩
  · intro done hdone
    have hposition := position_of_handle hdone
    rw [htokens, hmode] at hposition
    exact ⟨by rw [Call.apply, hdone], hposition⟩

end Reader
end PageTemplate
