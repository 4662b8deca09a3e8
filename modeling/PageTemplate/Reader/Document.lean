import PageTemplate.Reader.Basic

/-!
# Reading documents

**Input.**  A reader at any place of a document.

**Algorithm.**  An `@` directly before a keyword starts a directive: the `@` is a
span of its own, and the directive is performed at its keyword.  All tokens up to
the next such place are markup and go into one block.

**Results.**
* `directiveAt_eq_some_iff`: where a directive starts.
* `readAll_of_end`, `readAll_of_directive`, `readAll_of_markup`: the reading goes on
  by whole directives and whole stretches of markup.
* `exists_readAll_eq_ok`: it never meets an error.
-/

namespace PageTemplate

/-- The directive that starts at the first of the tokens. -/
def directiveAt : List Token → Option Directive
  | t :: k :: _ =>
      if t.kind = .transition ∧ k.kind = .identifier then Directive.table.get? k.content
      else none
  | _ => none

/-- Number of tokens before the next directive, added to `n`. -/
def markupRun : List Token → Nat → Nat
  | [], n => n
  | t :: rest, n =>
      if (directiveAt (t :: rest)).isSome then n else markupRun rest (n + 1)

/-- A directive starts at an `@` with its keyword right behind it. -/
theorem directiveAt_eq_some_iff (ts : List Token) (d : Directive) :
    directiveAt ts = some d ↔
      ∃ t k rest, ts = t :: k :: rest ∧ t.kind = .transition ∧ k.isKeyword d.keyword = true := by
  unfold directiveAt
  split
  · next t k rest =>
      split
      · next h =>
          rw [Directive.get?_table_eq_some_iff]
          constructor
          · intro hk
            exact ⟨t, k, rest, rfl, h.1, (Token.isKeyword_iff _ _).mpr ⟨h.2, hk.symm⟩⟩
          · rintro ⟨t', k', rest', heq, -, hk⟩
            cases heq
            exact ((Token.isKeyword_iff _ _).mp hk).2.symm
      · next h =>
          simp only [reduceCtorEq, List.cons.injEq, false_iff]
          rintro ⟨t', k', rest', ⟨rfl, rfl, rfl⟩, ht, hk⟩
          exact h ⟨ht, ((Token.isKeyword_iff _ _).mp hk).1⟩
  · next h =>
      simp only [reduceCtorEq, false_iff]
      rintro ⟨t, k, rest, rfl, -⟩
      exact h t k rest rfl

theorem le_markupRun : ∀ (ts : List Token) (n : Nat), n ≤ markupRun ts n
  | [], n => Nat.le_refl n
  | t :: rest, n => by
      have ih := le_markupRun rest (n + 1)
      simp only [markupRun]
      split <;> omega

namespace Slicer

/-- The `@` before a directive, as the first span of a new block. -/
def outputTransition (s : Slicer) : Slicer :=
  ((s.beginBlock .statement).acceptNext 1).output .transition

/-- The block for markup: the open one, if it is of markup, or else a new one. -/
def ensureMarkup (s : Slicer) : Slicer :=
  if s.block.map Block.kind = some .markup then s else s.beginBlock .markup

@[simp] theorem cursor_ensureMarkup (s : Slicer) : s.ensureMarkup.cursor = s.cursor := by
  unfold ensureMarkup
  split <;> simp

theorem rest_outputTransition (s : Slicer) :
    s.outputTransition.cursor.rest = s.cursor.rest.drop 1 := by
  simp [outputTransition]

end Slicer

namespace Reader

/-- The whole rest of the document.  An error would mean that a directive was
recognised at a keyword that is not its own. -/
def readAll (r : Reader) : Except UnexpectedDirective Reader :=
  match _rest : r.slicer.cursor.rest with
  | [] => .ok { r with slicer := r.slicer.endBlock }
  | t :: rest =>
      match directiveAt (t :: rest) with
      | some d =>
          match _done : handle d { r with slicer := r.slicer.outputTransition } with
          | .error e => .error e
          | .ok done => readAll { done with slicer := done.slicer.endBlock }
      | none =>
          readAll
            { r with slicer := r.slicer.ensureMarkup.acceptNext (markupRun rest 1) }
termination_by r.slicer.cursor.rest.length
decreasing_by
  · have hdone := ((handle_eq_ok_iff _ _ _).mp _done).2
    have h := length_rest_perform_le d { r with slicer := r.slicer.outputTransition }
    rw [← hdone] at h
    simp only [Slicer.cursor_endBlock, Slicer.rest_outputTransition, _rest] at h ⊢
    simp only [List.drop_succ_cons, List.drop_zero, List.length_cons] at h ⊢
    omega
  · have h := le_markupRun rest 1
    simp only [Slicer.rest_acceptNext, Slicer.cursor_ensureMarkup, _rest, List.length_drop,
      List.length_cons]
    omega

/-- The directive that starts at the reader, performed in a block of its own. -/
def readDirective (d : Directive) (r : Reader) : Reader :=
  let done := perform d { r with slicer := r.slicer.outputTransition }
  { done with slicer := done.slicer.endBlock }

/-- The markup up to the next directive, accepted into a block of markup. -/
def readMarkup (r : Reader) : Reader :=
  { r with slicer := r.slicer.ensureMarkup.acceptNext (markupRun r.slicer.cursor.rest 0) }

theorem handle_of_directiveAt {d : Directive} {r : Reader}
    (h : directiveAt r.slicer.cursor.rest = some d) :
    handle d { r with slicer := r.slicer.outputTransition } =
      .ok (perform d { r with slicer := r.slicer.outputTransition }) := by
  obtain ⟨t, k, rest, hrest, -, hk⟩ := (directiveAt_eq_some_iff _ _).mp h
  refine (handle_eq_ok_iff _ _ _).mpr ⟨?_, rfl⟩
  simp [Cursor.isAtKeyword, Cursor.current?, Slicer.rest_outputTransition, hrest, hk]

/-- At the end of the document the open block is ended. -/
theorem readAll_of_end {r : Reader} (h : r.slicer.cursor.rest = []) :
    r.readAll = .ok { r with slicer := r.slicer.endBlock } := by
  rw [readAll.eq_def]
  split
  · rfl
  · next heq => simp [h] at heq

/-- A directive is read, and then the rest. -/
theorem readAll_of_directive {d : Directive} {r : Reader}
    (h : directiveAt r.slicer.cursor.rest = some d) :
    r.readAll = (r.readDirective d).readAll := by
  have hok := handle_of_directiveAt h
  rw [readAll.eq_def]
  split
  · next heq => simp [heq, directiveAt] at h
  · next t rest heq =>
      rw [heq] at h
      simp only [h]
      split
      · next herr => rw [hok] at herr; cases herr
      · next done hdone =>
          rw [hok] at hdone
          cases hdone
          rfl

/-- Markup is read up to the next directive, and then the rest. -/
theorem readAll_of_markup {r : Reader} (h : r.slicer.cursor.rest ≠ [])
    (hd : directiveAt r.slicer.cursor.rest = none) :
    r.readAll = r.readMarkup.readAll := by
  rw [readAll.eq_def]
  split
  · next heq => exact absurd heq h
  · next t rest heq =>
      rw [heq] at hd
      simp only [hd]
      simp [readMarkup, heq, markupRun, hd]

theorem length_rest_readDirective_lt {d : Directive} {r : Reader}
    (h : directiveAt r.slicer.cursor.rest = some d) :
    (r.readDirective d).slicer.cursor.rest.length < r.slicer.cursor.rest.length := by
  have hle := length_rest_perform_le d { r with slicer := r.slicer.outputTransition }
  obtain ⟨t, k, rest, hrest, -⟩ := (directiveAt_eq_some_iff _ _).mp h
  simp only [Slicer.rest_outputTransition, hrest, List.drop_succ_cons, List.drop_zero,
    List.length_cons] at hle
  simp only [readDirective, Slicer.cursor_endBlock, hrest, List.length_cons]
  omega

theorem length_rest_readMarkup_lt {r : Reader} (h : r.slicer.cursor.rest ≠ [])
    (hd : directiveAt r.slicer.cursor.rest = none) :
    r.readMarkup.slicer.cursor.rest.length < r.slicer.cursor.rest.length := by
  cases hrest : r.slicer.cursor.rest with
  | nil => exact absurd hrest h
  | cons t rest =>
      rw [hrest] at hd
      have hrun : markupRun (t :: rest) 0 = markupRun rest 1 := by simp [markupRun, hd]
      have hle := le_markupRun rest 1
      simp only [readMarkup, Slicer.rest_acceptNext, Slicer.cursor_ensureMarkup, hrest, hrun,
        List.length_drop, List.length_cons]
      omega

/-- What holds at the end of a document, and passes from after a directive or a
stretch of markup to before it, holds of every reader. -/
theorem induction_on {motive : Reader → Prop} (r : Reader)
    (atEnd : ∀ r : Reader, r.slicer.cursor.rest = [] → motive r)
    (directive : ∀ (r : Reader) (d : Directive), directiveAt r.slicer.cursor.rest = some d →
      motive (r.readDirective d) → motive r)
    (markup : ∀ r : Reader, r.slicer.cursor.rest ≠ [] →
      directiveAt r.slicer.cursor.rest = none → motive r.readMarkup → motive r) :
    motive r :=
  if hend : r.slicer.cursor.rest = [] then atEnd r hend
  else
    match h : directiveAt r.slicer.cursor.rest with
    | some d => directive r d h (induction_on (r.readDirective d) atEnd directive markup)
    | none => markup r hend h (induction_on r.readMarkup atEnd directive markup)
termination_by r.slicer.cursor.rest.length
decreasing_by
  · exact length_rest_readDirective_lt h
  · exact length_rest_readMarkup_lt hend h

/-- Reading a document never fails, since every directive is called at its keyword. -/
theorem exists_readAll_eq_ok (r : Reader) : ∃ done, r.readAll = .ok done := by
  induction r using induction_on with
  | atEnd r h => exact ⟨_, readAll_of_end h⟩
  | directive r d h ih => rwa [readAll_of_directive h]
  | markup r h hd ih => rwa [readAll_of_markup h hd]

/-- Everything that came out. -/
def results (r : Reader) : Results :=
  r.slicer.results

end Reader

end PageTemplate
