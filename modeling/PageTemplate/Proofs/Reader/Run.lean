import PageTemplate.Proofs.Reader.Perform
import PageTemplate.Reader.Document

/-!
# Runs of a reader

**Input.**  A reader in any state, and the calls that its owner makes: for the rest of the
document, or for one directive.

**Algorithm.**  The calls are made one after the other.  A call that fails leaves the
reader as it was.  Beside the run a log is kept of the directives that were performed, each
with the place after its keyword.

**Results.**
* `place_event`: the logged place is the one after the keyword.
* `KeptBySteps.after_run`: what every step keeps, every run keeps.
-/

namespace PageTemplate

/-- The place of the token with the given number, or else the end of the document. -/
def Cursor.placeAt (i : Nat) (c : Cursor) : Location :=
  (c.tokens[i]?.map Token.location).getD c.final

theorem Cursor.placeAt_position_add
    (n : Nat) (c : Cursor) :
    c.placeAt (c.position + n) = Token.placeOf c.final (c.rest.drop n) := by
  rw [placeAt, Token.placeOf, List.head?_drop, c.rest_eq_drop, List.getElem?_drop]

/-- A directive that was performed. -/
structure Event where
  /-- The directive. -/
  directive : Directive
  /-- The place of the token after its keyword, or else the end of the document. -/
  place : Location
  deriving DecidableEq, Repr

/-- What the owner of a reader can ask for. -/
inductive Call
  /-- The rest of the document is read. -/
  | readAll
  /-- The directive is performed at its keyword. -/
  | handle (d : Directive)
  deriving DecidableEq, Repr

namespace Reader

/-- The directive as performed at its keyword. -/
def event (d : Directive) (r : Reader) : Event :=
  ⟨d, r.slicer.cursor.placeAt (r.slicer.cursor.position + 1)⟩

/-- The directives that are performed when the rest of the document is read. -/
def performed (r : Reader) : List Event :=
  match _found : directiveAt r.slicer.cursor.rest with
  | some d =>
      match _done : handle d { r with slicer := r.slicer.outputTransition } with
      | .error _ => []
      | .ok done =>
          event d { r with slicer := r.slicer.outputTransition } ::
            performed { done with slicer := done.slicer.endBlock }
  | none => if _end : r.slicer.cursor.rest = [] then [] else performed r.readMarkup
termination_by r.slicer.cursor.rest.length
decreasing_by
  · rw [handle_of_directiveAt _found] at _done
    cases _done
    exact length_rest_readDirective_lt _found
  · exact length_rest_readMarkup_lt _end _found

theorem performed_of_end
    {r : Reader} (h : r.slicer.cursor.rest = []) :
    r.performed = [] := by
  rw [performed]
  split
  · next d hd =>
      rw [h] at hd
      cases hd
  · exact dif_pos h

theorem performed_of_directive
    {d : Directive} {r : Reader}
    (h : directiveAt r.slicer.cursor.rest = some d) :
    r.performed =
      event d { r with slicer := r.slicer.outputTransition } ::
        (r.readDirective d).performed := by
  have hok := handle_of_directiveAt h
  rw [performed]
  split
  · next d' hd' =>
      rw [h] at hd'
      cases hd'
      split
      · next herror =>
          rw [hok] at herror
          cases herror
      · next done hdone =>
          rw [hok] at hdone
          cases hdone
          rfl
  · next hnone =>
      rw [h] at hnone
      cases hnone

theorem performed_of_markup
    {r : Reader} (h : r.slicer.cursor.rest ≠ [])
    (hd : directiveAt r.slicer.cursor.rest = none) :
    r.performed = r.readMarkup.performed := by
  rw [performed]
  split
  · next d hsome =>
      rw [hd] at hsome
      cases hsome
  · exact dif_neg h

end Reader

namespace Call

/-- The reader after a call. -/
def apply (r : Reader) (c : Call) : Reader :=
  match c with
  | readAll =>
      match r.readAll with
      | .error _ => r
      | .ok done => done
  | handle d =>
      match r.handle d with
      | .error _ => r
      | .ok done => done

/-- The directives that a call performs. -/
def events (r : Reader) (c : Call) : List Event :=
  match c with
  | readAll => r.performed
  | handle d =>
      match r.handle d with
      | .error _ => []
      | .ok _ => [r.event d]

end Call

namespace Reader

/-- The reader after calls one after the other. -/
def run (r : Reader) (calls : List Call) : Reader :=
  calls.foldl Call.apply r

/-- The directives that calls one after the other perform. -/
def log (r : Reader) : List Call → List Event
  | [] => []
  | c :: calls => c.events r ++ (c.apply r).log calls

/-- The logged place is the one at which the line of the directive starts. -/
theorem place_event
    (d : Directive) (k : Token) (r : Reader) :
    (r.event d).place = (r.lineOf d k).place := by
  rw [place_lineOf, Slicer.location, Cursor.location_eq_placeOf]
  simp only [Slicer.acceptNext, Cursor.final_move, Cursor.rest_move]
  exact Cursor.placeAt_position_add 1 r.slicer.cursor

/-! ## What steps keep -/

/-- Whether a property of a reader and its log is kept by every step of a run: by the
performance of a directive, and by all that happens between two of them. -/
structure KeptBySteps (motive : List Event → Reader → Prop) : Prop where
  perform :
    ∀ {log : List Event} {r : Reader} {d : Directive} {k : Token} {ts : List Token},
      r.slicer.cursor.rest = k :: ts → k.isKeyword d.keyword = true →
        motive log r → motive (log ++ [r.event d]) (r.perform d)
  transition :
    ∀ {log : List Event} {r : Reader},
      motive log r → motive log { r with slicer := r.slicer.outputTransition }
  endBlock :
    ∀ {log : List Event} {r : Reader},
      motive log r → motive log { r with slicer := r.slicer.endBlock }
  markup :
    ∀ {log : List Event} {r : Reader},
      motive log r → motive log r.readMarkup

namespace KeptBySteps

variable {motive : List Event → Reader → Prop}

/-- What every step keeps is kept when the rest of a document is read. -/
theorem after_readAll
    (hkept : KeptBySteps motive) {log : List Event} {r done : Reader}
    (h : motive log r) (hdone : r.readAll = .ok done) :
    motive (log ++ r.performed) done := by
  induction r using induction_on generalizing log with
  | atEnd r hend =>
      rw [readAll_of_end hend] at hdone
      cases hdone
      rw [performed_of_end hend, List.append_nil]
      exact hkept.endBlock h
  | directive r d hd ih =>
      rw [readAll_of_directive hd] at hdone
      rw [performed_of_directive hd, List.append_cons]
      obtain ⟨t, k, ts, hrest, -, hk⟩ := (directiveAt_eq_some_iff _ _).mp hd
      have hkeyword : r.slicer.outputTransition.cursor.rest = k :: ts := by
        simp [Slicer.rest_outputTransition, hrest]
      have hperform := hkept.perform hkeyword hk (hkept.transition h)
      exact ih (hkept.endBlock hperform) hdone
  | markup r hne hd ih =>
      rw [readAll_of_markup hne hd] at hdone
      rw [performed_of_markup hne hd]
      exact ih (hkept.markup h) hdone

/-- What every step keeps is kept by a directive that is called for. -/
theorem after_handle
    (hkept : KeptBySteps motive) {log : List Event} {r done : Reader} {d : Directive}
    (h : motive log r) (hdone : r.handle d = .ok done) :
    motive (log ++ [r.event d]) done := by
  obtain ⟨hkeyword, rfl⟩ := (handle_eq_ok_iff d r done).mp hdone
  obtain ⟨k, hhead, hk⟩ := (Option.any_eq_true _ _).mp hkeyword
  obtain ⟨ts, hrest⟩ := List.head?_eq_some_iff.mp hhead
  exact hkept.perform hrest hk h

/-- What every step keeps is kept by a call. -/
theorem after_call
    (hkept : KeptBySteps motive) {log : List Event} {r : Reader}
    (h : motive log r) (c : Call) :
    motive (log ++ c.events r) (c.apply r) := by
  cases c with
  | readAll =>
      obtain ⟨done, hdone⟩ := exists_readAll_eq_ok r
      rw [Call.events, Call.apply, hdone]
      exact hkept.after_readAll h hdone
  | handle d =>
      rw [Call.events, Call.apply]
      cases hdone : r.handle d with
      | error e =>
          rwa [List.append_nil]
      | ok done =>
          exact hkept.after_handle h hdone

/-- What every step keeps is kept by every run. -/
theorem after_run
    (hkept : KeptBySteps motive) {log : List Event} {r : Reader}
    (h : motive log r) (calls : List Call) :
    motive (log ++ r.log calls) (r.run calls) := by
  induction calls generalizing log r with
  | nil =>
      rwa [Reader.log, List.append_nil]
  | cons c calls ih =>
      have hrun := ih (hkept.after_call h c)
      rwa [List.append_assoc] at hrun

end KeptBySteps

end Reader
end PageTemplate
