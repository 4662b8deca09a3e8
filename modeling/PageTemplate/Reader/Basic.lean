import PageTemplate.Slicer.Argument

/-!
# Reading directives

A reader is a slicer together with what the directives of the document have to know
of each other: whether there was a model, and where the last base class was named.

**Results.**
* `handle_eq_ok_iff`: a directive is performed exactly where its keyword stands.
* `length_rest_perform_le`: a directive takes at least its keyword.
-/

namespace PageTemplate

/-- What the directives of a document share. -/
structure History where
  /-- The base class of pages that name none. -/
  baseType : Text
  /-- Whether a model was named. -/
  modelSeen : Bool
  /-- The place after the keyword that last named a base class. -/
  inheritsEnd : Option Location
  deriving DecidableEq, Repr, Inhabited

/-- The history at the start of a document. -/
def History.fresh (baseType : Text) : History :=
  ⟨baseType, false, none⟩

/-- A slicer that performs directives. -/
structure Reader where
  /-- The spans and blocks. -/
  slicer : Slicer
  /-- What the directives share. -/
  history : History
  deriving DecidableEq, Repr

namespace Reader

/-- The reader that goes on with the given slicer. -/
def ofSlicer (baseType : Text) (s : Slicer) : Reader :=
  ⟨s, History.fresh baseType⟩

/-- The report of a model next to a base class, if the document has both. -/
def reportConflict (r : Reader) : Reader :=
  match r.history.modelSeen, r.history.inheritsEnd with
  | true, some place =>
      { r with slicer := r.slicer.report place .modelAndInherits Directive.model.keyword }
  | _, _ => r

/-- The directive that names the base class, at its keyword. -/
def performInherits (r : Reader) : Reader :=
  let s := r.slicer.acceptNext 1
  reportConflict ⟨s.inheritsArgument, { r.history with inheritsEnd := some s.location }⟩

/-- The directive that names the model, at its keyword. -/
def performModel (r : Reader) : Reader :=
  let s := r.slicer.acceptNext 1
  let described :=
    (s.baseTypeArgument Directive.model.keyword (.model r.history.baseType)).2
  let counted :=
    if r.history.modelSeen then
      described.report s.location .duplicateModel Directive.model.keyword
    else described
  reportConflict ⟨counted, { r.history with modelSeen := true }⟩

/-- A directive, at its keyword. -/
def perform (d : Directive) (r : Reader) : Reader :=
  match d with
  | .inherits => r.performInherits
  | .model => r.performModel
  | .inject => { r with slicer := (r.slicer.acceptNext 1).injectArgument }
  | .route verb => { r with slicer := (r.slicer.acceptNext 1).routeArgument verb }

/-- A directive, if the reader is at its keyword. -/
def handle (d : Directive) (r : Reader) : Except UnexpectedDirective Reader :=
  match r.slicer.checkKeyword d.keyword with
  | .error e => .error e
  | .ok () => .ok (r.perform d)

@[simp] theorem cursor_reportConflict (r : Reader) :
    r.reportConflict.slicer.cursor = r.slicer.cursor := by
  unfold reportConflict
  split <;> rfl

theorem length_rest_perform_le (d : Directive) (r : Reader) :
    (r.perform d).slicer.cursor.rest.length ≤ r.slicer.cursor.rest.length - 1 := by
  have hnext : (r.slicer.acceptNext 1).cursor.rest.length = r.slicer.cursor.rest.length - 1 := by
    simp
  rw [← hnext]
  cases d with
  | inherits =>
      simp only [perform, performInherits, cursor_reportConflict]
      exact Slicer.length_rest_baseTypeArgument_le _ _ _
  | model =>
      simp only [perform, performModel, cursor_reportConflict, apply_ite Slicer.cursor,
        Slicer.cursor_report, ite_self]
      exact Slicer.length_rest_baseTypeArgument_le _ _ _
  | inject => exact Slicer.length_rest_injectArgument_le _
  | route verb => exact Slicer.length_rest_routeArgument_le verb _

/-- A directive is performed if its keyword is there, and only then. -/
theorem handle_eq_ok_iff (d : Directive) (r r' : Reader) :
    r.handle d = .ok r' ↔
      r.slicer.cursor.isAtKeyword d.keyword = true ∧ r' = r.perform d := by
  cases h : r.slicer.cursor.isAtKeyword d.keyword with
  | true =>
      have hok := (Slicer.checkKeyword_eq_ok_iff d.keyword r.slicer).mpr h
      simp only [handle, hok, Except.ok.injEq, true_and]
      exact eq_comm
  | false => simp [handle, Slicer.checkKeyword, h]

end Reader

end PageTemplate
