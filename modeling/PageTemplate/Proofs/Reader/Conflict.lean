import PageTemplate.Proofs.Reader.Run
import Mathlib.Data.List.Induction

/-!
# Conflicts between directives

A document has one model at most, and none together with a base class.  What is reported
about that depends on nothing but the order in which models and base classes were named.

**Input.**  The log of a run.

**Algorithm.**  Each directive of the log is compared with those before it.

**Results.**
* `conflictsAfter_append`: a log is judged part by part.
* `exists_modelAndInherits_iff`: the two kinds of directive conflict in either order.
* `keptBySteps_judged`: one step of a reader reports what the rule says.
* `conflicts_run`: so does every run.
-/

namespace PageTemplate

/-- Whether the diagnostic is about two directives at once. -/
def Diagnostic.isConflict (d : Diagnostic) : Bool :=
  d.fault = .duplicateModel ∨ d.fault = .modelAndInherits

/-! ## The rule -/

namespace Event

/-- Whether a model was named. -/
def NamesModel (log : List Event) : Prop :=
  ∃ e ∈ log, e.directive = .model

instance (log : List Event) : Decidable (NamesModel log) :=
  inferInstanceAs (Decidable (∃ e ∈ log, e.directive = .model))

/-- Whether a base class was named. -/
def NamesBase (log : List Event) : Prop :=
  ∃ e ∈ log, e.directive = .inherits

/-- The place after the keyword that last named a base class. -/
def lastBase (log : List Event) : Option Location :=
  (log.filter (fun e => e.directive = .inherits)).getLast?.map place

/-- The conflicts of a directive with earlier ones.  A second model is reported where it
stands, and a model next to a base class where the base class was named. -/
def conflicts (earlier : List Event) (e : Event) : List Diagnostic :=
  match e.directive with
  | .model =>
      (if NamesModel earlier then [⟨e.place, .duplicateModel, Directive.model.keyword⟩]
        else []) ++
      match lastBase earlier with
      | some place => [⟨place, .modelAndInherits, Directive.model.keyword⟩]
      | none => []
  | .inherits =>
      if NamesModel earlier then [⟨e.place, .modelAndInherits, Directive.model.keyword⟩]
      else []
  | _ => []

/-- The conflicts of directives one after the other, the first of which comes after the
earlier ones. -/
def conflictsAfter (earlier : List Event) : List Event → List Diagnostic
  | [] => []
  | e :: log => e.conflicts earlier ++ conflictsAfter (earlier ++ [e]) log

/-- The conflicts of a log are those of its parts, of which the later is after the earlier. -/
theorem conflictsAfter_append
    (earlier log more : List Event) :
    conflictsAfter earlier (log ++ more) =
      conflictsAfter earlier log ++ conflictsAfter (earlier ++ log) more := by
  induction log generalizing earlier with
  | nil =>
      simp [conflictsAfter]
  | cons e log ih =>
      rw [List.cons_append, conflictsAfter, conflictsAfter, ih, List.append_assoc,
        List.append_assoc]
      rfl

theorem conflictsAfter_append_singleton
    (log : List Event) (e : Event) :
    conflictsAfter [] (log ++ [e]) = conflictsAfter [] log ++ e.conflicts log := by
  simp [conflictsAfter_append, conflictsAfter]

theorem namesModel_append_singleton
    (log : List Event) (e : Event) :
    NamesModel (log ++ [e]) ↔ NamesModel log ∨ e.directive = .model := by
  simp [NamesModel, or_and_right, exists_or]

theorem namesBase_append_singleton
    (log : List Event) (e : Event) :
    NamesBase (log ++ [e]) ↔ NamesBase log ∨ e.directive = .inherits := by
  simp [NamesBase, or_and_right, exists_or]

theorem lastBase_append_singleton
    (log : List Event) (e : Event) :
    lastBase (log ++ [e]) =
      if e.directive = .inherits then some e.place else lastBase log := by
  unfold lastBase
  split
  · next h =>
      simp [h]
  · next h =>
      simp [h]

/-- There is a last base class when one was named. -/
theorem isSome_lastBase_iff
    (log : List Event) :
    (∃ place, lastBase log = some place) ↔ NamesBase log := by
  induction log using List.reverseRecOn with
  | nil =>
      simp [lastBase, NamesBase]
  | append_singleton log e ih =>
      rw [lastBase_append_singleton, namesBase_append_singleton, ← ih]
      split
      · next h =>
          simp [h]
      · next h =>
          simp [h]

/-- A directive conflicts with those before it when it is the second of the two kinds. -/
theorem exists_modelAndInherits_conflicts_iff
    (earlier : List Event) (e : Event) :
    (∃ d ∈ e.conflicts earlier, d.fault = .modelAndInherits) ↔
      (e.directive = .model ∧ NamesBase earlier) ∨
        (e.directive = .inherits ∧ NamesModel earlier) := by
  rw [← isSome_lastBase_iff]
  obtain ⟨directive, place⟩ := e
  cases directive with
  | model =>
      cases hbase : lastBase earlier with
      | none =>
          by_cases hmodel : NamesModel earlier
          · simp [conflicts, hbase, hmodel]
          · simp [conflicts, hbase, hmodel]
      | some base =>
          simp [conflicts, hbase]
  | inherits =>
      by_cases hmodel : NamesModel earlier
      · simp [conflicts, hmodel]
      · simp [conflicts, hmodel]
  | inject =>
      simp [conflicts]
  | route verb =>
      simp [conflicts]

/-- Models and base classes conflict whatever their order. -/
theorem exists_modelAndInherits_iff
    (log : List Event) :
    (∃ d ∈ conflictsAfter [] log, d.fault = .modelAndInherits) ↔
      NamesModel log ∧ NamesBase log := by
  induction log using List.reverseRecOn with
  | nil =>
      simp [conflictsAfter, NamesModel]
  | append_singleton log e ih =>
      have hlast := conflictsAfter_append_singleton log e
      have hkinds : ¬ (e.directive = .model ∧ e.directive = .inherits) := by
        rintro ⟨hmodel, hinherits⟩
        rw [hmodel] at hinherits
        cases hinherits
      have hsplit : (∃ d ∈ conflictsAfter [] (log ++ [e]), d.fault = .modelAndInherits) ↔
          (∃ d ∈ conflictsAfter [] log, d.fault = .modelAndInherits) ∨
            ∃ d ∈ e.conflicts log, d.fault = .modelAndInherits := by
        rw [hlast]
        simp only [List.mem_append, or_and_right, exists_or]
      rw [hsplit, ih, exists_modelAndInherits_conflicts_iff, namesModel_append_singleton,
        namesBase_append_singleton]
      constructor
      · rintro (⟨hmodel, hbase⟩ | ⟨he, hbase⟩ | ⟨he, hmodel⟩)
        · exact ⟨Or.inl hmodel, Or.inl hbase⟩
        · exact ⟨Or.inr he, Or.inl hbase⟩
        · exact ⟨Or.inl hmodel, Or.inr he⟩
      · rintro ⟨hmodel | he, hbase | he'⟩
        · exact Or.inl ⟨hmodel, hbase⟩
        · exact Or.inr (Or.inr ⟨he', hmodel⟩)
        · exact Or.inr (Or.inl ⟨he, hbase⟩)
        · exact absurd ⟨he, he'⟩ hkinds

end Event

/-! ## The history of a reader -/

namespace History

open Event (NamesModel lastBase)

/-- Whether the history keeps of the log what later directives have to know. -/
structure Remembers (log : List Event) (h : History) : Prop where
  modelSeen : h.modelSeen = true ↔ NamesModel log
  inheritsEnd : h.inheritsEnd = lastBase log

/-- A fresh history remembers that nothing was performed. -/
theorem remembers_fresh (baseType : Text) :
    (fresh baseType).Remembers [] := by
  constructor
  · simp [fresh, NamesModel]
  · rfl

/-- The history tells the conflicts of the next directive. -/
theorem conflicts_of_remembers
    {log : List Event} {h : History} (hlog : h.Remembers log) (e : Event) :
    h.conflicts e.directive e.place = e.conflicts log := by
  obtain ⟨hseen, hbase⟩ := hlog
  obtain ⟨directive, place⟩ := e
  cases directive with
  | inherits =>
      simp only [conflicts, Event.conflicts, hseen]
  | model =>
      simp only [conflicts, Event.conflicts, hseen, hbase]
      cases lastBase log with
      | none =>
          rfl
      | some base =>
          rfl
  | inject =>
      rfl
  | route verb =>
      rfl

/-- A history that records a directive remembers it too. -/
theorem remembers_record
    {log : List Event} {h : History} (hlog : h.Remembers log) (e : Event) :
    (h.record e.directive e.place).Remembers (log ++ [e]) := by
  obtain ⟨hseen, hbase⟩ := hlog
  obtain ⟨directive, place⟩ := e
  constructor
  · rw [Event.namesModel_append_singleton, ← hseen]
    cases directive <;> simp [record]
  · rw [Event.lastBase_append_singleton, ← hbase]
    cases directive <;> rfl

/-- All conflicts are of the two kinds. -/
theorem isConflict_of_mem_conflicts
    {d : Directive} {place : Location} {h : History} {diagnostic : Diagnostic}
    (hmem : diagnostic ∈ h.conflicts d place) :
    diagnostic.isConflict = true := by
  cases d with
  | inherits =>
      obtain ⟨-, rfl⟩ : h.modelSeen = true ∧ _ := by simpa [conflicts] using hmem
      rfl
  | model =>
      rcases List.mem_append.mp hmem with hsecond | hbase
      · obtain ⟨-, rfl⟩ : h.modelSeen = true ∧ _ := by simpa using hsecond
        rfl
      · obtain ⟨base, -, rfl⟩ : ∃ base, h.inheritsEnd = some base ∧ _ = diagnostic := by
          simpa using hbase
        rfl
  | inject =>
      cases hmem
  | route verb =>
      cases hmem

end History

/-- No mistake in a line is a conflict. -/
theorem DirectiveLine.isConflict_of_mem_faults
    {l : DirectiveLine} {diagnostic : Diagnostic}
    (hmem : diagnostic ∈ l.faults) :
    diagnostic.isConflict = false := by
  have hfault := DirectiveLine.fault_of_mem_faults hmem
  unfold Diagnostic.isConflict
  rcases hfault with hfault | hfault
  · rw [hfault]
    rfl
  · rw [hfault]
    rfl

/-! ## Runs -/

namespace Reader

/-- Whether all conflicts of the log were reported, and are remembered as far as needed. -/
structure Judged (log : List Event) (r : Reader) : Prop where
  reported :
    r.slicer.diagnostics.toList.filter Diagnostic.isConflict = Event.conflictsAfter [] log
  remembered : r.history.Remembers log

/-- A directive that is performed adds its conflicts and no others, since the mistakes of its line
are none. -/
theorem filter_isConflict_perform
    {r : Reader} {d : Directive} {k : Token} {ts : List Token}
    (hrest : r.slicer.cursor.rest = k :: ts) :
    (r.perform d).slicer.diagnostics.toList.filter Diagnostic.isConflict =
      r.slicer.diagnostics.toList.filter Diagnostic.isConflict ++
        r.history.conflicts d (r.event d).place := by
  have hfaults : (r.lineOf d k).faults.filter Diagnostic.isConflict = [] := by
    refine List.filter_eq_nil_iff.mpr ?_
    intro diagnostic hmem
    simp [DirectiveLine.isConflict_of_mem_faults hmem]
  have hconflicts : (r.history.conflicts d (r.event d).place).filter Diagnostic.isConflict =
      r.history.conflicts d (r.event d).place := by
    refine List.filter_eq_self.mpr ?_
    intro diagnostic hmem
    exact History.isConflict_of_mem_conflicts hmem
  rw [diagnostics_perform hrest, ← place_event, List.filter_append, List.filter_append,
    hfaults, hconflicts, List.nil_append]

/-- One step of a reader reports what the rule says. -/
theorem keptBySteps_judged :
    KeptBySteps Judged where
  perform := by
    intro log r d k ts hrest hk h
    constructor
    · rw [filter_isConflict_perform hrest, h.reported, Event.conflictsAfter_append_singleton,
        ← History.conflicts_of_remembers h.remembered]
      rfl
    · rw [perform_eq hrest, ← place_event]
      exact History.remembers_record h.remembered (r.event d)
  transition := by
    intro log r h
    refine ⟨?_, h.remembered⟩
    have hsame : r.slicer.outputTransition.diagnostics = r.slicer.diagnostics := by
      simp [Slicer.outputTransition, Slicer.beginBlock, Slicer.acceptNext]
    rw [hsame, h.reported]
  endBlock := by
    intro log r h
    refine ⟨?_, h.remembered⟩
    rw [Slicer.diagnostics_endBlock, h.reported]
  markup := by
    intro log r h
    refine ⟨?_, h.remembered⟩
    have hsame : r.readMarkup.slicer.diagnostics = r.slicer.diagnostics := by
      unfold readMarkup Slicer.ensureMarkup
      split
      · rfl
      · simp [Slicer.beginBlock, Slicer.acceptNext]
    rw [hsame, h.reported]

/-- Of every run of a new reader, in whatever order the calls come: the conflicts reported
are those of the rule, a model conflicts with a base class in either order, and the reader
remembers whether there was a model and where the last base class was named. -/
theorem conflicts_run
    (baseType : Text) (designTime : Bool) (ts : List Token) (calls : List Call) :
    let start := ofSlicer baseType (Slicer.ofTokens designTime ts)
    let log := start.log calls
    let done := start.run calls
    done.results.diagnostics.filter Diagnostic.isConflict = Event.conflictsAfter [] log ∧
      ((∃ d ∈ done.results.diagnostics, d.fault = .modelAndInherits) ↔
        Event.NamesModel log ∧ Event.NamesBase log) ∧
      (done.history.modelSeen = true ↔ Event.NamesModel log) ∧
      done.history.inheritsEnd = Event.lastBase log := by
  intro start log done
  have hstart : Judged [] start :=
    ⟨rfl, History.remembers_fresh baseType⟩
  obtain ⟨hreported, hseen, hbase⟩ : Judged log done :=
    keptBySteps_judged.after_run hstart calls
  have hdiagnostics : done.results.diagnostics = done.slicer.diagnostics.toList :=
    Slicer.diagnostics_results done.slicer
  rw [hdiagnostics]
  refine ⟨hreported, ?_, hseen, hbase⟩
  rw [← Event.exists_modelAndInherits_iff, ← hreported]
  constructor
  · rintro ⟨d, hmem, hfault⟩
    exact ⟨d, List.mem_filter.mpr ⟨hmem, by simp [Diagnostic.isConflict, hfault]⟩, hfault⟩
  · rintro ⟨d, hmem, hfault⟩
    exact ⟨d, (List.mem_filter.mp hmem).1, hfault⟩

end Reader
end PageTemplate
