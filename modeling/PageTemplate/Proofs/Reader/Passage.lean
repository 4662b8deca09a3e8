import PageTemplate.Proofs.Reader.Perform
import PageTemplate.Reader.Document

/-!
# A document passage by passage

**Input.**  The tokens of a document, and the place where it ends.

**Algorithm.**  The tokens are cut into passages: a directive with the `@` before it and
its line, or as much markup as there is.  Each passage gives one block, and a directive is
reported on after the history of the passages before it.

**Results.**
* `directiveAt_drop_markupRun`: markup goes on to a directive or the end.
* `passages_of_directive`, `passages_of_markup`: how a document is cut.
* `passages_cons_of_markup`: a token of markup joins the markup after it.
* `source_passages`: the passages are the document, in order.
* `exists_read_of_passages_eq`: where in the document a directive was read.
-/

namespace PageTemplate

open Token (line afterLine placeOf)

/-! ## Passages -/

/-- A part of a document that gives one block. -/
inductive Passage
  /-- Markup, with its first token apart. -/
  | markup (t : Token) (ts : List Token)
  /-- A directive behind its `@`. -/
  | directive (mark : Token) (l : DirectiveLine)

namespace Passage

/-- The tokens of the document that belong to the passage. -/
def source : Passage → List Token
  | markup t ts => t :: ts
  | directive mark l => mark :: l.keyword :: l.tail

/-- The kind of the block of the passage. -/
def kind : Passage → BlockKind
  | markup _ _ => .markup
  | directive _ _ => .directive

/-- The block of the passage. -/
def block (baseType : Text) : Passage → Block
  | markup t ts => ⟨.markup, [⟨.markup, t :: ts, t.location, .any, none⟩]⟩
  | directive mark l =>
      ⟨.directive, ⟨.transition, [mark], mark.location, .any, none⟩ :: l.spans baseType⟩

/-- What the passage asks the generator for, if anything. -/
def descriptor? (baseType : Text) : Passage → Option Descriptor
  | markup _ _ => none
  | directive _ l => some (l.descriptor baseType)

/-- What is reported about the passage after the given history. -/
def reports (h : History) : Passage → List Diagnostic
  | markup _ _ => []
  | directive _ l => l.faults ++ h.conflicts l.directive l.place

/-- The history after the passage. -/
def record (h : History) : Passage → History
  | markup _ _ => h
  | directive _ l => h.record l.directive l.place

/-- A token of markup before passages, part of the first if that is markup too. -/
def consMarkup (t : Token) : List Passage → List Passage
  | markup u us :: ps => markup t (u :: us) :: ps
  | ps => markup t [] :: ps

/-- A passage makes a block of its own kind. -/
theorem kind_block
    (baseType : Text) (p : Passage) :
    (p.block baseType).kind = p.kind := by
  cases p <;> rfl

theorem descriptors_block
    (baseType : Text) (p : Passage) :
    (p.block baseType).spans.filterMap Span.descriptor = (p.descriptor? baseType).toList := by
  cases p with
  | markup t ts =>
      rfl
  | directive mark l =>
      rfl

/-- Only directives have descriptors, and each has one. -/
theorem descriptors_blocks
    (baseType : Text) (ps : List Passage) :
    ((ps.map (block baseType)).flatMap Block.spans).filterMap Span.descriptor =
      ps.filterMap (descriptor? baseType) := by
  induction ps with
  | nil =>
      rfl
  | cons p ps ih =>
      rw [List.map_cons, List.flatMap_cons, List.filterMap_append, ih, descriptors_block]
      cases h : p.descriptor? baseType with
      | none =>
          rw [List.filterMap_cons_none h]
          rfl
      | some descriptor =>
          rw [List.filterMap_cons_some h]
          rfl

@[simp] theorem baseType_record (h : History) (p : Passage) :
    (p.record h).baseType = h.baseType := by
  cases p with
  | markup t ts =>
      rfl
  | directive mark l =>
      simp only [record, History.record]
      split <;> rfl

end Passage

/-- The count of markup may start at any number. -/
theorem markupRun_eq :
    ∀ (ts : List Token) (n : Nat), markupRun ts n = n + markupRun ts 0
  | [], n => rfl
  | t :: rest, n => by
      have ih := markupRun_eq rest
      simp only [markupRun]
      split
      · rfl
      · rw [ih (n + 1), ih (0 + 1)]
        omega

theorem markupRun_le :
    ∀ ts : List Token, markupRun ts 0 ≤ ts.length
  | [] => Nat.le_refl 0
  | t :: rest => by
      have ih := markupRun_le rest
      have hone := markupRun_eq rest (0 + 1)
      simp only [markupRun, List.length_cons]
      split <;> omega

/-- A token that starts no directive is part of the markup. -/
theorem markupRun_of_markup
    {t : Token} {rest : List Token}
    (h : directiveAt (t :: rest) = none) :
    markupRun (t :: rest) 0 = markupRun rest 0 + 1 := by
  have hone := markupRun_eq rest (0 + 1)
  simp only [markupRun, h, Option.isSome_none, Bool.false_eq_true, if_false]
  omega

/-- After all markup that there is comes a directive or the end. -/
theorem directiveAt_drop_markupRun
    (ts : List Token) :
    ts.drop (markupRun ts 0) = [] ∨
      ∃ d, directiveAt (ts.drop (markupRun ts 0)) = some d := by
  induction ts with
  | nil =>
      exact Or.inl rfl
  | cons t rest ih =>
      cases hd : directiveAt (t :: rest) with
      | some d =>
          right
          refine ⟨d, ?_⟩
          simp [markupRun, hd]
      | none =>
          rwa [markupRun_of_markup hd, List.drop_succ_cons]

namespace Token

theorem length_afterLine_le
    (designTime : Bool) (ts : List Token) :
    (afterLine designTime ts).length ≤ ts.length := by
  rw [← drop_length_line]
  simp

end Token

/-- The passages of the tokens of a document that ends at `final`. -/
def passages (designTime : Bool) (final : Location) : List Token → List Passage
  | [] => []
  | [t] => [.markup t []]
  | t :: k :: ts =>
      match directiveAt (t :: k :: ts) with
      | some d =>
          .directive t (DirectiveLine.read d designTime final k ts) ::
            passages designTime final (afterLine designTime ts)
      | none =>
          .markup t ((k :: ts).take (markupRun (k :: ts) 0)) ::
            passages designTime final ((k :: ts).drop (markupRun (k :: ts) 0))
termination_by ts => ts.length
decreasing_by
  · have h := Token.length_afterLine_le designTime ts
    simp only [List.length_cons]
    omega
  · simp only [List.length_drop, List.length_cons]
    omega

section Passages

variable {designTime : Bool} {final : Location}

@[simp] theorem passages_nil :
    passages designTime final [] = [] := by
  simp [passages]

/-- A directive is a passage with its line, and the next passage is behind the line. -/
theorem passages_of_directive
    {d : Directive} {t k : Token} {ts : List Token}
    (h : directiveAt (t :: k :: ts) = some d) :
    passages designTime final (t :: k :: ts) =
      .directive t (DirectiveLine.read d designTime final k ts) ::
        passages designTime final (afterLine designTime ts) := by
  rw [passages]
  simp only [h]

/-- Markup is one passage up to the next directive. -/
theorem passages_of_markup
    {t : Token} {rest : List Token}
    (h : directiveAt (t :: rest) = none) :
    passages designTime final (t :: rest) =
      .markup t (rest.take (markupRun rest 0)) ::
        passages designTime final (rest.drop (markupRun rest 0)) := by
  cases rest with
  | nil =>
      simp [passages, markupRun]
  | cons k ts =>
      rw [passages]
      simp only [h]

/-- A token of markup joins the markup after it. -/
theorem passages_cons_of_markup
    {t : Token} {rest : List Token}
    (h : directiveAt (t :: rest) = none) :
    passages designTime final (t :: rest) =
      Passage.consMarkup t (passages designTime final rest) := by
  rw [passages_of_markup h]
  cases rest with
  | nil =>
      simp [Passage.consMarkup, markupRun]
  | cons k ts =>
      cases hd : directiveAt (k :: ts) with
      | some d =>
          obtain ⟨k', u, us, heq, -⟩ := (directiveAt_eq_some_iff _ _).mp hd
          cases heq
          have hrun : markupRun (k :: u :: us) 0 = 0 := by simp [markupRun, hd]
          rw [hrun, List.take_zero, List.drop_zero, passages_of_directive hd]
          rfl
      | none =>
          rw [passages_of_markup hd, markupRun_of_markup hd, List.take_succ_cons,
            List.drop_succ_cons]
          rfl

/-- What passes from the rest of a document to before a directive or before markup holds
of every document. -/
theorem passages_induction
    (designTime : Bool) {motive : List Token → Prop}
    (nil : motive [])
    (directive : ∀ (d : Directive) (t k : Token) (ts : List Token),
      directiveAt (t :: k :: ts) = some d →
        motive (afterLine designTime ts) → motive (t :: k :: ts))
    (markup : ∀ (t : Token) (rest : List Token), directiveAt (t :: rest) = none →
      motive (rest.drop (markupRun rest 0)) → motive (t :: rest))
    (ts : List Token) : motive ts := by
  induction ts using passages.induct designTime with
  | case1 =>
      exact nil
  | case2 t =>
      exact markup t [] rfl nil
  | case3 t k ts d h ih =>
      exact directive d t k ts h ih
  | case4 t k ts h ih =>
      exact markup t (k :: ts) h ih

/-- The passages are the document, in order. -/
theorem source_passages (ts : List Token) :
    (passages designTime final ts).flatMap Passage.source = ts := by
  induction ts using passages_induction designTime with
  | nil =>
      simp
  | directive d t k ts h ih =>
      rw [passages_of_directive h, List.flatMap_cons, ih]
      exact congrArg (t :: k :: ·) (Token.line_append_afterLine designTime ts)
  | markup t rest h ih =>
      rw [passages_of_markup h, List.flatMap_cons, ih]
      exact congrArg (t :: ·) (List.take_append_drop _ rest)

/-- A directive among the passages was read off the tokens after its keyword. -/
theorem exists_read_of_passages_eq
    {ts : List Token} {before after : List Passage} {mark : Token} {l : DirectiveLine}
    (h : passages designTime final ts = before ++ .directive mark l :: after) :
    ∃ rest, ts = before.flatMap Passage.source ++ mark :: l.keyword :: rest ∧
      l = DirectiveLine.read l.directive designTime final l.keyword rest ∧
      directiveAt (mark :: l.keyword :: rest) = some l.directive := by
  induction ts using passages_induction designTime generalizing before with
  | nil =>
      simp at h
  | directive d t k ts hd ih =>
      rw [passages_of_directive hd] at h
      cases before with
      | nil =>
          rw [List.nil_append, List.cons.injEq, Passage.directive.injEq] at h
          obtain ⟨⟨rfl, rfl⟩, -⟩ := h
          exact ⟨ts, rfl, rfl, hd⟩
      | cons b before =>
          rw [List.cons_append, List.cons.injEq] at h
          obtain ⟨rest, hrest, hread⟩ := ih h.2
          refine ⟨rest, ?_, hread⟩
          have hline := Token.line_append_afterLine designTime ts
          rw [← h.1, List.flatMap_cons, List.append_assoc, ← hrest]
          simp [Passage.source, DirectiveLine.read, hline]
  | markup t rest hd ih =>
      rw [passages_of_markup hd] at h
      cases before with
      | nil =>
          rw [List.nil_append, List.cons.injEq] at h
          cases h.1
      | cons b before =>
          rw [List.cons_append, List.cons.injEq] at h
          obtain ⟨rest', hrest, hread⟩ := ih h.2
          refine ⟨rest', ?_, hread⟩
          rw [← h.1, List.flatMap_cons, List.append_assoc, ← hrest]
          simp [Passage.source]

end Passages

end PageTemplate
