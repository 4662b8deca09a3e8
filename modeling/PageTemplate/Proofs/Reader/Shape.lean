import PageTemplate.Proofs.Reader.Reading
import PageTemplate.Proofs.Token.Spelling
import Mathlib.Data.List.Chain

/-!
# The shape of the results

Whatever a template says, its blocks are of two shapes: a stretch of markup, or a directive
with its `@`, its keyword and its argument.

**Results.**
* `isMarked_of_mem_passages`: a directive is only ever read at an `@` before its keyword.
* `isChain_passages`: two stretches of markup never follow each other.
* `readTemplate_shape`: the shape of every block.
-/

namespace PageTemplate

open Token (afterLine splitSpace textOf)

/-! ## Shapes -/

/-- Whether the descriptor is what the directive asks for. -/
def Descriptor.Answers (baseType : Text) : Directive → Descriptor → Prop
  | .inherits, .setBaseType _ => True
  | .model, .model base _ => base = baseType
  | .inject, .inject _ _ => True
  | .route verb, .route _ verb' => verb' = verb
  | _, _ => False

namespace Span

/-- The span of an `@` before a keyword. -/
structure IsTransition (s : Span) : Prop where
  kind : s.kind = .transition
  tokens : ∃ t, s.tokens = [t] ∧ t.content = "@".toList
  edits : s.edits = .any
  descriptor : s.descriptor = none

/-- The span of a keyword, closed to edits if white space is there to end the keyword. -/
structure IsKeywordOf (d : Directive) (s : Span) : Prop where
  kind : s.kind = .metaCode
  text : ∃ word space, s.text = word ++ space ∧
    Directive.table.get? word = some d ∧
    (space = [] ∨ space = [' '] ∨ space = ['\t']) ∧
    (s.edits = .none ↔ space ≠ [])
  descriptor : s.descriptor = none

/-- The span of an argument, with what the directive asks for. -/
structure IsArgumentOf (baseType : Text) (d : Directive) (s : Span) : Prop where
  kind : s.kind = d.argumentKind
  edits : s.edits = .any
  descriptor : ∃ descriptor, s.descriptor = some descriptor ∧ descriptor.Answers baseType d

/-- A span of markup. -/
structure IsMarkup (s : Span) : Prop where
  kind : s.kind = .markup
  tokens : s.tokens ≠ []
  edits : s.edits = .any
  descriptor : s.descriptor = none

end Span

namespace Block

/-- A block of markup is one span. -/
structure IsMarkup (b : Block) : Prop where
  kind : b.kind = .markup
  spans : ∃ s, b.spans = [s] ∧ s.IsMarkup

/-- A block of a directive is three spans. -/
structure IsDirective (baseType : Text) (d : Directive) (b : Block) : Prop where
  kind : b.kind = .directive
  spans : ∃ mark keyword argument, b.spans = [mark, keyword, argument] ∧
    mark.IsTransition ∧ keyword.IsKeywordOf d ∧ argument.IsArgumentOf baseType d

end Block

/-! ## Directives -/

namespace DirectiveLine

/-- A directive asks for what its keyword stands for. -/
theorem answers_descriptor
    (baseType : Text) (l : DirectiveLine) :
    (l.descriptor baseType).Answers baseType l.directive := by
  obtain ⟨directive, keyword, tail, stop⟩ := l
  cases directive with
  | inherits =>
      trivial
  | model =>
      rfl
  | inject =>
      trivial
  | route verb =>
      rfl

/-- The last span of a directive is code, or metacode for a route, with its descriptor. -/
theorem isArgumentOf_argumentSpan
    (baseType : Text) (l : DirectiveLine) :
    (l.argumentSpan baseType).IsArgumentOf baseType l.directive :=
  ⟨rfl, rfl, l.descriptor baseType, rfl, l.answers_descriptor baseType⟩

/-- What is split off after a keyword is nothing, or a space, or a tab. -/
theorem textOf_splitSpace_fst
    {ts : List Token} (h : ∀ t ∈ ts, t.Spelled) :
    (textOf (splitSpace ts).1 = [] ∨
      textOf (splitSpace ts).1 = [' '] ∨ textOf (splitSpace ts).1 = ['\t']) ∧
      ((splitSpace ts).1 = [] ↔ textOf (splitSpace ts).1 = []) := by
  rcases Token.splitSpace_fst ts with hnone | ⟨t, space, hone, hhead, hkind, hcontent⟩
  · simp [hnone]
  · have hspelled := h t (List.mem_of_mem_head? hhead)
    obtain ⟨c, rest, hc⟩ := List.exists_cons_of_ne_nil hspelled.content_ne_nil
    have hblank : c = ' ' ∨ c = '\t' := by
      simpa [Token.isSpaceOrTab] using hspelled.whiteSpace hkind c (by simp [hc])
    have htext : textOf [space] = [c] := by
      simp [hcontent, hc]
    rw [hone, htext]
    refine ⟨Or.inr ?_, by simp⟩
    rcases hblank with rfl | rfl
    · exact Or.inl rfl
    · exact Or.inr rfl

/-- The span of a keyword is the keyword with one space or tab, or with none. -/
theorem isKeywordOf_ofKeyword
    {l : DirectiveLine} (hkeyword : l.keyword.content = l.directive.keyword)
    (h : ∀ t ∈ l.tail, t.Spelled) :
    (Span.ofKeyword l.keyword (splitSpace l.tail).1).IsKeywordOf l.directive := by
  obtain ⟨hspace, hempty⟩ := textOf_splitSpace_fst h
  refine ⟨rfl, ⟨l.directive.keyword, textOf (splitSpace l.tail).1, ?_, ?_, hspace, ?_⟩, rfl⟩
  · simp [Span.text, Span.ofKeyword, hkeyword]
  · exact Directive.get?_table_keyword l.directive
  · simp [Span.ofKeyword, ← hempty]

end DirectiveLine

/-! ## Passages -/

namespace Passage

/-- Whether the passage is markup or starts with an `@` before the keyword. -/
def IsMarked : Passage → Prop
  | markup _ _ => True
  | directive mark l =>
      mark.kind = .transition ∧ l.keyword.content = l.directive.keyword

/-- Of a marked passage of spelled tokens comes a block of one of the two shapes. -/
theorem shape_block
    (baseType : Text) {p : Passage}
    (hmarked : p.IsMarked) (h : ∀ t ∈ p.source, t.Spelled) :
    (p.block baseType).IsMarkup ∨ ∃ d, (p.block baseType).IsDirective baseType d := by
  cases p with
  | markup t ts =>
      exact Or.inl ⟨rfl, _, rfl, rfl, List.cons_ne_nil t ts, rfl, rfl⟩
  | directive mark l =>
      obtain ⟨hmark, hkeyword⟩ := hmarked
      refine Or.inr ⟨l.directive, rfl, _, _, _, rfl, ?_, ?_, ?_⟩
      · have hspelled := h mark (by simp [source])
        exact ⟨rfl, ⟨mark, rfl, hspelled.transition hmark⟩, rfl, rfl⟩
      · refine DirectiveLine.isKeywordOf_ofKeyword hkeyword ?_
        intro t ht
        exact h t (by simp [source, ht])
      · exact l.isArgumentOf_argumentSpan baseType

end Passage

/-- A directive is only ever read at an `@` before its keyword. -/
theorem isMarked_of_mem_passages
    {designTime : Bool} {final : Location} {ts : List Token} {p : Passage}
    (h : p ∈ passages designTime final ts) :
    p.IsMarked := by
  induction ts using passages_induction designTime with
  | nil =>
      simp at h
  | directive d t k ts hd ih =>
      rw [passages_of_directive hd] at h
      rcases List.mem_cons.mp h with rfl | h
      · obtain ⟨t', k', rest, heq, hmark, hkeyword⟩ := (directiveAt_eq_some_iff _ _).mp hd
        cases heq
        exact ⟨hmark, ((Token.isKeyword_iff _ _).mp hkeyword).2⟩
      · exact ih h
  | markup t rest hd ih =>
      rw [passages_of_markup hd] at h
      rcases List.mem_cons.mp h with rfl | h
      · trivial
      · exact ih h

/-- The tokens of a passage are tokens of the document. -/
theorem mem_of_mem_source
    {designTime : Bool} {final : Location} {ts : List Token} {p : Passage} {t : Token}
    (hp : p ∈ passages designTime final ts) (ht : t ∈ p.source) :
    t ∈ ts := by
  have hsource : (passages designTime final ts).flatMap Passage.source = ts :=
    source_passages ts
  rw [← hsource]
  exact List.mem_flatMap.mpr ⟨p, hp, ht⟩

/-- Two stretches of markup never follow each other. -/
theorem isChain_passages
    (designTime : Bool) (final : Location) (ts : List Token) :
    (passages designTime final ts).IsChain (fun p q => ¬ (p.kind = .markup ∧ q.kind = .markup)) := by
  induction ts using passages_induction designTime with
  | nil =>
      simp
  | directive d t k ts hd ih =>
      rw [passages_of_directive hd]
      refine List.isChain_cons.mpr ⟨?_, ih⟩
      rintro q - ⟨hmarkup, -⟩
      cases hmarkup
  | markup t rest hd ih =>
      rw [passages_of_markup hd]
      refine List.isChain_cons.mpr ⟨?_, ih⟩
      rintro q hq ⟨-, hmarkup⟩
      rcases directiveAt_drop_markupRun rest with hend | ⟨d, hd'⟩
      · rw [hend] at hq
        simp at hq
      · obtain ⟨t', k', ts', heq, -⟩ := (directiveAt_eq_some_iff _ _).mp hd'
        rw [heq] at hd' hq
        rw [passages_of_directive hd', List.head?_cons, Option.mem_some_iff] at hq
        subst hq
        cases hmarkup

/-- Every block of a template is a stretch of markup or a whole directive, none is left a
statement, and between two stretches of markup there is a directive. -/
theorem readTemplate_shape
    (settings : Settings) (source : Text) :
    ∃ results, readTemplate settings source = .ok results ∧
      (∀ b ∈ results.blocks, b.IsMarkup ∨ ∃ d, b.IsDirective settings.baseType d) ∧
      (∀ b ∈ results.blocks, b.kind ≠ .statement) ∧
      results.blocks.IsChain (fun b c => ¬ (b.kind = .markup ∧ c.kind = .markup)) := by
  have hshape : ∀ b ∈ (Passage.ofSource settings.designTime source).map
      (Passage.block settings.baseType),
      b.IsMarkup ∨ ∃ d, b.IsDirective settings.baseType d := by
    intro b hb
    obtain ⟨p, hp, rfl⟩ := List.mem_map.mp hb
    refine p.shape_block settings.baseType (isMarked_of_mem_passages hp) ?_
    intro t ht
    exact Token.spelled_of_mem (mem_of_mem_source hp ht)
  refine ⟨_, readTemplate_eq_passages settings source, hshape, ?_, ?_⟩
  · intro b hb hstatement
    rcases hshape b hb with hmarkup | ⟨d, hdirective⟩
    · rw [hmarkup.kind] at hstatement
      cases hstatement
    · rw [hdirective.kind] at hstatement
      cases hstatement
  · refine (List.isChain_map _).mpr ?_
    refine (isChain_passages settings.designTime _ _).imp ?_
    intro p q hpq
    rwa [Passage.kind_block, Passage.kind_block]

end PageTemplate
