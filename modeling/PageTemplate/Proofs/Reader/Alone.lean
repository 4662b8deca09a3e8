import Mathlib.Data.List.Forall2
import PageTemplate.Proofs.Reader.Lossless
import PageTemplate.Proofs.Token.Recut

/-!
# A directive read on its own

The text of a block that holds a directive is a template in its own right.  Read with the same
settings it gives that one block again.

**Input.**  A template, and one of its directives.

**Algorithm.**  The tokens of the directive are cut out of the text once more.  At most a
carriage return at the end of its line goes from the comment before it into a token of its own.
Such a token is in no type name and no white space, and trimming takes it off what is read.

**Results.**
* `Recut.length_typeName`, `Recut.dropSpacing`: the type name and the spacing of a piece are as
  long as they were in the document.
* `descriptor_of_recut`, `spans_of_recut`: a line asks for the same when its tokens are cut out.
* `passages_of_recut`: it is the one passage of its text.
* `readTemplate_alone`: a template that is one directive of another.
-/

namespace PageTemplate

open Token (Recut StopsTypeName textOf line afterLine splitSpace isSpacing staysOnLine)

/-- Whether two spans are the same up to the places of their tokens. -/
structure Span.Alike (s t : Span) : Prop where
  kind : s.kind = t.kind
  text : s.text = t.text
  edits : s.edits = t.edits
  descriptor : s.descriptor = t.descriptor

/-! ## Type names -/

namespace Token.Recut

variable {ts us : List Token} (h : Recut ts us)
include h

/-- The tokens cut out again are of the same kinds, with at most one after them that no type
name has. -/
theorem exists_map_kind_eq :
    ∃ more, StopsTypeName more ∧ us.map Token.kind = (ts ++ more).map Token.kind := by
  have hnone : StopsTypeName [] := by
    intro t ht
    cases ht
  induction h with
  | nil =>
      exact ⟨[], hnone, rfl⟩
  | @carriageReturn r hkind hcontent =>
      refine ⟨[r], ?_, rfl⟩
      intro t ht
      obtain rfl : r = t := by simpa using ht
      rw [hkind]
      rfl
  | cons hkind hcontent hrest ih =>
      obtain ⟨more, hmore, hkinds⟩ := ih
      exact ⟨more, hmore, by simp [hkind, hkinds]⟩
  | comment ht hu hcontent hrest ih =>
      obtain ⟨more, hmore, hkinds⟩ := ih
      exact ⟨more, hmore, by simp [ht, hu, hkinds]⟩

theorem length_typeName :
    TypeName.length us = TypeName.length ts := by
  obtain ⟨more, hmore, hkinds⟩ := h.exists_map_kind_eq
  rw [TypeName.length_of_map_kind_eq hkinds, TypeName.length_append hmore]

end Token.Recut

/-- The carriage return is not part of the spacing. -/
theorem Token.Recut.dropSpacing
    {ts us : List Token} (h : Recut ts us) :
    Recut (ts.dropWhile (isSpacing false true)) (us.dropWhile (isSpacing false true)) := by
  refine h.dropWhile ?_ ?_
  · intro t u hkind
    simp only [isSpacing, hkind]
  · intro r hkind
    simp [isSpacing, hkind]

/-- Only comments are cut otherwise than they were. -/
theorem Token.Recut.exists_cons
    {t : Token} {ts us : List Token} (h : Recut (t :: ts) us) (hkind : t.kind ≠ .comment) :
    ∃ u rest, us = u :: rest ∧ u.kind = t.kind ∧ u.content = t.content ∧ Recut ts rest := by
  cases h with
  | cons hsame hcontent hrest => exact ⟨_, _, rfl, hsame.symm, hcontent.symm, hrest⟩
  | comment ht => exact absurd ht hkind

/-! ## Lines -/

namespace DirectiveLine

variable {l m : DirectiveLine} (h : Recut l.tail m.tail)
include h

/-- A type read again has the tokens it had. -/
theorem typeName_of_recut :
    Recut l.typeName m.typeName := by
  have hspacing : Recut l.afterSpacing m.afterSpacing := h.dropSpacing
  rw [typeName, typeName, hspacing.length_typeName]
  exact hspacing.take _

/-- A property read again has the tokens it had, up to its last carriage return. -/
theorem property_of_recut :
    Recut l.property m.property := by
  have hspacing : Recut l.afterSpacing m.afterSpacing := h.dropSpacing
  have htype : Recut l.afterType m.afterType := by
    rw [afterType, afterType, hspacing.length_typeName]
    exact hspacing.drop _
  have hgap : Recut l.afterGap m.afterGap := htype.dropSpacing
  refine hgap.takeWhile ?_ ?_
  · intro t u hkind
    simp only [staysOnLine, hkind]
  · intro r hkind
    simp [staysOnLine, hkind]

variable (htext : textOf m.tail = textOf l.tail)
include htext

/-- An argument read again has the same text. -/
theorem textOf_argument_of_recut :
    textOf m.argument = textOf l.argument := by
  have hspace : textOf (splitSpace m.tail).1 = textOf (splitSpace l.tail).1 :=
    congrArg List.flatten h.map_content_splitSpace
  have hsplit := htext
  rw [← Token.textOf_splitSpace m.tail, ← Token.textOf_splitSpace l.tail, hspace] at hsplit
  exact List.append_cancel_left hsplit

variable (hdirective : m.directive = l.directive)
include hdirective

/-- What a line asks for does not depend on what stands around it. -/
theorem descriptor_of_recut (baseType : Text) :
    m.descriptor baseType = l.descriptor baseType := by
  have hargument := textOf_argument_of_recut h htext
  have htype := (typeName_of_recut h).trim_textOf
  have hproperty := (property_of_recut h).trim_textOf
  simp only [descriptor, hdirective, hargument, htype, hproperty]

/-- A directive read again has spans that are alike. -/
theorem spans_of_recut (hkeyword : m.keyword.content = l.keyword.content) (baseType : Text) :
    List.Forall₂ Span.Alike (l.spans baseType) (m.spans baseType) := by
  have hsplit := h.map_content_splitSpace
  have hspace : textOf (splitSpace m.tail).1 = textOf (splitSpace l.tail).1 :=
    congrArg List.flatten hsplit
  have hnone : (splitSpace m.tail).1 = [] ↔ (splitSpace l.tail).1 = [] := by
    rw [← List.map_eq_nil_iff, hsplit, List.map_eq_nil_iff]
  refine .cons ⟨rfl, ?_, ?_, rfl⟩ (.cons ⟨?_, ?_, rfl, ?_⟩ .nil)
  · simp only [Span.ofKeyword, Span.text, Token.textOf_cons, hspace, hkeyword]
  · simp only [Span.ofKeyword, hnone]
  · simp only [argumentSpan, hdirective]
  · exact (textOf_argument_of_recut h htext).symm
  · simp only [argumentSpan, descriptor_of_recut h htext hdirective]

end DirectiveLine

/-! ## Documents -/

/-- Cut out of its document, a directive is the one passage of its text. -/
theorem passages_of_recut
    {designTime : Bool} {mark k : Token} {rest us : List Token} {d : Directive}
    (hat : directiveAt (mark :: k :: rest) = some d)
    (h : Recut (mark :: k :: line designTime rest) us)
    (htext : textOf us = textOf (mark :: k :: line designTime rest)) (final : Location) :
    ∃ (again : Token) (m : DirectiveLine),
      passages designTime final us = [.directive again m] ∧
        again.content = mark.content ∧ m.directive = d ∧ m.keyword.content = k.content ∧
        Recut (line designTime rest) m.tail ∧ textOf m.tail = textOf (line designTime rest) := by
  obtain ⟨t, k', ts, heq, hmark, hkey⟩ := (directiveAt_eq_some_iff _ _).mp hat
  cases heq
  have hkind := ((Token.isKeyword_iff _ _).mp hkey).1
  obtain ⟨again, us, rfl, hagain, hcontent, h⟩ := h.exists_cons (by simp [hmark])
  obtain ⟨keyword, tail, rfl, hsame, hkeyword, h⟩ := h.exists_cons (by simp [hkind])
  have htext : textOf tail = textOf (line designTime rest) := by
    simpa [hcontent, hkeyword] using htext
  have hafter : afterLine designTime tail = [] :=
    h.afterLine_eq_nil htext (Token.afterLine_line designTime rest)
  have hline : line designTime tail = tail := by
    have hboth := Token.line_append_afterLine designTime tail
    rwa [hafter, List.append_nil] at hboth
  have hdirective : directiveAt (again :: keyword :: tail) = some d := by
    simpa [directiveAt, hagain, hsame, hkeyword] using hat
  refine ⟨again, DirectiveLine.read d designTime final keyword tail, ?_, hcontent, rfl,
    hkeyword, ?_, ?_⟩
  · rw [passages_of_directive hdirective, hafter, passages_nil]
  · rw [DirectiveLine.read, hline]
    exact h
  · rw [DirectiveLine.read, hline]
    exact htext

/-- Read with the same settings, the text of a directive is one block: a directive whose spans
are those that it had in its document. -/
theorem readTemplate_alone
    (settings : Settings) (source : Text) :
    ∃ results, readTemplate settings source = .ok results ∧
      ∀ b ∈ results.blocks, b.kind = .directive →
        ∃ again c, readTemplate settings b.text = .ok again ∧ again.blocks = [c] ∧
          c.kind = .directive ∧ b.spans.length = 3 ∧
          List.Forall₂ Span.Alike b.spans c.spans := by
  refine ⟨_, readTemplate_eq_passages settings source, ?_⟩
  intro b hb hkind
  obtain ⟨p, hp, rfl⟩ := List.mem_map.mp hb
  obtain ⟨before, after, hpassages⟩ := List.append_of_mem hp
  cases p with
  | markup t ts =>
      cases hkind
  | directive mark l =>
      obtain ⟨rest, htokens, hread, hat⟩ := exists_read_of_passages_eq hpassages
      have htail : l.tail = line settings.designTime rest := by
        rw [hread]
        rfl
      let own := mark :: l.keyword :: line settings.designTime rest
      have hown : (Passage.directive mark l).source = own := by
        simp [own, Passage.source, htail]
      have hcut : Token.tokenize source =
          before.flatMap Passage.source ++ (own ++ afterLine settings.designTime rest) := by
        rw [htokens]
        simp [own, Token.line_append_afterLine]
      have hrecut := Token.recut_tokensFrom hcut Location.start
      have htext := Token.textOf_tokensFrom Location.start (textOf own)
      obtain ⟨again, m, hone, hmark, hdirective, hkeyword, hm, hmtext⟩ :=
        passages_of_recut hat hrecut htext (Location.start.advance (textOf own))
      rw [← htail] at hm hmtext
      have hspans :=
        DirectiveLine.spans_of_recut hm hmtext hdirective hkeyword settings.baseType
      have hsource : Passage.ofSource settings.designTime (textOf own) = [.directive again m] :=
        hone
      have htransition : Span.Alike ⟨.transition, [mark], mark.location, .any, none⟩
          ⟨.transition, [again], again.location, .any, none⟩ :=
        ⟨rfl, by simp [Span.text, hmark], rfl, rfl⟩
      have hagain := readTemplate_eq_passages settings (textOf own)
      rw [hsource, ← hown, ← Passage.text_block settings.baseType] at hagain
      exact ⟨_, _, hagain, rfl, rfl, rfl, .cons htransition hspans⟩

end PageTemplate
