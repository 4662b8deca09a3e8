import PageTemplate.Proofs.Reader.Reading

/-!
# Nothing is lost

All of a template comes out again: every character, in order, in a token that says where
it stands, and in a span that says where it starts.

**Results.**
* `text_passages`, `placed_passages`: of the passages of any located tokens.
* `readTemplate_lossless`: of every template.
-/

namespace PageTemplate

open Token (line afterLine placeOf splitSpace textOf Located located_append)

/-! ## Spans one after the other -/

namespace Span

/-- Each span starts where the text before it ends, and its tokens follow from there. -/
def Placed : Location → List Span → Prop
  | _, [] => True
  | l, s :: ss => s.start = l ∧ Located l s.tokens ∧ Placed (l.advance s.text) ss

/-- Spans stand one behind the other if their parts do. -/
theorem placed_append
    {l : Location} {ss us : List Span} :
    Placed l (ss ++ us) ↔
      Placed l ss ∧ Placed (l.advance (ss.flatMap text)) us := by
  induction ss generalizing l with
  | nil =>
      simp [Placed]
  | cons s ss ih =>
      rw [List.cons_append, List.flatMap_cons, Location.advance_append]
      simp only [Placed, ih, and_assoc]

/-- A span starts where the text of those before it ends. -/
theorem start_of_placed
    {l : Location} {before after : List Span} {s : Span}
    (h : Placed l (before ++ s :: after)) :
    s.start = l.advance (before.flatMap text) :=
  (placed_append.mp h).2.1

/-- If the spans stand where they should, then so do their tokens. -/
theorem located_of_placed
    {l : Location} {ss : List Span}
    (h : Placed l ss) :
    Located l (ss.flatMap tokens) := by
  induction ss generalizing l with
  | nil =>
      trivial
  | cons s ss ih =>
      obtain ⟨-, htokens, hrest⟩ := h
      rw [List.flatMap_cons]
      exact located_append.mpr ⟨htokens, ih hrest⟩

end Span

theorem Results.tokens_eq_flatMap_spans
    (r : Results) :
    r.tokens = r.spans.flatMap Span.tokens := by
  simp only [tokens, spans, List.flatMap_assoc]
  rfl

/-! ## Passages -/

namespace Passage

/-- Whether the passage has the text go on at the given place, if it says where. -/
def StopsAt (l : Location) : Passage → Prop
  | markup _ _ => True
  | directive _ d => d.stop = l

/-- Whether the passage starts at the given place, and the text goes on behind it. -/
def At (l : Location) (p : Passage) : Prop :=
  Located l p.source ∧ p.StopsAt (l.advance (textOf p.source))

theorem at_of_append
    {l : Location} {p : Passage} {rest : List Token}
    (h : Located l (p.source ++ rest))
    (hstop : p.StopsAt (placeOf (l.advance (textOf (p.source ++ rest))) rest)) :
    p.At l := by
  rw [Token.placeOf_of_located h] at hstop
  exact ⟨(located_append.mp h).1, hstop⟩

/-- The text of a block is that of its passage. -/
theorem text_block
    (baseType : Text) (p : Passage) :
    (p.block baseType).text = textOf p.source := by
  cases p with
  | markup t ts =>
      simp [block, Block.text, Span.text, source]
  | directive mark d =>
      have hsplit := Token.textOf_splitSpace d.tail
      simp [block, Block.text, Span.text, source, DirectiveLine.spans, Span.ofKeyword,
        DirectiveLine.argumentSpan, DirectiveLine.argument, hsplit]

/-- The last span of a directive starts where it should even if it has no token. -/
theorem placed_block
    (baseType : Text) {l : Location} {p : Passage}
    (h : p.At l) :
    Span.Placed l (p.block baseType).spans := by
  cases p with
  | markup t ts =>
      exact ⟨h.1.1, h.1, trivial⟩
  | directive mark d =>
      obtain ⟨⟨hmark, hkeyword, htail⟩, hstop⟩ := h
      have hsplit := Token.located_splitSpace htail
      obtain ⟨hspace, hargument⟩ := located_append.mp hsplit
      -- The other two spans start with a token; the argument may have none, and then starts
      -- where the text goes on.
      have hplace : placeOf d.stop d.argument =
          ((l.advance mark.content).advance d.keyword.content).advance
            (textOf (splitSpace d.tail).1) := by
        rw [hstop, ← Token.placeOf_of_located hsplit, Token.textOf_append,
          Token.textOf_splitSpace]
        simp [source, DirectiveLine.argument, Location.advance_append]
      have hmarkText : Span.text ⟨.transition, [mark], mark.location, .any, none⟩ =
          mark.content := by
        simp [Span.text]
      have hkeywordText : (Span.ofKeyword d.keyword (splitSpace d.tail).1).text =
          d.keyword.content ++ textOf (splitSpace d.tail).1 := by
        simp [Span.text, Span.ofKeyword]
      refine ⟨hmark, ⟨hmark, trivial⟩, ?_⟩
      rw [hmarkText]
      refine ⟨hkeyword, ⟨hkeyword, hspace⟩, ?_⟩
      rw [hkeywordText, Location.advance_append]
      exact ⟨hplace, hargument, trivial⟩

end Passage

/-- The text of the blocks is that of the tokens. -/
theorem text_passages
    (designTime : Bool) (final : Location) (baseType : Text) (ts : List Token) :
    ((passages designTime final ts).map (Passage.block baseType)).flatMap Block.text =
      textOf ts := by
  rw [List.flatMap_map]
  simp only [Passage.text_block]
  rw [← Token.textOf_flatMap, source_passages]

/-- Blocks that follow each other without a gap still do so with a passage before them. -/
theorem placed_cons
    (baseType : Text) {l : Location} {p : Passage} {bs : List Block}
    (h : p.At l)
    (hrest : Span.Placed (l.advance (textOf p.source)) (bs.flatMap Block.spans)) :
    Span.Placed l ((p.block baseType :: bs).flatMap Block.spans) := by
  rw [List.flatMap_cons]
  refine Span.placed_append.mpr ⟨Passage.placed_block baseType h, ?_⟩
  have htext : (p.block baseType).spans.flatMap Span.text = textOf p.source :=
    Passage.text_block baseType p
  rwa [htext]

/-- The blocks of located tokens follow each other without a gap. -/
theorem placed_passages
    (designTime : Bool) (baseType : Text) {l : Location} {ts : List Token}
    (h : Located l ts) :
    Span.Placed l
      (((passages designTime (l.advance (textOf ts)) ts).map
        (Passage.block baseType)).flatMap Block.spans) := by
  induction ts using passages_induction designTime generalizing l with
  | nil =>
      simp [Span.Placed]
  | directive d t k ts hd ih =>
      rw [passages_of_directive hd, List.map_cons]
      have hcut : t :: k :: ts =
          (t :: k :: line designTime ts) ++ afterLine designTime ts := by
        rw [List.cons_append, List.cons_append, Token.line_append_afterLine]
      rw [hcut] at h ⊢
      have hnext := ih (located_append.mp h).2
      rw [← Location.advance_append, ← Token.textOf_append] at hnext
      exact placed_cons baseType (Passage.at_of_append h rfl) hnext
  | markup t rest hd ih =>
      rw [passages_of_markup hd, List.map_cons]
      have hcut : t :: rest =
          (t :: rest.take (markupRun rest 0)) ++ rest.drop (markupRun rest 0) := by
        rw [List.cons_append, List.take_append_drop]
      rw [hcut] at h
      have hnext := ih (located_append.mp h).2
      rw [← Location.advance_append, ← Token.textOf_append, ← hcut] at hnext
      exact placed_cons baseType (Passage.at_of_append h trivial) hnext

/-- Of every template, all text comes out in order, and every token and every span says
where it stands. -/
theorem readTemplate_lossless
    (settings : Settings) (source : Text) :
    ∃ results, readTemplate settings source = .ok results ∧
      textOf results.tokens = source ∧
      results.text = source ∧
      (∀ before t after, results.tokens = before ++ t :: after →
        t.location = Location.start.advance (textOf before)) ∧
      (∀ before s after, results.spans = before ++ s :: after →
        s.start = Location.start.advance (before.flatMap Span.text)) := by
  obtain ⟨results, hread, htext, hplaced⟩ :
      ∃ results, readTemplate settings source = .ok results ∧
        results.text = source ∧ Span.Placed Location.start results.spans := by
    have hplaced := placed_passages settings.designTime settings.baseType
      (Token.located_tokensFrom Location.start source)
    rw [Token.textOf_tokensFrom] at hplaced
    exact ⟨_, readTemplate_eq_passages settings source,
      (text_passages _ _ _ _).trans (Token.textOf_tokensFrom Location.start source), hplaced⟩
  refine ⟨results, hread, ?_, htext, ?_, ?_⟩
  · rw [← Results.text_eq, htext]
  · intro before t after htokens
    have hlocated := Span.located_of_placed hplaced
    rw [← Results.tokens_eq_flatMap_spans, htokens] at hlocated
    exact Token.location_of_located hlocated
  · intro before s after hspans
    rw [hspans] at hplaced
    exact Span.start_of_placed hplaced

end PageTemplate
