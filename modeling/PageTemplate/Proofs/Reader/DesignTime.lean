import PageTemplate.Proofs.Reader.Reading
import PageTemplate.Proofs.Token.Spelling

/-!
# Who owns the line end

At design time the line end of a directive goes to the markup after it.  Nothing else
depends on the choice: a directive is read in the same place, means the same and has the same
mistakes.

**Input.**  The tokens of a document.

**Algorithm.**  The document is cut into passages twice, with and without design time.  The
two runs look for the next directive one line end apart, and the line end cannot start one.

**Results.**
* `descriptor_read`, `spans_read`: a directive gains its line end and nothing else.
* `passages_afterLine`: the line end joins the markup after the directive.
* `tokens_passages`, `reports_passages`, `descriptors_passages`, `directives_passages`: the
  two runs side by side.
* `readTemplate_designTime`: what comes out of a template in the two modes.
-/

namespace PageTemplate

open Token (line afterLine lineEnd splitSpace isSpacing staysOnLine placeOf textOf)

/-! ## Blocks and line ends -/

/-- The spans with more tokens at the end of the last one. -/
def Span.extendLast (ts : List Token) : List Span → List Span
  | [] => []
  | [s] => [{ s with tokens := s.tokens ++ ts }]
  | s :: ss => s :: extendLast ts ss

namespace Block

/-- The block with more tokens at the end of its last span. -/
def extend (ts : List Token) (b : Block) : Block :=
  { b with spans := Span.extendLast ts b.spans }

/-- The line end that the first of the blocks starts with, if it is markup that does. -/
def leadingLineEnd : List Block → List Token
  | [] => []
  | b :: _ => if b.kind = .markup then (b.tokens.take 1).filter (·.kind = .newLine) else []

/-- The directives among the blocks, each with the line end that stands after it. -/
def directivesWithLineEnds : List Block → List Block
  | [] => []
  | b :: bs =>
      if b.kind = .directive then b.extend (leadingLineEnd bs) :: directivesWithLineEnds bs
      else directivesWithLineEnds bs

/-- The directives among the blocks, as they are. -/
def directives (bs : List Block) : List Block :=
  bs.filter (·.kind = .directive)

end Block

/-! ## One directive -/

/-- Whether all line ends among the tokens are blank, as those of a text are. -/
def Token.BlankLineEnds (ts : List Token) : Prop :=
  ∀ t ∈ ts, t.kind = .newLine → Text.AllBlank t.content

theorem Token.allBlank_textOf_lineEnd
    {ts : List Token} (h : Token.BlankLineEnds ts) :
    Text.AllBlank (textOf (lineEnd ts)) := by
  rcases Token.lineEnd_eq ts with ⟨hnone, -⟩ | ⟨t, ht, hone, hkind⟩
  · rw [hnone, Token.textOf_nil]
    exact Text.allBlank_nil
  · rw [hone, Token.textOf_cons, Token.textOf_nil, List.append_nil]
    exact h t ht hkind

namespace DirectiveLine

section Read

variable (d : Directive) (final : Location) (k : Token) (ts : List Token)

/-- The white space after the keyword is the same in both modes, and the line end goes to the
argument. -/
theorem splitSpace_tail_read :
    splitSpace (read d false final k ts).tail =
      ((splitSpace (read d true final k ts).tail).1,
        (read d true final k ts).argument ++ lineEnd ts) := by
  have hhead : ∀ t, (lineEnd ts).head? = some t → t.kind ≠ .whiteSpace := by
    intro t ht
    rcases Token.lineEnd_eq ts with ⟨hnone, -⟩ | ⟨u, -, hone, hkind⟩
    · rw [hnone] at ht
      cases ht
    · rw [hone] at ht
      cases ht
      rw [hkind]
      exact TokenKind.noConfusion
  have htail : (read d false final k ts).tail = (read d true final k ts).tail ++ lineEnd ts :=
    Token.line_false ts
  rw [htail, Token.splitSpace_append_of_head hhead]
  rfl

/-- The argument gains the line end and nothing else. -/
theorem argument_read :
    (read d false final k ts).argument = (read d true final k ts).argument ++ lineEnd ts := by
  rw [argument, splitSpace_tail_read]

variable {ts}

/-- The line end is trimmed off the names, or does not reach them. -/
theorem descriptor_read
    (h : Token.BlankLineEnds ts) (baseType : Text) :
    (read d false final k ts).descriptor baseType =
      (read d true final k ts).descriptor baseType := by
  have htrim : Text.trim (textOf (read d false final k ts).argument) =
      Text.trim (textOf (read d true final k ts).argument) := by
    rw [argument_read, Token.textOf_append,
      Text.trim_append_right (Token.allBlank_textOf_lineEnd h)]
  have hdirective : (read d false final k ts).directive = (read d true final k ts).directive :=
    rfl
  unfold descriptor
  rw [htrim, typeName_read, typeName_read, property_read, property_read, hdirective]

/-- The last span of the directive gains the line end, and the other spans stay. -/
theorem spans_read
    (h : Token.BlankLineEnds ts) (baseType : Text) :
    (read d false final k ts).spans baseType =
      Span.extendLast (lineEnd ts) ((read d true final k ts).spans baseType) := by
  have hstop : (read d true final k ts).stop =
      placeOf (read d false final k ts).stop (lineEnd ts) := by
    simp only [read, Token.afterLine_true, Token.placeOf_append]
  simp only [spans, argumentSpan, Span.extendLast, hstop, descriptor_read d final k h,
    splitSpace_tail_read, argument_read, Token.placeOf_append]
  rfl

end Read

end DirectiveLine

/-! ## Passages -/

/-- A directive starts with its `@` only. -/
theorem directiveAt_of_kind_ne
    {t : Token} (h : t.kind ≠ .transition) (rest : List Token) :
    directiveAt (t :: rest) = none := by
  cases rest with
  | nil =>
      rfl
  | cons k rest =>
      exact if_neg (fun hboth => h hboth.1)

/-- The line end of a directive joins the markup after the directive. -/
theorem passages_afterLine
    (designTime : Bool) (final : Location) (ts : List Token) :
    passages designTime final (afterLine true ts) =
      (lineEnd ts).foldr Passage.consMarkup
        (passages designTime final (afterLine false ts)) := by
  rw [Token.afterLine_true]
  rcases Token.lineEnd_eq ts with ⟨hnone, -⟩ | ⟨t, -, hone, hkind⟩
  · rw [hnone]
    rfl
  · rw [hone]
    refine passages_cons_of_markup (directiveAt_of_kind_ne ?_ _)
    rw [hkind]
    exact TokenKind.noConfusion

/-- What does not see markup does not see the line end either. -/
theorem passages_afterLine_congr
    {β : Type} {f : List Passage → β} (h : ∀ t ps, f (Passage.consMarkup t ps) = f ps)
    (designTime : Bool) (final : Location) (ts : List Token) :
    f (passages designTime final (afterLine true ts)) =
      f (passages designTime final (afterLine false ts)) := by
  rw [passages_afterLine]
  rcases Token.lineEnd_eq ts with ⟨hnone, -⟩ | ⟨t, -, hone, -⟩
  · rw [hnone, List.foldr_nil]
  · rw [hone, List.foldr_cons, List.foldr_nil, h]

section ConsMarkup

variable (baseType : Text) (t : Token) (ps : List Passage)

/-- A token of markup before the blocks is the first of their tokens. -/
theorem tokens_consMarkup :
    ((Passage.consMarkup t ps).map (Passage.block baseType)).flatMap Block.tokens =
      t :: (ps.map (Passage.block baseType)).flatMap Block.tokens := by
  unfold Passage.consMarkup
  split
  · simp [Passage.block, Block.tokens]
  · simp [Passage.block, Block.tokens]

/-- A token of markup is nothing to report. -/
theorem reports_consMarkup (h : History) :
    h.reports (Passage.consMarkup t ps) = h.reports ps := by
  unfold Passage.consMarkup
  split
  · simp [History.reports, Passage.reports, Passage.record]
  · simp [History.reports, Passage.reports, Passage.record]

theorem descriptors_consMarkup :
    (Passage.consMarkup t ps).filterMap (Passage.descriptor? baseType) =
      ps.filterMap (Passage.descriptor? baseType) := by
  unfold Passage.consMarkup
  split
  · rfl
  · rfl

theorem directivesWithLineEnds_consMarkup :
    Block.directivesWithLineEnds ((Passage.consMarkup t ps).map (Passage.block baseType)) =
      Block.directivesWithLineEnds (ps.map (Passage.block baseType)) := by
  unfold Passage.consMarkup
  split
  · simp [Block.directivesWithLineEnds, Passage.block]
  · simp [Block.directivesWithLineEnds, Passage.block]

variable {t}

/-- A line end that joins the markup after it is the one that markup starts with. -/
theorem leadingLineEnd_consMarkup (h : t.kind = .newLine) :
    Block.leadingLineEnd ((Passage.consMarkup t ps).map (Passage.block baseType)) = [t] := by
  unfold Passage.consMarkup
  split
  · simp [Block.leadingLineEnd, Passage.block, Block.tokens, h]
  · simp [Block.leadingLineEnd, Passage.block, Block.tokens, h]

end ConsMarkup

/-! ## The two runs -/

theorem Token.BlankLineEnds.of_subset
    {ts us : List Token} (h : Token.BlankLineEnds ts) (hsub : us ⊆ ts) :
    Token.BlankLineEnds us :=
  fun t ht => h t (hsub ht)

section Passages

variable (final : Location) (baseType : Text)

/-- At design time the block after a directive starts with its line end. -/
theorem leadingLineEnd_passages (ts : List Token) :
    Block.leadingLineEnd
      ((passages true final (afterLine true ts)).map (Passage.block baseType)) =
        lineEnd ts := by
  rw [passages_afterLine]
  rcases Token.lineEnd_eq ts with ⟨hnone, hrest⟩ | ⟨t, -, hone, hkind⟩
  · rw [hnone, hrest, passages_nil]
    rfl
  · rw [hone]
    exact leadingLineEnd_consMarkup baseType _ hkind

/-- The blocks have the same tokens in both modes. -/
theorem tokens_passages (ts : List Token) :
    ((passages false final ts).map (Passage.block baseType)).flatMap Block.tokens =
      ((passages true final ts).map (Passage.block baseType)).flatMap Block.tokens := by
  induction ts using passages_induction false with
  | nil =>
      simp
  | directive d t k ts hd ih =>
      have hsplit := DirectiveLine.splitSpace_tail_read d final k ts
      have hblock : ((Passage.directive t (DirectiveLine.read d false final k ts)).block
          baseType).tokens =
            ((Passage.directive t (DirectiveLine.read d true final k ts)).block
              baseType).tokens ++ lineEnd ts := by
        simp [Passage.block, Block.tokens, DirectiveLine.spans, Span.ofKeyword,
          DirectiveLine.argumentSpan, DirectiveLine.argument, hsplit]
        rfl
      have hnext : ((passages true final (afterLine true ts)).map
          (Passage.block baseType)).flatMap Block.tokens =
            lineEnd ts ++ ((passages true final (afterLine false ts)).map
              (Passage.block baseType)).flatMap Block.tokens := by
        rw [passages_afterLine]
        rcases Token.lineEnd_eq ts with ⟨hnone, -⟩ | ⟨u, -, hone, -⟩
        · rw [hnone]
          rfl
        · rw [hone]
          exact tokens_consMarkup baseType u _
      rw [passages_of_directive hd, passages_of_directive hd, List.map_cons, List.map_cons,
        List.flatMap_cons, List.flatMap_cons, ih, hblock, hnext, List.append_assoc]
  | markup t rest hd ih =>
      rw [passages_of_markup hd, passages_of_markup hd, List.map_cons, List.map_cons,
        List.flatMap_cons, List.flatMap_cons, ih]

/-- The same mistakes are reported in both modes. -/
theorem reports_passages
    (h : History) (ts : List Token) :
    h.reports (passages false final ts) = h.reports (passages true final ts) := by
  induction ts using passages_induction false generalizing h with
  | nil =>
      simp
  | directive d t k ts hd ih =>
      have hfaults := DirectiveLine.faults_read d false final k ts
      have hplace : (DirectiveLine.read d false final k ts).place =
          (DirectiveLine.read d true final k ts).place := by
        rw [DirectiveLine.place_read, DirectiveLine.place_read]
      have hdirective : (DirectiveLine.read d false final k ts).directive =
          (DirectiveLine.read d true final k ts).directive := rfl
      have hnext (h : History) :=
        passages_afterLine_congr (fun t ps => reports_consMarkup t ps h) true final ts
      rw [passages_of_directive hd, passages_of_directive hd, History.reports, History.reports,
        ih, hnext]
      simp only [Passage.reports, Passage.record, hfaults, hplace, hdirective]
  | markup t rest hd ih =>
      rw [passages_of_markup hd, passages_of_markup hd, History.reports, History.reports, ih]

/-- The directives ask for the same in both modes. -/
theorem descriptors_passages
    {ts : List Token} (h : Token.BlankLineEnds ts) :
    (passages false final ts).filterMap (Passage.descriptor? baseType) =
      (passages true final ts).filterMap (Passage.descriptor? baseType) := by
  induction ts using passages_induction false with
  | nil =>
      simp
  | directive d t k ts hd ih =>
      have hline : Token.BlankLineEnds ts := h.of_subset (by simp)
      have hdescriptor := DirectiveLine.descriptor_read d final k hline baseType
      have hnext := passages_afterLine_congr (descriptors_consMarkup baseType) true final ts
      rw [passages_of_directive hd, passages_of_directive hd, List.filterMap_cons,
        List.filterMap_cons, ih (hline.of_subset (Token.afterLine_subset false ts)), hnext]
      simp only [Passage.descriptor?, hdescriptor]
  | markup t rest hd ih =>
      have hrest : Token.BlankLineEnds (rest.drop (markupRun rest 0)) :=
        h.of_subset (List.Subset.trans (List.drop_subset _ _) (List.subset_cons_self t rest))
      rw [passages_of_markup hd, passages_of_markup hd, List.filterMap_cons, List.filterMap_cons,
        ih hrest]

/-- The directives are those of design time, each with the line end that stands after it. -/
theorem directives_passages
    {ts : List Token} (h : Token.BlankLineEnds ts) :
    Block.directives ((passages false final ts).map (Passage.block baseType)) =
      Block.directivesWithLineEnds
        ((passages true final ts).map (Passage.block baseType)) := by
  induction ts using passages_induction false with
  | nil =>
      simp [Block.directives, Block.directivesWithLineEnds]
  | directive d t k ts hd ih =>
      have hline : Token.BlankLineEnds ts := h.of_subset (by simp)
      have hblock : (Passage.directive t (DirectiveLine.read d false final k ts)).block baseType =
          ((Passage.directive t (DirectiveLine.read d true final k ts)).block baseType).extend
            (lineEnd ts) := by
        simp only [Passage.block, Block.extend, DirectiveLine.spans_read d final k hline baseType]
        rfl
      have hnext := passages_afterLine_congr
        (f := fun ps => Block.directivesWithLineEnds (ps.map (Passage.block baseType)))
        (directivesWithLineEnds_consMarkup baseType) true final ts
      have hnormal (b : Block) (bs : List Block) (hb : b.kind = .directive) :
          Block.directives (b :: bs) = b :: Block.directives bs :=
        List.filter_cons_of_pos (by simp [hb])
      have hdesign (b : Block) (bs : List Block) (hb : b.kind = .directive) :
          Block.directivesWithLineEnds (b :: bs) =
            b.extend (Block.leadingLineEnd bs) :: Block.directivesWithLineEnds bs :=
        if_pos hb
      rw [passages_of_directive hd, passages_of_directive hd, List.map_cons, List.map_cons,
        hnormal _ _ rfl, hdesign _ _ rfl, leadingLineEnd_passages, hnext, ← hblock,
        ih (hline.of_subset (Token.afterLine_subset false ts))]
  | markup t rest hd ih =>
      have hrest : Token.BlankLineEnds (rest.drop (markupRun rest 0)) :=
        h.of_subset (List.Subset.trans (List.drop_subset _ _) (List.subset_cons_self t rest))
      rw [passages_of_markup hd, passages_of_markup hd]
      exact ih hrest

/-- At design time a directive is the last block or has its line end in the next one. -/
theorem exists_leadingLineEnd
    {ts : List Token} {before after : List Passage} {p : Passage}
    (h : passages true final ts = before ++ p :: after) (hp : p.kind = .directive) :
    after = [] ∨ ∃ t, Block.leadingLineEnd (after.map (Passage.block baseType)) = [t] := by
  induction ts using passages_induction true generalizing before with
  | nil =>
      simp at h
  | directive d t k ts hd ih =>
      rw [passages_of_directive hd] at h
      cases before with
      | nil =>
          rw [List.nil_append, List.cons.injEq] at h
          rw [← h.2, leadingLineEnd_passages]
          rcases Token.lineEnd_eq ts with ⟨hnone, hrest⟩ | ⟨u, -, hone, -⟩
          · left
            rw [Token.afterLine_true, hnone, hrest, List.nil_append, passages_nil]
          · exact Or.inr ⟨u, hone⟩
      | cons b before =>
          rw [List.cons_append, List.cons.injEq] at h
          exact ih h.2
  | markup t rest hd ih =>
      rw [passages_of_markup hd] at h
      cases before with
      | nil =>
          rw [List.nil_append, List.cons.injEq] at h
          rw [← h.1] at hp
          cases hp
      | cons b before =>
          rw [List.cons_append, List.cons.injEq] at h
          exact ih h.2

end Passages

/-- With and without design time the same comes out of a template, except that a directive
leaves its line end to the markup after it. -/
theorem readTemplate_designTime
    (baseType source : Text) :
    ∃ normal design,
      readTemplate ⟨baseType, false⟩ source = .ok normal ∧
      readTemplate ⟨baseType, true⟩ source = .ok design ∧
      normal.descriptors = design.descriptors ∧
      normal.diagnostics = design.diagnostics ∧
      normal.tokens = design.tokens ∧
      Block.directives normal.blocks = Block.directivesWithLineEnds design.blocks ∧
      (∀ before b after, design.blocks = before ++ b :: after → b.kind = .directive →
        after = [] ∨ ∃ t, Block.leadingLineEnd after = [t]) := by
  have hblank : Token.BlankLineEnds (Token.tokenize source) :=
    fun t ht hkind => Token.allBlank_of_newLine ht hkind
  refine ⟨_, _, readTemplate_eq_passages _ source, readTemplate_eq_passages _ source,
    ?_, ?_, ?_, ?_, ?_⟩
  · simp only [Results.descriptors, Results.spans, Passage.descriptors_blocks]
    exact descriptors_passages _ baseType hblank
  · exact reports_passages _ _ _
  · exact tokens_passages _ baseType _
  · exact directives_passages _ baseType hblank
  · intro before b after hblocks hkind
    obtain ⟨before, ps, hps, -, hrest⟩ := List.map_eq_append_iff.mp hblocks
    obtain ⟨p, after, rfl, rfl, rfl⟩ := List.map_eq_cons_iff.mp hrest
    rw [Passage.kind_block] at hkind
    rcases exists_leadingLineEnd _ baseType hps hkind with rfl | hlineEnd
    · exact Or.inl rfl
    · exact Or.inr hlineEnd

end PageTemplate
