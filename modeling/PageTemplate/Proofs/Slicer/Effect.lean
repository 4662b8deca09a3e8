import PageTemplate.Slicer.Argument
import PageTemplate.Proofs.Token.Line

/-!
# What the operations of a slicer change

Each operation is described by what it does to the fields of a slicer, so that later
proofs need not open it.  Whatever is accepted from the cursor amounts to a single
`acceptNext`.

**Results.**
* `acceptLine_eq`: the rest of a line is accepted as the tokens of the line.
* `cursor_outputKeyword`, `draft_outputKeyword`: after a keyword, the spacing is passed and
  waits in the draft, without the white space that went to the keyword.
* `outputKeyword_eq`: the span of a keyword in a block that goes on.
* `finishDirective_eq`: the argument ends its block, and nothing stays behind.
* `settled_endBlock`, `endBlock_of_settled`: ending the block leaves nothing that would go
  into another one.
-/

namespace PageTemplate

attribute [ext] Slicer

/-- The span of the keyword `k`, which no edit may touch once white space ends it. -/
def Span.ofKeyword (k : Token) (space : List Token) : Span where
  kind := .metaCode
  tokens := k :: space
  start := k.location
  edits := if space = [] then .any else .none
  descriptor := none

namespace Slicer

open Token (line splitSpace isSpacing staysOnLine StartsWithLineEnd)

/-- The white space and comments at the cursor, as far as they stay on the line. -/
def spacing (s : Slicer) : List Token :=
  s.cursor.rest.takeWhile (isSpacing false true)

/-! ## Fields that an operation leaves alone -/

@[simp] theorem designTime_emit
    (kind : SpanKind) (s : Slicer) :
    (s.emit kind).designTime = s.designTime := by
  unfold emit
  split <;> rfl

@[simp] theorem diagnostics_emit
    (kind : SpanKind) (s : Slicer) :
    (s.emit kind).diagnostics = s.diagnostics := by
  unfold emit
  split <;> rfl

@[simp] theorem designTime_closeBlock (s : Slicer) :
    s.closeBlock.designTime = s.designTime := by
  unfold closeBlock
  split <;> rfl

@[simp] theorem diagnostics_closeBlock (s : Slicer) :
    s.closeBlock.diagnostics = s.diagnostics := by
  unfold closeBlock
  split <;> rfl

@[simp] theorem designTime_output
    (kind : SpanKind) (s : Slicer) :
    (s.output kind).designTime = s.designTime := by
  unfold output
  split <;> simp

@[simp] theorem diagnostics_output
    (kind : SpanKind) (s : Slicer) :
    (s.output kind).diagnostics = s.diagnostics := by
  unfold output
  split <;> simp

@[simp] theorem designTime_endBlock (s : Slicer) :
    s.endBlock.designTime = s.designTime := by
  unfold endBlock
  split <;> simp

@[simp] theorem diagnostics_endBlock (s : Slicer) :
    s.endBlock.diagnostics = s.diagnostics := by
  unfold endBlock
  split <;> simp

/-- The results report what the slicer has reported. -/
@[simp] theorem diagnostics_results (s : Slicer) :
    s.results.diagnostics = s.diagnostics.toList := by
  simp [results]

/-! ## Accepting -/

@[simp] theorem acceptNext_zero (s : Slicer) :
    s.acceptNext 0 = s := by
  simp [acceptNext, Draft.accept]

/-- Tokens accepted in two steps are accepted in one. -/
theorem acceptNext_acceptNext
    (m n : Nat) (s : Slicer) :
    (s.acceptNext m).acceptNext n = s.acceptNext (m + n) := by
  have htake :
      s.cursor.rest.take m ++ (s.cursor.rest.drop m).take n =
        s.cursor.rest.take (m + n) :=
    List.take_add.symm
  simp only [acceptNext, Cursor.move_move, Draft.accept, Cursor.rest_move, List.append_assoc,
    htake]

/-- Where the line is at its end, accepting the line end is accepting the line. -/
theorem acceptLineEnd_eq
    {s : Slicer} (h : StartsWithLineEnd s.cursor.rest) :
    s.acceptLineEnd = s.acceptNext (line s.designTime s.cursor.rest).length := by
  unfold acceptLineEnd acceptIf isAt Cursor.isAt Cursor.current?
  cases hrest : s.cursor.rest with
  | nil =>
      simp [line]
  | cons t rest =>
      have ht : t.kind = .newLine := h t (by rw [hrest]; rfl)
      cases hdesign : s.designTime with
      | true =>
          simp [line, ht]
      | false =>
          simp [line, ht]

/-- Up to the line end, what stays on the line is accepted. -/
theorem acceptUntil_newLine (s : Slicer) :
    s.acceptUntil .newLine =
      s.acceptNext (s.cursor.rest.takeWhile staysOnLine).length := rfl

/-- The rest of a line is accepted at once, with its line end unless it is design time. -/
theorem acceptLine_eq (s : Slicer) :
    s.acceptLine = s.acceptNext (line s.designTime s.cursor.rest).length := by
  have hrest : (s.acceptUntil .newLine).cursor.rest = s.cursor.rest.dropWhile staysOnLine :=
    rest_acceptWhile staysOnLine s
  have hend : StartsWithLineEnd (s.acceptUntil .newLine).cursor.rest := by
    rw [hrest]
    exact Token.startsWithLineEnd_dropWhile s.cursor.rest
  have hline := Token.line_eq_takeWhile_append Token.kind_of_staysOnLine
    s.designTime s.cursor.rest
  rw [acceptLine, acceptLineEnd_eq hend, hrest, acceptUntil_newLine, acceptNext_acceptNext,
    hline, List.length_append]
  rfl

/-! ## The span of a keyword -/

/-- One character of white space goes into the draft, the token it is taken from is passed,
and the rest of the token with the spacing after it is what the split leaves. -/
theorem acceptOneSpace_eq (s : Slicer) :
    ∃ (rest : Option Token) (c : Cursor),
      s.acceptOneSpace =
        (rest, { s with
          cursor := c
          draft := s.draft.accept (splitSpace (spacing s)).1 }) ∧
      c.moveWhile (isSpacing false true) = s.cursor.moveWhile (isSpacing false true) ∧
      rest.toList ++ c.rest.takeWhile (isSpacing false true) = (splitSpace (spacing s)).2 := by
  unfold spacing acceptOneSpace Cursor.current?
  cases hrest : s.cursor.rest with
  | nil =>
      exact ⟨none, s.cursor, by simp [splitSpace, Draft.accept], rfl, by simp [hrest, splitSpace]⟩
  | cons t ts =>
      by_cases hkind : t.kind = .whiteSpace
      · have hspace : isSpacing false true t = true := by simp [isSpacing, hkind]
        have hmove : (s.cursor.move 1).moveWhile (isSpacing false true) =
            s.cursor.moveWhile (isSpacing false true) := by
          simp only [Cursor.moveWhile, Cursor.move_move, Cursor.rest_move, hrest,
            List.drop_one, List.tail_cons, List.takeWhile_cons_of_pos hspace, List.length_cons,
            Nat.add_comm]
        cases hsplit : t.splitFirst with
        | none =>
            refine ⟨none, s.cursor.move 1, ?_, hmove, ?_⟩
            · simp [Option.filter_some, hkind, hspace, hsplit, splitSpace, acceptNext, hrest]
            · simp [hkind, hspace, hsplit, splitSpace, hrest]
        | some pieces =>
            refine ⟨some pieces.2, s.cursor.move 1, ?_, hmove, ?_⟩
            · simp [Option.filter_some, hkind, hspace, hsplit, splitSpace]
            · simp [hkind, hspace, hsplit, splitSpace, hrest]
      · have hsplit : splitSpace ((t :: ts).takeWhile (isSpacing false true)) =
            ([], (t :: ts).takeWhile (isSpacing false true)) := by
          refine Token.splitSpace_of_head ?_
          intro u hu
          cases hspace : isSpacing false true t with
          | true =>
              rw [List.takeWhile_cons_of_pos hspace] at hu
              cases hu
              exact hkind
          | false =>
              rw [List.takeWhile_cons_of_neg (by simp [hspace])] at hu
              cases hu
        refine ⟨none, s.cursor, ?_, rfl, ?_⟩
        · simp [Option.filter_some, hkind, hsplit, Draft.accept]
        · simp [hsplit, hrest]

@[simp] theorem designTime_outputKeyword (s : Slicer) :
    s.outputKeyword.designTime = s.designTime := by
  obtain ⟨rest, c, hspace, -, -⟩ := acceptOneSpace_eq s.claimBlock
  simp only [outputKeyword, hspace, acceptSpacing, acceptWhile, acceptNext, accept]
  split <;> simp [setEdits, claimBlock]

@[simp] theorem diagnostics_outputKeyword (s : Slicer) :
    s.outputKeyword.diagnostics = s.diagnostics := by
  obtain ⟨rest, c, hspace, -, -⟩ := acceptOneSpace_eq s.claimBlock
  simp only [outputKeyword, hspace, acceptSpacing, acceptWhile, acceptNext, accept]
  split <;> simp [setEdits, claimBlock]

/-- After a keyword the cursor is behind all spacing, wherever its span is cut. -/
theorem cursor_outputKeyword (s : Slicer) :
    s.outputKeyword.cursor = s.cursor.moveWhile (isSpacing false true) := by
  obtain ⟨rest, c, hspace, hmove, -⟩ := acceptOneSpace_eq s.claimBlock
  have hcursor : s.outputKeyword.cursor = c.moveWhile (isSpacing false true) := by
    simp only [outputKeyword, hspace, acceptSpacing, acceptWhile, acceptNext, cursor_accept,
      cursor_output]
    split <;> rfl
  exact hcursor.trans hmove

@[simp] theorem draft_closeBlock (s : Slicer) :
    s.closeBlock.draft = s.draft := by
  unfold closeBlock
  split <;> rfl

/-- A draft that holds anything is used up by its span. -/
theorem draft_output
    {s : Slicer} (h : s.draft.isEmpty = false) (kind : SpanKind) :
    (s.output kind).draft = Draft.empty := by
  unfold output emit
  rw [h]
  split <;> simp

/-- The draft waits with that spacing, less the white space that went to the keyword. -/
theorem draft_outputKeyword
    {s : Slicer} (h : s.draft.tokens ≠ []) :
    s.outputKeyword.draft = ⟨(splitSpace s.spacing).2, .any, none⟩ := by
  obtain ⟨rest, c, hspace, -, hrest⟩ := acceptOneSpace_eq s.claimBlock
  have hrest : rest.toList ++ c.rest.takeWhile (isSpacing false true) =
      (splitSpace s.spacing).2 := hrest
  -- The span takes all of the draft whether or not the keyword is guarded against edits.
  have hused (marked : Slicer) (hcursor : marked.cursor = c)
      (hdraft : marked.draft.isEmpty = false) :
      (((marked.output .metaCode).accept rest.toList).acceptSpacing).draft =
        ⟨(splitSpace s.spacing).2, .any, none⟩ := by
    have htake : c.rest.take (c.rest.takeWhile (isSpacing false true)).length =
        c.rest.takeWhile (isSpacing false true) :=
      List.prefix_iff_eq_take.mp (List.takeWhile_prefix _) |>.symm
    simp only [acceptSpacing, acceptWhile, acceptNext, accept, draft_output hdraft, cursor_output,
      hcursor, htake, Draft.accept, Draft.empty, List.nil_append, hrest]
  simp only [outputKeyword, hspace]
  split
  · exact hused _ rfl (by simp [setEdits, claimBlock, Draft.isEmpty, h])
  · exact hused _ rfl (by simp [claimBlock, Draft.isEmpty, h])

/-- The span of a keyword goes to the open block, which is a directive from then on. -/
theorem outputKeyword_eq
    {s : Slicer} {k : Token}
    (hdraft : s.draft = ⟨[k], .any, none⟩) (hopen : s.completing = false) :
    s.outputKeyword =
      { s with
        cursor := s.cursor.moveWhile (isSpacing false true)
        draft := ⟨(splitSpace s.spacing).2, .any, none⟩
        block := some ⟨.directive,
          s.openBlock.spans ++ [Span.ofKeyword k (splitSpace s.spacing).1]⟩ } := by
  have hcursor := cursor_outputKeyword s
  have hrest := draft_outputKeyword (s := s) (by simp [hdraft])
  obtain ⟨rest, c, hspace, -, -⟩ := acceptOneSpace_eq s.claimBlock
  have hspacing : s.claimBlock.spacing = s.spacing := rfl
  ext1
  case cursor => exact hcursor
  case draft => exact hrest
  all_goals
    simp only [outputKeyword, hspace, hspacing, acceptSpacing, acceptWhile, acceptNext, accept]
    simp only [claimBlock, hdraft]
    rcases Token.splitSpace_fst s.spacing with hnone | ⟨t, space, hone, -⟩
    · simp [hnone, output, emit, hopen, Draft.isEmpty, Draft.accept, Draft.toSpan,
        Span.ofKeyword, openBlock]
    · simp [hone, setEdits, output, emit, hopen, Draft.isEmpty, Draft.accept, Draft.toSpan,
        Span.ofKeyword, openBlock]

/-! ## The end of a directive -/

/-- With its argument a directive is complete, whatever was open before. -/
theorem finishDirective_eq
    (kind : SpanKind) (descriptor : Descriptor) (s : Slicer) :
    s.finishDirective kind descriptor =
      { s with
        draft := Draft.empty
        block := none
        completing := false
        blocks := s.blocks.push
          { s.openBlock with
            spans := s.openBlock.spans ++
              [{ s.draft with descriptor := some descriptor }.toSpan kind s.location] } } := by
  simp [finishDirective, setDescriptor, completeBlock, output, emit, Draft.isEmpty, closeBlock,
    openBlock, location]

/-! ## The end of a block -/

/-- Whether nothing is left that would go into a block. -/
structure Settled (s : Slicer) : Prop where
  draft : s.draft.isEmpty = true
  block : s.block = none
  completing : s.completing = false

/-- After it is closed no block is open. -/
@[simp] theorem block_closeBlock (s : Slicer) :
    s.closeBlock.block = none := by
  unfold closeBlock
  split
  · assumption
  · rfl

/-- The end of a block leaves nothing that would go into another one. -/
theorem settled_endBlock (s : Slicer) :
    s.endBlock.Settled where
  draft := by
    unfold endBlock
    split
    · next hempty =>
        simpa using hempty
    · next hfull =>
        simp [draft_output (Bool.eq_false_iff.mpr hfull), Draft.isEmpty, Draft.empty]
  block := by simp [endBlock]
  completing := rfl

/-- Where nothing is left, ending the block changes nothing. -/
theorem endBlock_of_settled
    {s : Slicer} (h : s.Settled) :
    s.endBlock = s := by
  obtain ⟨hdraft, hblock, hcompleting⟩ := h
  ext1
  all_goals
    simp [endBlock, closeBlock, hdraft, hblock, hcompleting]

end Slicer
end PageTemplate
