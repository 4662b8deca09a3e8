import PageTemplate.Slicer.Operation
import PageTemplate.Proofs.Slicer.Effect

/-!
# Requested completions

A block can be asked to end with the next span.  The request stays in force until an output, and
is met by that output whether or not it has a span to emit.  So an output with nothing to emit,
which else does nothing at all, then ends the block before the span that was waited for.

**Input.**  A slicer in any state, and any sequence of operations.

**Algorithm.**  An output makes the draft a span of the open block, unless the draft is empty.
Then it closes the block if that was requested.

**Results.**
* `output_of_not_isEmpty`, `output_of_idle`, `output_of_pending`: an output, by what it finds.
* `awaits_apply`, `awaits_run`: a request outlasts all operations that output nothing, and no
  span goes into the block meanwhile.
* `results_run_insert_output`: when an output with nothing to emit makes no difference, and what
  becomes of a request.
* `results_run_of_pending_output`: an output with nothing to emit that does make a difference.
-/

namespace PageTemplate
namespace Slicer

/-! ## Outputs -/

section Output

variable {s : Slicer}

/-- A span goes into the open block, and takes a requested completion with it. -/
theorem output_of_not_isEmpty (h : s.draft.isEmpty = false) (kind : SpanKind) :
    s.output kind =
      let b : Block :=
        ⟨s.openBlock.kind, s.openBlock.spans ++ [s.draft.toSpan kind s.location]⟩
      if s.completing then
        { s with
          draft := Draft.empty
          block := none
          completing := false
          blocks := s.blocks.push b }
      else { s with draft := Draft.empty, block := some b } := by
  simp only [output, emit, h, Bool.false_eq_true, if_false, closeBlock]

/-- With nothing to emit and no completion requested, an output does nothing. -/
theorem output_of_idle (h : s.draft.isEmpty = true) (hidle : s.completing = false)
    (kind : SpanKind) :
    s.output kind = s := by
  rw [output_of_isEmpty kind h, hidle]
  rfl

/-- With nothing to emit, an output ends a block whose completion was requested. -/
theorem output_of_pending (h : s.draft.isEmpty = true) (hpending : s.completing = true)
    (kind : SpanKind) :
    s.output kind = s.endBlock := by
  rw [output_of_isEmpty kind h, hpending, endBlock, h]
  rfl

/-- An open block without a draft to go into it is the last of the results. -/
theorem blocks_results_of_open {b : Block} (h : s.draft.isEmpty = true) (hblock : s.block = some b) :
    s.results.blocks = s.blocks.toList ++ [b] := by
  simp [results, endBlock, h, closeBlock, hblock]

end Output

/-! ## Requests that wait -/

/-- Whether the operation may output a span. -/
def Operation.isOutput : Operation → Bool
  | output _ | outputKeyword | baseTypeArgument _ _ | inheritsArgument => true
  | _ => false

/-- Whether the second slicer still waits for the span that is to end the block which was open
in the first. -/
structure Awaits (s s' : Slicer) : Prop where
  completing : s'.completing = true
  blocks : s'.blocks = s.blocks
  spans : s'.openBlock.spans = s.openBlock.spans

section Awaits

variable {s s' : Slicer}

theorem awaits_completeBlock (s : Slicer) :
    s.Awaits s.completeBlock :=
  ⟨rfl, rfl, rfl⟩

/-- What only reads on goes on waiting. -/
theorem Awaits.of_accepting (h : s.Awaits s') (cursor : Cursor) (draft : Draft) :
    s.Awaits { s' with cursor := cursor, draft := draft } :=
  ⟨h.completing, h.blocks, h.spans⟩

theorem awaits_acceptIf (h : s.Awaits s') (kind : TokenKind) :
    s.Awaits (s'.acceptIf kind) := by
  unfold acceptIf
  split
  · exact h.of_accepting _ _
  · exact h

theorem awaits_acceptOneSpace (h : s.Awaits s') :
    s.Awaits s'.acceptOneSpace.2 := by
  obtain ⟨rest, c, hspace, -, -⟩ := acceptOneSpace_eq s'
  rw [hspace]
  exact h.of_accepting _ _

/-- A request outlasts an operation that outputs nothing. -/
theorem awaits_apply (h : s.Awaits s') {op : Operation} (hop : op.isOutput = false) :
    s.Awaits (op.apply s') := by
  cases op with
  | acceptNext => exact h.of_accepting _ _
  | accept t => exact h.of_accepting _ _
  | acceptWhile p => exact h.of_accepting _ _
  | acceptUntil kind => exact h.of_accepting _ _
  | acceptIf kind => exact awaits_acceptIf h kind
  | acceptOneSpace => exact awaits_acceptOneSpace h
  | acceptTypeName => exact h.of_accepting _ _
  | setEdits edits => exact h.of_accepting _ _
  | setDescriptor descriptor => exact h.of_accepting _ _
  | claimBlock => exact ⟨h.completing, h.blocks, h.spans⟩
  | completeBlock => exact ⟨rfl, h.blocks, h.spans⟩
  | report location fault keyword => exact ⟨h.completing, h.blocks, h.spans⟩
  | output kind => cases hop
  | outputKeyword => cases hop
  | baseTypeArgument keyword describe => cases hop
  | inheritsArgument => cases hop

/-- A request outlasts all operations that output nothing. -/
theorem awaits_run {ops : List Operation} (h : s.Awaits s')
    (hops : ∀ op ∈ ops, op.isOutput = false) :
    s.Awaits (s'.run ops) := by
  induction ops generalizing s' with
  | nil =>
      exact h
  | cons op ops ih =>
      exact ih (awaits_apply h (hops op List.mem_cons_self))
        (fun op' hop' => hops op' (List.mem_cons_of_mem op hop'))

/-- The span that was waited for is the last one of its block. -/
theorem blocks_output_of_awaits (h : s.Awaits s') (hfull : s'.draft.isEmpty = false)
    (kind : SpanKind) :
    (s'.output kind).blocks = s.blocks.push
      ⟨s'.openBlock.kind, s.openBlock.spans ++ [s'.draft.toSpan kind s'.location]⟩ := by
  rw [output_of_not_isEmpty hfull, h.completing, ← h.blocks, ← h.spans]
  rfl

end Awaits

/-! ## Spans that tell of a request -/

/-- A span with one token more than the draft. -/
def oneSpan : List Operation :=
  [.accept default, .output .code]

section OneSpan

variable (s : Slicer)

theorem run_oneSpan :
    s.run oneSpan =
      let b : Block := ⟨s.openBlock.kind,
        s.openBlock.spans ++ [(s.draft.accept [default]).toSpan .code s.location]⟩
      if s.completing then
        { s with
          draft := Draft.empty
          block := none
          completing := false
          blocks := s.blocks.push b }
      else { s with draft := Draft.empty, block := some b } := by
  have hfull : (s.accept [default]).draft.isEmpty = false := by
    simp [accept, Draft.accept, Draft.isEmpty]
  exact output_of_not_isEmpty hfull .code

/-- No request outlasts a span. -/
theorem completing_run_oneSpan :
    (s.run oneSpan).completing = false := by
  rw [run_oneSpan]
  cases s.completing with
  | true => rfl
  | false => rfl

/-- A span ends its block if that was requested, and else makes it longer. -/
theorem length_spans_run_oneSpan :
    (s.run oneSpan).openBlock.spans.length =
      if s.completing then 0 else s.openBlock.spans.length + 1 := by
  rw [run_oneSpan]
  cases s.completing with
  | true => rfl
  | false => simp [openBlock]

/-- Of two spans, the first one ends its block exactly if that was requested. -/
theorem length_last_run_twoSpans :
    (s.run (oneSpan ++ oneSpan)).results.blocks.getLast?.map (·.spans.length) =
      some (if s.completing then 1 else s.openBlock.spans.length + 2) := by
  have hlength := length_spans_run_oneSpan s
  have hidle := completing_run_oneSpan s
  rw [run_append]
  obtain ⟨once, honce⟩ : ∃ once, s.run oneSpan = once := ⟨_, rfl⟩
  rw [honce] at hlength hidle ⊢
  rw [run_oneSpan, hidle, if_neg Bool.false_ne_true, blocks_results_of_open rfl rfl]
  simp only [List.getLast?_concat, Option.map_some, List.length_append, List.length_singleton,
    hlength]
  split
  · rfl
  · rfl

/-- An output with nothing to emit makes a difference to some run if a completion is pending. -/
theorem results_run_output_ne
    {s : Slicer} (h : s.draft.isEmpty = true) (hpending : s.completing = true) (kind : SpanKind) :
    ((s.output kind).run (oneSpan ++ oneSpan)).results ≠ (s.run (oneSpan ++ oneSpan)).results := by
  intro hsame
  have hended := length_last_run_twoSpans (s.output kind)
  have hnew : (s.output kind).openBlock.spans = [] := by
    rw [output_of_pending h hpending, openBlock, (settled_endBlock s).block]
    rfl
  have hidle : (s.output kind).completing = false := by
    rw [output_of_pending h hpending]
    exact (settled_endBlock s).completing
  rw [hsame, length_last_run_twoSpans, hpending, hidle, hnew] at hended
  cases hended

end OneSpan

/-! ## Runs -/

/-- An output with nothing to emit makes no difference to what comes of a run, whatever the run
goes on with, exactly if no completion is pending.  A completion that is requested is pending
until the next output: a span of that output is the last one of the block that was open at the
request, and without a span the block ends there and then. -/
theorem results_run_insert_output
    (designTime : Bool) (ts : List Token) :
    (∀ before kind, ((ofTokens designTime ts).run before).draft.isEmpty = true →
      ((∀ after, ((ofTokens designTime ts).run (before ++ .output kind :: after)).results =
          ((ofTokens designTime ts).run (before ++ after)).results) ↔
        ((ofTokens designTime ts).run before).completing = false)) ∧
    ∀ request between kind, (∀ op ∈ between, op.isOutput = false) →
      let asked := (ofTokens designTime ts).run request
      let ready := (ofTokens designTime ts).run (request ++ .completeBlock :: between)
      ready.blocks = asked.blocks ∧
      (ready.draft.isEmpty = false → (ready.output kind).blocks = asked.blocks.push
        ⟨ready.openBlock.kind,
          asked.openBlock.spans ++ [ready.draft.toSpan kind ready.location]⟩) ∧
      (ready.draft.isEmpty = true → ready.output kind = ready.endBlock) := by
  constructor
  · intro before kind hempty
    simp only [run_append, run_cons, Operation.apply]
    obtain ⟨s, hs⟩ : ∃ s, (ofTokens designTime ts).run before = s := ⟨_, rfl⟩
    rw [hs] at hempty ⊢
    constructor
    · intro hsame
      refine Bool.eq_false_iff.mpr ?_
      intro hpending
      exact results_run_output_ne hempty hpending kind (hsame _)
    · intro hidle after
      rw [output_of_idle hempty hidle]
  · intro request between kind hbetween
    dsimp only
    rw [run_append, run_cons, Operation.apply]
    have hwait := awaits_run (awaits_completeBlock ((ofTokens designTime ts).run request)) hbetween
    exact ⟨hwait.blocks, fun hfull => blocks_output_of_awaits hwait hfull kind,
      fun hempty => output_of_pending hempty hwait.completing kind⟩

/-- The block of the first span was to end with the second one.  An output with nothing to emit
between the two takes the second span out of it. -/
theorem results_run_of_pending_output :
    let s := ofSource false "a b".toList
    let before : List Operation := [.acceptNext, .output .metaCode, .completeBlock]
    let after : List Operation := [.acceptNext, .output .code]
    (s.run before).draft.isEmpty = true ∧
      (s.run (before ++ after)).results.blocks.map Block.text = ["a ".toList] ∧
      (s.run (before ++ .output .code :: after)).results.blocks.map Block.text =
        ["a".toList, " ".toList] := by
  decide +kernel

end Slicer
end PageTemplate
