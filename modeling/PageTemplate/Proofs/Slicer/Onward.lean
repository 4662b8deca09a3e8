import PageTemplate.Slicer.Operation
import PageTemplate.Proofs.Slicer.Effect
import PageTemplate.Proofs.TypeName.Locality

/-!
# Operations only go on

**Input.**  A slicer in any state, and any of its operations.

No operation takes anything back: the cursor stays or moves on over the same tokens, and
what stands among the blocks and the diagnostics stays there, in the same place.  This is a
preorder on slicers, so it need only be seen of the small operations that the others are
made of.

**Results.**
* `onward_of_open`: what is not complete yet may be changed.
* `onward_endBlock`: what stands among the blocks and diagnostics stays among the results.
* `onward_apply`, `onward_run`: an operation, and a sequence of operations, goes on.
-/

namespace PageTemplate

namespace Cursor

/-- A cursor that moves on is still one over the same tokens. -/
theorem Reaches.tokens_eq
    {c d : Cursor} (h : c.Reaches d) :
    d.tokens = c.tokens := by
  obtain ⟨n, rfl⟩ := h
  exact tokens_move n c

end Cursor

namespace Slicer

open Cursor (Reaches)

/-- Whether the second slicer may have come of the first: it reads on, and it has everything
that had come out. -/
structure Onward (s s' : Slicer) : Prop where
  cursor : s.cursor.Reaches s'.cursor
  designTime : s'.designTime = s.designTime
  blocks : s.blocks.toList <+: s'.blocks.toList
  diagnostics : s.diagnostics.toList <+: s'.diagnostics.toList

namespace Onward

theorem refl (s : Slicer) :
    Onward s s :=
  ⟨Reaches.refl _, rfl, List.prefix_rfl, List.prefix_rfl⟩

theorem trans
    {s s' s'' : Slicer} (h : Onward s s') (h' : Onward s' s'') :
    Onward s s'' where
  cursor := h.cursor.trans h'.cursor
  designTime := h'.designTime.trans h.designTime
  blocks := h.blocks.trans h'.blocks
  diagnostics := h.diagnostics.trans h'.diagnostics

/-- A block that is complete is never changed and keeps its number. -/
theorem getElem?_blocks
    {s s' : Slicer} (h : Onward s s') {i : Nat} {b : Block}
    (hb : s.blocks[i]? = some b) :
    s'.blocks[i]? = some b := by
  rw [← Array.getElem?_toList] at hb ⊢
  obtain ⟨hlt, rfl⟩ := List.getElem?_eq_some_iff.mp hb
  exact List.prefix_iff_getElem?.mp h.blocks i hlt

end Onward

/-! ## The small operations -/

section Small

variable (s : Slicer)

/-- What is not complete yet may still be changed. -/
theorem onward_of_open
    (draft : Draft) (block : Option Block) (completing : Bool) :
    s.Onward { s with draft := draft, block := block, completing := completing } :=
  ⟨Reaches.refl _, rfl, List.prefix_rfl, List.prefix_rfl⟩

theorem onward_acceptNext (n : Nat) :
    s.Onward (s.acceptNext n) :=
  ⟨Cursor.reaches_move n _, rfl, List.prefix_rfl, List.prefix_rfl⟩

theorem onward_acceptIf (kind : TokenKind) :
    s.Onward (s.acceptIf kind) := by
  unfold acceptIf
  split
  · exact s.onward_acceptNext 1
  · exact Onward.refl s

theorem onward_acceptOneSpace :
    s.Onward s.acceptOneSpace.2 := by
  unfold acceptOneSpace
  split
  · exact Onward.refl s
  · split
    · exact s.onward_acceptNext 1
    · exact ⟨Cursor.reaches_move 1 _, rfl, List.prefix_rfl, List.prefix_rfl⟩

theorem onward_report
    (location : Location) (fault : Fault) (keyword : Text) :
    s.Onward (s.report location fault keyword) where
  cursor := Reaches.refl _
  designTime := rfl
  blocks := List.prefix_rfl
  diagnostics := by simp [report]

theorem onward_emit (kind : SpanKind) :
    s.Onward (s.emit kind) := by
  unfold emit
  split
  · exact Onward.refl s
  · exact s.onward_of_open _ _ _

/-- A block that is closed goes behind the others. -/
theorem onward_closeBlock :
    s.Onward { s.closeBlock with completing := false } := by
  unfold closeBlock
  split
  · exact s.onward_of_open _ _ _
  · exact ⟨Reaches.refl _, rfl, by simp, List.prefix_rfl⟩

end Small

/-! ## What is made of them -/

section Made

variable (s : Slicer)

/-- An output adds at most one block. -/
theorem onward_output (kind : SpanKind) :
    s.Onward (s.output kind) := by
  unfold output
  split
  · exact (s.onward_emit kind).trans (onward_closeBlock _)
  · exact s.onward_emit kind

theorem onward_endBlock :
    s.Onward s.endBlock := by
  unfold endBlock
  split
  · exact s.onward_closeBlock
  · exact (s.onward_output _).trans (onward_closeBlock _)

theorem onward_beginBlock (kind : BlockKind) :
    s.Onward (s.beginBlock kind) :=
  s.onward_endBlock.trans (onward_of_open _ _ _ _)

/-- The span of a keyword is made of operations that go on. -/
theorem onward_outputKeyword :
    s.Onward s.outputKeyword := by
  have hspace : s.Onward s.claimBlock.acceptOneSpace.2 :=
    (s.onward_of_open _ _ _).trans (onward_acceptOneSpace _)
  have hafter (marked : Slicer) :
      marked.Onward (((marked.output .metaCode).accept
        s.claimBlock.acceptOneSpace.1.toList).acceptSpacing) :=
    ((marked.onward_output .metaCode).trans (onward_of_open _ _ _ _)).trans
      (onward_acceptNext _ _)
  unfold outputKeyword
  dsimp only
  split
  · exact (hspace.trans (onward_of_open _ _ _ _)).trans (hafter _)
  · exact hspace.trans (hafter _)

theorem onward_acceptLine :
    s.Onward s.acceptLine := by
  unfold acceptLine acceptLineEnd
  split
  · exact s.onward_acceptNext _
  · exact (s.onward_acceptNext _).trans (onward_acceptIf _ .newLine)

theorem onward_finishDirective
    (kind : SpanKind) (descriptor : Descriptor) :
    s.Onward (s.finishDirective kind descriptor) :=
  (s.onward_of_open _ _ _).trans (onward_output _ kind)

theorem onward_baseTypeArgument
    (keyword : Text) (describe : Text → Descriptor) :
    s.Onward (s.baseTypeArgument keyword describe).2 := by
  have hline (checked : Slicer) (descriptor : Descriptor) :
      checked.Onward (checked.acceptLine.finishDirective .code descriptor) :=
    checked.onward_acceptLine.trans (onward_finishDirective _ _ _)
  unfold baseTypeArgument
  dsimp only
  split
  · exact (s.onward_outputKeyword.trans (onward_report _ _ _ _)).trans (hline _ _)
  · exact s.onward_outputKeyword.trans (hline _ _)

end Made

/-! ## Runs -/

/-- Every operation goes on. -/
theorem onward_apply
    (s : Slicer) (op : Operation) :
    s.Onward (op.apply s) := by
  cases op with
  | acceptNext => exact s.onward_acceptNext 1
  | accept t => exact s.onward_of_open _ _ _
  | acceptWhile p => exact s.onward_acceptNext _
  | acceptUntil kind => exact s.onward_acceptNext _
  | acceptIf kind => exact s.onward_acceptIf kind
  | acceptOneSpace => exact s.onward_acceptOneSpace
  | acceptTypeName => exact s.onward_acceptNext _
  | setEdits edits => exact s.onward_of_open _ _ _
  | setDescriptor descriptor => exact s.onward_of_open _ _ _
  | claimBlock => exact s.onward_of_open _ _ _
  | completeBlock => exact s.onward_of_open _ _ _
  | output kind => exact s.onward_output kind
  | outputKeyword => exact s.onward_outputKeyword
  | baseTypeArgument keyword describe => exact s.onward_baseTypeArgument keyword describe
  | inheritsArgument => exact s.onward_baseTypeArgument _ _
  | report location fault keyword => exact s.onward_report location fault keyword

/-- Every sequence of operations goes on. -/
theorem onward_run
    (s : Slicer) (ops : List Operation) :
    s.Onward (s.run ops) := by
  induction ops generalizing s with
  | nil =>
      exact Onward.refl s
  | cons op ops ih =>
      exact (s.onward_apply op).trans (ih _)

end Slicer
end PageTemplate
