import PageTemplate.Cursor
import PageTemplate.Results

/-!
# Slicer

A slicer cuts a list of tokens into spans and blocks.  Tokens are accepted from the
cursor into the draft of a span; the finished span goes into the open block; the
finished block goes behind the blocks that are complete.  Completed blocks and
reported diagnostics are only ever added to.

**Results.**
* `rest_acceptNext`, `draft_acceptNext`: accepting moves tokens from the cursor into
  the draft.
* `cursor_output`, `cursor_endBlock`, `cursor_beginBlock`: what ends spans and blocks
  leaves the cursor alone.
* `output_of_isEmpty`: an empty span is dropped, and a requested completion stays
  in force only for the open block.
-/

namespace PageTemplate

/-- The state of slicing a list of tokens. -/
structure Slicer where
  /-- The tokens, divided at the place reached. -/
  cursor : Cursor
  /-- Whether the line end of a directive is left to the markup after it. -/
  designTime : Bool
  /-- The span that is growing. -/
  draft : Draft
  /-- The block that is open. -/
  block : Option Block
  /-- Whether the block ends with the next span. -/
  completing : Bool
  /-- The blocks that are complete. -/
  blocks : Array Block
  /-- The mistakes reported. -/
  diagnostics : Array Diagnostic
  deriving DecidableEq, Repr

namespace Slicer

/-- The slicer before the first of the tokens. -/
def ofTokens (designTime : Bool) (ts : List Token) : Slicer where
  cursor := Cursor.ofTokens ts
  designTime := designTime
  draft := Draft.empty
  block := none
  completing := false
  blocks := #[]
  diagnostics := #[]

/-- The slicer before the first token of a document. -/
def ofSource (designTime : Bool) (source : Text) : Slicer :=
  ofTokens designTime (Token.tokenize source)

/-- Where the cursor stands. -/
def location (s : Slicer) : Location :=
  s.cursor.location

/-- Whether every token is passed. -/
def atEnd (s : Slicer) : Bool :=
  s.cursor.atEnd

/-- Whether the token at the cursor is of the given kind. -/
def isAt (kind : TokenKind) (s : Slicer) : Bool :=
  s.cursor.isAt kind

/-! ## Accepting tokens -/

/-- Tokens that do not come from the cursor, added to the draft. -/
def accept (ts : List Token) (s : Slicer) : Slicer :=
  { s with draft := s.draft.accept ts }

/-- The next `n` tokens moved into the draft. -/
def acceptNext (n : Nat) (s : Slicer) : Slicer :=
  { s with cursor := s.cursor.move n, draft := s.draft.accept (s.cursor.rest.take n) }

/-- The tokens that satisfy `p` moved into the draft, up to the first that does not. -/
def acceptWhile (p : Token → Bool) (s : Slicer) : Slicer :=
  s.acceptNext (s.cursor.rest.takeWhile p).length

/-- The tokens before the next one of the given kind moved into the draft. -/
def acceptUntil (kind : TokenKind) (s : Slicer) : Slicer :=
  s.acceptWhile (·.kind ≠ kind)

/-- White space and comments of the line moved into the draft. -/
def acceptSpacing (s : Slicer) : Slicer :=
  s.acceptWhile (Token.isSpacing false true)

/-- The token at the cursor moved into the draft, if it is of the given kind. -/
def acceptIf (kind : TokenKind) (s : Slicer) : Slicer :=
  if s.isAt kind then s.acceptNext 1 else s

/-- One character of white space moved into the draft.  If the token at the cursor
has more, it is passed, and what is left of it is given back. -/
def acceptOneSpace (s : Slicer) : Option Token × Slicer :=
  match s.cursor.current?.filter (·.kind = .whiteSpace) with
  | none => (none, s)
  | some t =>
      match t.splitFirst with
      | none => (none, s.acceptNext 1)
      | some (first, rest) =>
          (some rest, { s with cursor := s.cursor.move 1, draft := s.draft.accept [first] })

/-! ## Spans and blocks -/

/-- The edits of the span that is growing. -/
def setEdits (edits : EditPolicy) (s : Slicer) : Slicer :=
  { s with draft := { s.draft with edits := edits } }

/-- The descriptor of the span that is growing. -/
def setDescriptor (descriptor : Descriptor) (s : Slicer) : Slicer :=
  { s with draft := { s.draft with descriptor := some descriptor } }

/-- The open block, or a new one if none is open. -/
def openBlock (s : Slicer) : Block :=
  s.block.getD ⟨.statement, []⟩

/-- The open block turned into a directive. -/
def claimBlock (s : Slicer) : Slicer :=
  { s with block := some { s.openBlock with kind := .directive } }

/-- The request to end the block with the next span. -/
def completeBlock (s : Slicer) : Slicer :=
  { s with completing := true }

/-- The draft made a span of the open block, unless it is empty. -/
def emit (kind : SpanKind) (s : Slicer) : Slicer :=
  if s.draft.isEmpty then s
  else
    { s with
      draft := Draft.empty
      block := some
        { s.openBlock with
          spans := s.openBlock.spans ++ [s.draft.toSpan kind s.location] } }

/-- The open block, if there is one, moved to the complete ones. -/
def closeBlock (s : Slicer) : Slicer :=
  match s.block with
  | none => s
  | some b => { s with block := none, blocks := s.blocks.push b }

/-- The draft made a span; then the block closed, if that was requested. -/
def output (kind : SpanKind) (s : Slicer) : Slicer :=
  if s.completing then { (s.emit kind).closeBlock with completing := false }
  else s.emit kind

/-- The kind of the span for tokens that no rule has claimed. -/
def leftoverKind (s : Slicer) : SpanKind :=
  if s.block.map Block.kind = some .markup then .markup else .code

/-- The draft made a span, if it holds anything, and the open block closed. -/
def endBlock (s : Slicer) : Slicer :=
  { (if s.draft.isEmpty then s else s.output s.leftoverKind).closeBlock with
    completing := false }

/-- The open block ended and a new one opened. -/
def beginBlock (kind : BlockKind) (s : Slicer) : Slicer :=
  { s.endBlock with block := some ⟨kind, []⟩ }

/-- A mistake reported. -/
def report (location : Location) (fault : Fault) (keyword : Text) (s : Slicer) : Slicer :=
  { s with diagnostics := s.diagnostics.push ⟨location, fault, keyword⟩ }

/-- Everything that came out. -/
def results (s : Slicer) : Results where
  blocks := s.endBlock.blocks.toList
  diagnostics := s.endBlock.diagnostics.toList

/-! ## What the operations keep -/

@[simp] theorem rest_acceptNext (n : Nat) (s : Slicer) :
    (s.acceptNext n).cursor.rest = s.cursor.rest.drop n := rfl

@[simp] theorem draft_acceptNext (n : Nat) (s : Slicer) :
    (s.acceptNext n).draft = s.draft.accept (s.cursor.rest.take n) := rfl

theorem rest_acceptWhile (p : Token → Bool) (s : Slicer) :
    (s.acceptWhile p).cursor.rest = s.cursor.rest.dropWhile p :=
  Cursor.rest_moveWhile p s.cursor

@[simp] theorem cursor_accept (ts : List Token) (s : Slicer) :
    (s.accept ts).cursor = s.cursor := rfl

@[simp] theorem cursor_setEdits (edits : EditPolicy) (s : Slicer) :
    (s.setEdits edits).cursor = s.cursor := rfl

@[simp] theorem cursor_setDescriptor (descriptor : Descriptor) (s : Slicer) :
    (s.setDescriptor descriptor).cursor = s.cursor := rfl

@[simp] theorem cursor_claimBlock (s : Slicer) : s.claimBlock.cursor = s.cursor := rfl

@[simp] theorem cursor_completeBlock (s : Slicer) : s.completeBlock.cursor = s.cursor := rfl

@[simp] theorem cursor_report (location : Location) (fault : Fault) (keyword : Text)
    (s : Slicer) : (s.report location fault keyword).cursor = s.cursor := rfl

@[simp] theorem cursor_emit (kind : SpanKind) (s : Slicer) :
    (s.emit kind).cursor = s.cursor := by
  unfold emit
  split <;> rfl

@[simp] theorem cursor_closeBlock (s : Slicer) : s.closeBlock.cursor = s.cursor := by
  unfold closeBlock
  split <;> rfl

@[simp] theorem cursor_output (kind : SpanKind) (s : Slicer) :
    (s.output kind).cursor = s.cursor := by
  unfold output
  split <;> simp

@[simp] theorem cursor_endBlock (s : Slicer) : s.endBlock.cursor = s.cursor := by
  unfold endBlock
  split <;> simp

@[simp] theorem cursor_beginBlock (kind : BlockKind) (s : Slicer) :
    (s.beginBlock kind).cursor = s.cursor := by
  simp [beginBlock]

/-- An output with nothing in the draft still carries out a completion that was requested. -/
theorem output_of_isEmpty {s : Slicer} (kind : SpanKind) (h : s.draft.isEmpty = true) :
    s.output kind = if s.completing then { s.closeBlock with completing := false } else s := by
  simp [output, emit, h]

theorem length_rest_acceptIf_le (kind : TokenKind) (s : Slicer) :
    (s.acceptIf kind).cursor.rest.length ≤ s.cursor.rest.length := by
  unfold acceptIf
  split <;> simp

theorem length_rest_acceptOneSpace_le (s : Slicer) :
    s.acceptOneSpace.2.cursor.rest.length ≤ s.cursor.rest.length := by
  unfold acceptOneSpace
  split
  · exact Nat.le_refl _
  · split <;> simp

end Slicer

end PageTemplate
