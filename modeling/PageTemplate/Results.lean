import PageTemplate.Span
import PageTemplate.Diagnostic

/-!
# Blocks and results

A block is the spans of one construct: a stretch of markup or one directive.  The
results of reading a document are its blocks and the diagnostics, in the order in
which they arose.

**Results.**
* `Results.text_eq`: the text of the results is the text of all their tokens.
-/

namespace PageTemplate

/-- Classification of a block. -/
inductive BlockKind
  /-- Text of the page. -/
  | markup
  /-- Text after `@` that no directive has claimed yet. -/
  | statement
  /-- A directive, which is never part of the page. -/
  | directive
  deriving DecidableEq, Repr, Inhabited

/-- The spans of one construct. -/
structure Block where
  /-- What the construct is. -/
  kind : BlockKind
  /-- Its spans in source order. -/
  spans : List Span
  deriving DecidableEq, Repr, Inhabited

namespace Block

/-- The tokens of all spans. -/
def tokens (b : Block) : List Token :=
  b.spans.flatMap Span.tokens

/-- The text of all spans. -/
def text (b : Block) : Text :=
  b.spans.flatMap Span.text

theorem text_eq (b : Block) : b.text = Token.textOf b.tokens := by
  rw [tokens, Token.textOf_flatMap]
  rfl

end Block

/-- What came out of reading a document. -/
structure Results where
  /-- The blocks in source order. -/
  blocks : List Block
  /-- The diagnostics in the order of their reports. -/
  diagnostics : List Diagnostic
  deriving DecidableEq, Repr, Inhabited

namespace Results

/-- All spans in source order. -/
def spans (r : Results) : List Span :=
  r.blocks.flatMap Block.spans

/-- All tokens in source order. -/
def tokens (r : Results) : List Token :=
  r.blocks.flatMap Block.tokens

/-- The descriptors of the spans that have one, in source order. -/
def descriptors (r : Results) : List Descriptor :=
  r.spans.filterMap Span.descriptor

/-- Whether anything was reported. -/
def hasErrors (r : Results) : Bool :=
  !r.diagnostics.isEmpty

/-- The text of all blocks. -/
def text (r : Results) : Text :=
  r.blocks.flatMap Block.text

theorem text_eq (r : Results) : r.text = Token.textOf r.tokens := by
  rw [tokens, Token.textOf_flatMap]
  exact congrArg (r.blocks.flatMap ·) (funext Block.text_eq)

end Results

end PageTemplate
