import PageTemplate.Slicer.Argument

/-!
# Operations on a slicer

The operations that are open to a caller, as data, so that one can speak of every
sequence of them.

**Results.**
* `run_append`: a sequence of operations is run part by part.
-/

namespace PageTemplate
namespace Slicer

/-- An operation that may change a slicer. -/
inductive Operation
  /-- The token at the cursor is accepted. -/
  | acceptNext
  /-- A token from elsewhere is accepted. -/
  | accept (t : Token)
  /-- The tokens that satisfy `p` are accepted. -/
  | acceptWhile (p : Token → Bool)
  /-- The tokens before the next one of the kind are accepted. -/
  | acceptUntil (kind : TokenKind)
  /-- The token at the cursor is accepted if it is of the kind. -/
  | acceptIf (kind : TokenKind)
  /-- One character of white space is accepted. -/
  | acceptOneSpace
  /-- The type name at the cursor is accepted. -/
  | acceptTypeName
  /-- The edit policy of the draft is set. -/
  | setEdits (edits : EditPolicy)
  /-- The descriptor of the draft is set. -/
  | setDescriptor (descriptor : Descriptor)
  /-- The open block becomes a directive. -/
  | claimBlock
  /-- The block is to end with the next span. -/
  | completeBlock
  /-- The draft becomes a span. -/
  | output (kind : SpanKind)
  /-- The accepted keyword becomes a span. -/
  | outputKeyword
  /-- The argument of a directive that names a type is read. -/
  | baseTypeArgument (keyword : Text) (describe : Text → Descriptor)
  /-- The argument of the directive that names the base class is read. -/
  | inheritsArgument
  /-- A mistake is reported. -/
  | report (location : Location) (fault : Fault) (keyword : Text)

/-- The slicer after an operation. -/
def Operation.apply (s : Slicer) : Operation → Slicer
  | acceptNext => s.acceptNext 1
  | accept t => s.accept [t]
  | acceptWhile p => s.acceptWhile p
  | acceptUntil kind => s.acceptUntil kind
  | acceptIf kind => s.acceptIf kind
  | acceptOneSpace => s.acceptOneSpace.2
  | acceptTypeName => s.acceptTypeName.2
  | setEdits edits => s.setEdits edits
  | setDescriptor descriptor => s.setDescriptor descriptor
  | claimBlock => s.claimBlock
  | completeBlock => s.completeBlock
  | output kind => s.output kind
  | outputKeyword => s.outputKeyword
  | baseTypeArgument keyword describe => (s.baseTypeArgument keyword describe).2
  | inheritsArgument => s.inheritsArgument
  | report location fault keyword => s.report location fault keyword

/-- The slicer after a sequence of operations. -/
def run (s : Slicer) (ops : List Operation) : Slicer :=
  ops.foldl Operation.apply s

@[simp] theorem run_nil (s : Slicer) : s.run [] = s := rfl

@[simp] theorem run_cons (s : Slicer) (op : Operation) (ops : List Operation) :
    s.run (op :: ops) = (op.apply s).run ops := rfl

theorem run_append (s : Slicer) (ops more : List Operation) :
    s.run (ops ++ more) = (s.run ops).run more :=
  List.foldl_append

end Slicer
end PageTemplate
