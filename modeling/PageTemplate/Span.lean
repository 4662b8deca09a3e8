import PageTemplate.Token.Stream
import PageTemplate.Descriptor

/-!
# Spans

A span is a run of tokens with one meaning.  While it grows it is a `Draft`.

**Results.**
* `Draft.isEmpty_iff`: an empty draft has neither tokens nor a descriptor.
* `Draft.textFrom_accept`: what a draft gained is the text of what was accepted.
-/

namespace PageTemplate

/-- Classification of a span. -/
inductive SpanKind
  /-- The `@` that leads from markup into a directive. -/
  | transition
  /-- Text of a directive that only the generator reads. -/
  | metaCode
  /-- Text of a directive that goes into the generated code. -/
  | code
  /-- Text outside directives. -/
  | markup
  deriving DecidableEq, Repr, Inhabited

/-- Which edits of a span an editor may make without reading the document again. -/
inductive EditPolicy
  | any
  | none
  deriving DecidableEq, Repr, Inhabited

/-- A run of tokens with its classification. -/
structure Span where
  /-- What the run is. -/
  kind : SpanKind
  /-- The tokens in source order. -/
  tokens : List Token
  /-- Where the run starts, also when it has no token. -/
  start : Location
  /-- Which edits stay inside the run. -/
  edits : EditPolicy
  /-- What the generator has to do for the run. -/
  descriptor : Option Descriptor
  deriving DecidableEq, Repr, Inhabited

/-- The text of a span. -/
def Span.text (s : Span) : Text :=
  Token.textOf s.tokens

/-- A span that is still growing. -/
structure Draft where
  /-- The tokens accepted so far. -/
  tokens : List Token
  /-- Which edits will stay inside the span. -/
  edits : EditPolicy
  /-- What the generator will have to do for the span. -/
  descriptor : Option Descriptor
  deriving DecidableEq, Repr, Inhabited

namespace Draft

/-- The draft of a span nothing is known of. -/
def empty : Draft :=
  ⟨[], .any, none⟩

/-- Whether the draft has neither tokens nor a descriptor. -/
def isEmpty (d : Draft) : Bool :=
  d.tokens.isEmpty && d.descriptor.isNone

/-- The draft with more tokens. -/
def accept (ts : List Token) (d : Draft) : Draft :=
  { d with tokens := d.tokens ++ ts }

/-- The text of the draft. -/
def text (d : Draft) : Text :=
  Token.textOf d.tokens

/-- The text of the draft without its first `n` tokens. -/
def textFrom (n : Nat) (d : Draft) : Text :=
  Token.textOf (d.tokens.drop n)

/-- The finished span.  Without tokens it starts at `fallback`. -/
def toSpan (kind : SpanKind) (fallback : Location) (d : Draft) : Span where
  kind := kind
  tokens := d.tokens
  start := (d.tokens.head?.map Token.location).getD fallback
  edits := d.edits
  descriptor := d.descriptor

theorem isEmpty_iff (d : Draft) : d.isEmpty = true ↔ d.tokens = [] ∧ d.descriptor = none := by
  simp [isEmpty]

@[simp] theorem tokens_accept (ts : List Token) (d : Draft) :
    (d.accept ts).tokens = d.tokens ++ ts := rfl

@[simp] theorem text_accept (ts : List Token) (d : Draft) :
    (d.accept ts).text = d.text ++ Token.textOf ts := by
  simp [text]

theorem textFrom_accept (ts : List Token) (d : Draft) :
    (d.accept ts).textFrom d.tokens.length = Token.textOf ts := by
  simp [textFrom]

end Draft

end PageTemplate
