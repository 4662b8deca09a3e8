import PageTemplate.Slicer.Keyword
import PageTemplate.TypeName
import PageTemplate.Text.Blank
import PageTemplate.Directive

/-!
# Arguments of directives

The argument of a directive is the rest of its line.  Its descriptor goes into the
span that holds it, and the block ends with that span.

**Results.**
* `length_rest_baseTypeArgument_le`: no token comes back.
-/

namespace PageTemplate
namespace Slicer

open Text (trim unquote)

/-- The type name at the cursor moved into the draft, with its text. -/
def acceptTypeName (s : Slicer) : Text × Slicer :=
  let n := TypeName.length s.cursor.rest
  (Token.textOf (s.cursor.rest.take n), s.acceptNext n)

/-- The line end moved into the draft, unless it is left to the markup. -/
def acceptLineEnd (s : Slicer) : Slicer :=
  if s.designTime then s else s.acceptIf .newLine

/-- The rest of the line moved into the draft, with its line end. -/
def acceptLine (s : Slicer) : Slicer :=
  (s.acceptUntil .newLine).acceptLineEnd

/-- Whether nothing is left of the line at the cursor. -/
def atLineEnd (s : Slicer) : Bool :=
  s.atEnd || s.isAt .newLine

/-- The draft made the last span of its directive. -/
def finishDirective (kind : SpanKind) (descriptor : Descriptor) (s : Slicer) : Slicer :=
  ((s.setDescriptor descriptor).completeBlock).output kind

/-- The keyword and the argument of a directive that names a type, after the keyword
was accepted.  `describe` makes the descriptor of the name, which is also returned. -/
def baseTypeArgument (keyword : Text) (describe : Text → Descriptor) (s : Slicer) :
    Text × Slicer :=
  let spaced := s.outputKeyword
  let checked :=
    if spaced.atLineEnd then spaced.report spaced.location .missingTypeName keyword
    else spaced
  let line := checked.acceptLine
  let name := trim line.draft.text
  (name, line.finishDirective .code (describe name))

/-- The keyword and the argument of the directive that names the base class, after
the keyword was accepted. -/
def inheritsArgument (s : Slicer) : Slicer :=
  (s.baseTypeArgument Directive.inherits.keyword .setBaseType).2

/-- The keyword and the argument of the directive that asks for a property, after the
keyword was accepted: a type name, and the rest of the line as the property's name. -/
def injectArgument (s : Slicer) : Slicer :=
  let spaced := s.outputKeyword
  let named := spaced.isAt .identifier
  let checked :=
    if named then spaced
    else spaced.report spaced.location .missingTypeName Directive.inject.keyword
  let typed := checked.acceptTypeName
  let gap := typed.2.acceptSpacing
  let ready :=
    if named && gap.atLineEnd then
      gap.report typed.2.location .missingPropertyName Directive.inject.keyword
    else gap
  let line := ready.acceptUntil .newLine
  let property := line.draft.textFrom ready.draft.tokens.length
  line.acceptLineEnd.finishDirective .code (.inject (trim typed.1) (trim property))

/-- The keyword and the argument of a route directive, after the keyword was
accepted: the pattern, in quotes or not. -/
def routeArgument (verb : Option Verb) (s : Slicer) : Slicer :=
  let line := s.outputKeyword.acceptLine
  line.finishDirective .metaCode (.route (unquote (trim line.draft.text)) verb)

@[simp] theorem cursor_finishDirective (kind : SpanKind) (descriptor : Descriptor)
    (s : Slicer) : (s.finishDirective kind descriptor).cursor = s.cursor := by
  simp [finishDirective]

theorem length_rest_acceptUntil_le (kind : TokenKind) (s : Slicer) :
    (s.acceptUntil kind).cursor.rest.length ≤ s.cursor.rest.length := by
  simp [acceptUntil, acceptWhile]

theorem length_rest_acceptLineEnd_le (s : Slicer) :
    s.acceptLineEnd.cursor.rest.length ≤ s.cursor.rest.length := by
  unfold acceptLineEnd
  split
  · exact Nat.le_refl _
  · exact length_rest_acceptIf_le .newLine s

theorem length_rest_acceptLine_le (s : Slicer) :
    s.acceptLine.cursor.rest.length ≤ s.cursor.rest.length :=
  Nat.le_trans (length_rest_acceptLineEnd_le _) (length_rest_acceptUntil_le .newLine s)

theorem length_rest_baseTypeArgument_le (keyword : Text) (describe : Text → Descriptor)
    (s : Slicer) :
    (s.baseTypeArgument keyword describe).2.cursor.rest.length ≤ s.cursor.rest.length := by
  have h := length_rest_outputKeyword_le s
  simp only [baseTypeArgument, cursor_finishDirective]
  split
  · exact Nat.le_trans (length_rest_acceptLine_le _) h
  · exact Nat.le_trans (length_rest_acceptLine_le _) h

theorem length_rest_routeArgument_le (verb : Option Verb) (s : Slicer) :
    (s.routeArgument verb).cursor.rest.length ≤ s.cursor.rest.length := by
  simp only [routeArgument, cursor_finishDirective]
  exact Nat.le_trans (length_rest_acceptLine_le _) (length_rest_outputKeyword_le s)

theorem length_rest_injectArgument_le (s : Slicer) :
    s.injectArgument.cursor.rest.length ≤ s.cursor.rest.length := by
  simp only [injectArgument, cursor_finishDirective]
  refine Nat.le_trans (length_rest_acceptLineEnd_le _) ?_
  refine Nat.le_trans (length_rest_acceptUntil_le .newLine _) ?_
  have h := length_rest_outputKeyword_le s
  simp only [apply_ite Slicer.cursor, cursor_report, ite_self, acceptSpacing, acceptWhile,
    acceptTypeName, rest_acceptNext, List.length_drop]
  omega

end Slicer
end PageTemplate
