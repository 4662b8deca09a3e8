import PageTemplate.Location

/-!
# Diagnostics

A diagnostic reports a mistake of the author of a template.  It never stops the
reading of the document.
-/

namespace PageTemplate

/-- What an author can get wrong. -/
inductive Fault
  /-- No type name on the line of the directive. -/
  | missingTypeName
  /-- A type name without a property name. -/
  | missingPropertyName
  /-- A second model in the same document. -/
  | duplicateModel
  /-- A model and a base class in the same document. -/
  | modelAndInherits
  deriving DecidableEq, Repr, Inhabited

/-- The sentence that describes a fault of the directive `keyword`. -/
def Fault.message (keyword : String) : Fault → String
  | missingTypeName =>
      s!"The '{keyword}' keyword must be followed by a type name on the same line."
  | missingPropertyName =>
      s!"A property name must be specified when using the '{keyword}' statement. "
        ++ s!"Format for a '{keyword}' statement is '@{keyword} <Type Name> <Property Name>'."
  | duplicateModel => s!"Only one '{keyword}' statement is allowed."
  | modelAndInherits =>
      s!"The 'inherits' keyword is not allowed when a '{keyword}' keyword is used."

/-- A mistake and where it was noticed. -/
structure Diagnostic where
  /-- Where the mistake was noticed. -/
  location : Location
  /-- What is wrong. -/
  fault : Fault
  /-- The directive it concerns. -/
  keyword : Text
  deriving DecidableEq, Repr, Inhabited

namespace Diagnostic

/-- The description without the place. -/
def message (d : Diagnostic) : String :=
  d.fault.message (String.ofList d.keyword)

/-- The description after the place in parentheses. -/
def display (d : Diagnostic) : String :=
  s!"({d.location.display}) {d.message}"

end Diagnostic

end PageTemplate
