import PageTemplate.Text.Basic

/-!
# Descriptors

A descriptor tells the code generator what a directive asks for.
-/

namespace PageTemplate

/-- Request method that a route is restricted to. -/
inductive Verb
  | get
  | put
  | post
  | delete
  | patch
  deriving DecidableEq, Repr, Inhabited

namespace Verb

/-- All verbs. -/
def all : List Verb :=
  [get, put, post, delete, patch]

/-- Lower case name of the verb. -/
def name : Verb → String
  | get => "get"
  | put => "put"
  | post => "post"
  | delete => "delete"
  | patch => "patch"

theorem mem_all (v : Verb) : v ∈ all := by
  cases v <;> decide

end Verb

/-- What to generate for a span. -/
inductive Descriptor
  /-- The generated class derives from `baseType`. -/
  | setBaseType (baseType : Text)
  /-- The generated class derives from `baseType`, applied to `modelType`. -/
  | model (baseType modelType : Text)
  /-- The generated class has a property of the given type and name. -/
  | inject (typeName propertyName : Text)
  /-- The page answers requests to the pattern, of any method if `verb` is `none`. -/
  | route (pattern : Text) (verb : Option Verb)
  deriving DecidableEq, Repr, Inhabited

end PageTemplate
