import PageTemplate.Slicer.Basic

/-!
# Directive keywords

A directive starts with its keyword.  The keyword and one character of white space
after it form a span that no edit may touch; the rest of the spacing belongs to what
follows.

**Results.**
* `checkKeyword_eq_ok_iff`: the check succeeds exactly on the identifier asked for.
* `length_rest_outputKeyword_le`: no token comes back.
-/

namespace PageTemplate

/-- A directive was to be read where another text stands. -/
structure UnexpectedDirective where
  /-- The keyword of the directive. -/
  expected : Text
  /-- The token that stands there, empty at the end of the document. -/
  found : Text
  /-- Where it stands. -/
  location : Location
  deriving DecidableEq, Repr, Inhabited

/-- The sentence that describes the error. -/
def UnexpectedDirective.message (e : UnexpectedDirective) : String :=
  s!"Expected directive '{String.ofList e.expected}' at {e.location.display}, found "
    ++ s!"'{String.ofList e.found}'"

namespace Slicer

/-- Succeeds at the identifier `keyword` only. -/
def checkKeyword (keyword : Text) (s : Slicer) : Except UnexpectedDirective Unit :=
  if s.cursor.isAtKeyword keyword then .ok ()
  else .error ⟨keyword, (s.cursor.current?.map Token.content).getD [], s.location⟩

/-- The accepted keyword made a span, together with one character of white space
from the cursor, and the rest of the spacing accepted after it. -/
def outputKeyword (s : Slicer) : Slicer :=
  let spaced := s.claimBlock.acceptOneSpace
  let marked :=
    if spaced.2.draft.tokens.length > 1 then spaced.2.setEdits .none else spaced.2
  ((marked.output .metaCode).accept spaced.1.toList).acceptSpacing

theorem checkKeyword_eq_ok_iff (keyword : Text) (s : Slicer) :
    s.checkKeyword keyword = .ok () ↔ s.cursor.isAtKeyword keyword = true := by
  unfold checkKeyword
  split <;> simp_all

theorem length_rest_outputKeyword_le (s : Slicer) :
    s.outputKeyword.cursor.rest.length ≤ s.cursor.rest.length := by
  have h := length_rest_acceptOneSpace_le s.claimBlock
  simp only [cursor_claimBlock] at h
  simp only [outputKeyword, acceptSpacing, acceptWhile, rest_acceptNext, cursor_accept,
    cursor_output, List.length_drop]
  split
  · simp only [cursor_setEdits]
    omega
  · omega

end Slicer

end PageTemplate
