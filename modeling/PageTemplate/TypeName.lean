import PageTemplate.Cursor

/-!
# Type names

**Input.**  A list of tokens that may start with a type name: identifiers joined
by dots, an optional list of arguments in angle brackets, an optional `?`, and
any number of `[]`.

**Algorithm.**  The arguments are type names themselves, nested without bound, so
the walk keeps the number of open argument lists instead of calling itself.  It is
either about to read an argument or about to close a list.  A list without `>` is
closed at the first token that cannot continue it.

**Results.**
* `walk_argument_of_none`, `walk_argument_of_lessThan`, `walk_argument_of_name`,
  `walk_outermost`, `walk_of_comma`, `walk_of_close`: the steps of the walk.
* `length_of_not_identifier`: nothing is taken where no identifier stands.
-/

namespace PageTemplate
namespace TypeName

/-- The cursor after white space and comments, but not over a line end. -/
def skipSpacing (c : Cursor) : Cursor :=
  c.moveWhile (Token.isSpacing false true)

/-- The cursor after an identifier and the further ones joined to it by dots. -/
def qualifiedName? (c : Cursor) : Option Cursor :=
  if c.isAt .identifier then some ((c.move 1).movePairs .dot .identifier) else none

/-- The cursor after an optional `?` and any number of `[]`. -/
def skipSuffix (c : Cursor) : Cursor :=
  (c.moveOver .questionMark).movePairs .leftBracket .rightBracket

/-- What the walk is about to read. -/
inductive Stage
  /-- A type name, or an argument of the innermost open list. -/
  | argument
  /-- What follows an argument; the flag says whether there was a name. -/
  | afterArgument (named : Bool)
  deriving DecidableEq, Repr

/-- Order of the stages that read nothing between them. -/
def Stage.rank : Stage → Nat
  | .argument => 1
  | .afterArgument _ => 0

/-- The cursor where the next mark of an argument list is looked for: spacing is
passed only after a name. -/
def skipGap (named : Bool) (c : Cursor) : Cursor :=
  if named then skipSpacing c else c

theorem length_rest_skipSpacing_le (c : Cursor) :
    (skipSpacing c).rest.length ≤ c.rest.length := by
  simp [skipSpacing, Cursor.moveWhile]

theorem length_rest_skipGap_le (named : Bool) (c : Cursor) :
    (skipGap named c).rest.length ≤ c.rest.length := by
  unfold skipGap
  split
  · exact length_rest_skipSpacing_le c
  · exact Nat.le_refl _

theorem length_rest_skipSuffix_le (c : Cursor) :
    (skipSuffix c).rest.length ≤ c.rest.length := by
  have := Cursor.length_rest_moveOver_le .questionMark c
  simp only [skipSuffix, Cursor.movePairs, Cursor.rest_move, List.length_drop]
  omega

/-- A name takes at least the identifier it starts with. -/
theorem length_rest_qualifiedName_lt {c d : Cursor} (h : qualifiedName? c = some d) :
    d.rest.length < c.rest.length := by
  unfold qualifiedName? at h
  split at h
  · next hat =>
      have := Cursor.length_rest_move_lt hat
      cases h
      simp only [Cursor.movePairs, Cursor.rest_move, List.length_drop] at this ⊢
      omega
  · cases h

/-- The cursor at the end of the type name, from inside `depth` open argument
lists. -/
def walk (depth : Nat) (stage : Stage) (c : Cursor) : Cursor :=
  match stage with
  | .argument =>
      match _h : qualifiedName? c with
      | none => walk depth (.afterArgument false) c
      | some d =>
          if d.isAt .lessThan then walk (depth + 1) .argument (skipSpacing (d.move 1))
          else walk depth (.afterArgument true) (skipSuffix d)
  | .afterArgument named =>
      match depth with
      | 0 => c
      | outer + 1 =>
          if _h : named = true ∧ (skipGap named c).isAt .comma = true then
            walk (outer + 1) .argument (skipSpacing ((skipGap named c).move 1))
          else
            walk outer (.afterArgument true)
              (skipSuffix ((skipGap named c).moveOver .greaterThan))
termination_by 2 * c.rest.length + depth + stage.rank
decreasing_by
  · simp [Stage.rank]
  · have h1 := length_rest_qualifiedName_lt _h
    have h2 := length_rest_skipSpacing_le (d.move 1)
    simp only [Cursor.rest_move, List.length_drop] at h2
    simp only [Stage.rank]
    omega
  · have h1 := length_rest_qualifiedName_lt _h
    have h2 := length_rest_skipSuffix_le d
    simp only [Stage.rank]
    omega
  · have h1 := length_rest_skipGap_le named c
    have h2 := Cursor.length_rest_move_lt _h.2
    have h3 := length_rest_skipSpacing_le ((skipGap named c).move 1)
    simp only [Stage.rank]
    omega
  · have h1 := length_rest_skipGap_le named c
    have h2 := Cursor.length_rest_moveOver_le .greaterThan (skipGap named c)
    have h3 := length_rest_skipSuffix_le ((skipGap named c).moveOver .greaterThan)
    simp only [Stage.rank]
    omega

/-- Where no name stands, the walk goes on as after an argument that is left out. -/
theorem walk_argument_of_none {c : Cursor} (h : qualifiedName? c = none) (depth : Nat) :
    walk depth .argument c = walk depth (.afterArgument false) c := by
  rw [walk.eq_def]
  simp only
  split
  · rfl
  · next heq => rw [h] at heq; cases heq

/-- A name with a `<` opens a list, and its arguments are read before the name is complete. -/
theorem walk_argument_of_lessThan {c d : Cursor} (h : qualifiedName? c = some d)
    (hd : d.isAt .lessThan = true) (depth : Nat) :
    walk depth .argument c = walk (depth + 1) .argument (skipSpacing (d.move 1)) := by
  rw [walk.eq_def]
  simp only
  split
  · next heq => rw [h] at heq; cases heq
  · next heq =>
      rw [h] at heq
      cases heq
      rw [if_pos hd]

/-- A name without a `<` is complete with its suffix. -/
theorem walk_argument_of_name {c d : Cursor} (h : qualifiedName? c = some d)
    (hd : d.isAt .lessThan = false) (depth : Nat) :
    walk depth .argument c = walk depth (.afterArgument true) (skipSuffix d) := by
  rw [walk.eq_def]
  simp only
  split
  · next heq => rw [h] at heq; cases heq
  · next heq =>
      rw [h] at heq
      cases heq
      rw [if_neg (by simp [hd])]

/-- Outside of all lists the walk is at its end. -/
theorem walk_outermost (named : Bool) (c : Cursor) : walk 0 (.afterArgument named) c = c := by
  rw [walk.eq_def]

/-- After an argument, a comma leads to the next one of the same list. -/
theorem walk_of_comma {c : Cursor} (h : (skipSpacing c).isAt .comma = true) (outer : Nat) :
    walk (outer + 1) (.afterArgument true) c =
      walk (outer + 1) .argument (skipSpacing ((skipSpacing c).move 1)) := by
  rw [walk.eq_def]
  exact dif_pos ⟨rfl, h⟩

/-- Without a comma the innermost list is closed, whether or not its `>` is there. -/
theorem walk_of_close {named : Bool} {c : Cursor}
    (h : named = false ∨ (skipSpacing c).isAt .comma = false) (outer : Nat) :
    walk (outer + 1) (.afterArgument named) c =
      walk outer (.afterArgument true) (skipSuffix ((skipGap named c).moveOver .greaterThan)) := by
  rw [walk.eq_def]
  refine dif_neg ?_
  rintro ⟨rfl, hcomma⟩
  simp [skipGap] at hcomma
  simp [hcomma] at h

/-- The cursor after the type name it is at, if it is at one. -/
def pass (c : Cursor) : Cursor :=
  if c.isAt .identifier then walk 0 .argument c else c

/-- Number of tokens of the type name at the start of a list. -/
def length (ts : List Token) : Nat :=
  (pass (Cursor.ofTokens ts)).position

theorem length_of_not_identifier {ts : List Token}
    (h : (Cursor.ofTokens ts).isAt .identifier = false) : length ts = 0 := by
  simp [length, pass, h]

end TypeName
end PageTemplate
