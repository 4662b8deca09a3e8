import PageTemplate.Proofs.TypeName.Locality
import PageTemplate.Slicer.Argument

/-!
# Type names by recursion

A type name has type names for its arguments, so it can be read by a procedure that calls
itself for each of them.  The walk with a number of open lists reads the same tokens.

**Input.**  A list of tokens.

**Algorithm.**  At an identifier, the name is passed with what is joined to it by dots.  After a
`<`, arguments are read one by one, each by the same procedure, as long as there is one and a
comma follows; then a `>` is passed if it is there.  In the end an optional `?` and any number of
`[]` are passed.

**Results.**
* `afterType?_of_lessThan`, `afterType?_of_name`, `afterArguments_of_comma`,
  `afterArguments_of_last`: the recursive procedure case by case.
* `exists_walk_type`, `exists_walk_arguments`: the walk passes what the procedure passes, inside
  any number of open lists.
* `acceptTypeName_eq_recursion`: the type name at a cursor is what the procedure takes.
-/

namespace PageTemplate
namespace TypeName

/-! ## Parts of a list of tokens -/

/-- Whether the first of the tokens is of the given kind. -/
def startsWith (kind : TokenKind) (ts : List Token) : Bool :=
  ts.head?.any (·.kind = kind)

/-- The tokens after the first one, if that is of the given kind. -/
def past (kind : TokenKind) (ts : List Token) : List Token :=
  if startsWith kind ts then ts.tail else ts

/-- The tokens after all pairs of neighbours of the kinds `a` and `b`. -/
def pastPairs (a b : TokenKind) : List Token → List Token
  | s :: t :: ts => if s.kind = a ∧ t.kind = b then pastPairs a b ts else s :: t :: ts
  | ts => ts

/-- The tokens after white space and comments. -/
def pastSpacing (ts : List Token) : List Token :=
  ts.dropWhile (Token.isSpacing false true)

/-- The tokens after an optional `?` and any number of `[]`. -/
def pastSuffix (ts : List Token) : List Token :=
  pastPairs .leftBracket .rightBracket (past .questionMark ts)

/-- The tokens after an identifier and the further ones joined to it by dots. -/
def pastName (ts : List Token) : List Token :=
  pastPairs .dot .identifier ts.tail

theorem length_past_le (kind : TokenKind) (ts : List Token) :
    (past kind ts).length ≤ ts.length := by
  unfold past
  split
  · simp
  · exact Nat.le_refl _

theorem length_pastPairs_le (a b : TokenKind) :
    ∀ ts : List Token, (pastPairs a b ts).length ≤ ts.length
  | [] => Nat.le_refl 0
  | [_] => Nat.le_refl 1
  | s :: t :: ts => by
      have ih := length_pastPairs_le a b ts
      simp only [pastPairs]
      split
      · simp only [List.length_cons]
        omega
      · exact Nat.le_refl _

theorem length_pastSpacing_le (ts : List Token) :
    (pastSpacing ts).length ≤ ts.length :=
  (List.dropWhile_sublist _).length_le

theorem length_pastSuffix_le (ts : List Token) :
    (pastSuffix ts).length ≤ ts.length :=
  Nat.le_trans (length_pastPairs_le _ _ _) (length_past_le _ ts)

theorem length_tail_lt {kind : TokenKind} {ts : List Token} (h : startsWith kind ts = true) :
    ts.tail.length < ts.length := by
  cases ts with
  | nil =>
      cases h
  | cons t ts =>
      simp

/-- A name that is there is passed, so the procedure may call itself behind it. -/
theorem length_pastName_lt {ts : List Token} (h : startsWith .identifier ts = true) :
    (pastName ts).length < ts.length :=
  Nat.lt_of_le_of_lt (length_pastPairs_le _ _ _) (length_tail_lt h)

/-! ## The recursive procedure -/

mutual

/-- What is left after the type name that a list starts with, if it starts with one. -/
def typeRest? (ts : List Token) : Option { rest : List Token // rest.length < ts.length } :=
  if hname : startsWith .identifier ts = true then
    have shorter := length_pastName_lt hname
    if startsWith .lessThan (pastName ts) then
      have inside : (pastSpacing (pastName ts).tail).length < ts.length := by
        have := length_pastSpacing_le (pastName ts).tail
        simp only [List.length_tail] at this
        omega
      let ⟨rest, within⟩ := argumentsRest (pastSpacing (pastName ts).tail)
      some ⟨pastSuffix (past .greaterThan rest), by
        have := length_pastSuffix_le (past .greaterThan rest)
        have := length_past_le .greaterThan rest
        omega⟩
    else
      some ⟨pastSuffix (pastName ts), Nat.lt_of_le_of_lt (length_pastSuffix_le _) shorter⟩
  else none
termination_by 2 * ts.length

/-- What is left after the arguments that a list starts with. -/
def argumentsRest (ts : List Token) : { rest : List Token // rest.length ≤ ts.length } :=
  match typeRest? ts with
  | none => ⟨ts, Nat.le_refl _⟩
  | some ⟨rest, shorter⟩ =>
      have gap := length_pastSpacing_le rest
      if startsWith .comma (pastSpacing rest) then
        have next : (pastSpacing (pastSpacing rest).tail).length < ts.length := by
          have := length_pastSpacing_le (pastSpacing rest).tail
          simp only [List.length_tail] at this
          omega
        let ⟨after, within⟩ := argumentsRest (pastSpacing (pastSpacing rest).tail)
        ⟨after, by omega⟩
      else ⟨pastSpacing rest, by omega⟩
termination_by 2 * ts.length + 1

end

/-- The tokens after the type name that a list starts with, if it starts with one. -/
def afterType? (ts : List Token) : Option (List Token) :=
  (typeRest? ts).map Subtype.val

/-- The tokens after the arguments that a list starts with. -/
def afterArguments (ts : List Token) : List Token :=
  (argumentsRest ts).val

/-- The tokens after the type name that a list starts with, or all of them. -/
def afterType (ts : List Token) : List Token :=
  (afterType? ts).getD ts

theorem length_of_afterType? {ts rest : List Token} (h : afterType? ts = some rest) :
    rest.length < ts.length := by
  obtain ⟨⟨after, shorter⟩, -, rfl⟩ := Option.map_eq_some_iff.mp h
  exact shorter

/-- A name with a `<` is passed with its arguments, its `>` if it is there, and its suffix. -/
theorem afterType?_of_lessThan {ts : List Token} (hname : startsWith .identifier ts = true)
    (hless : startsWith .lessThan (pastName ts) = true) :
    afterType? ts = some (pastSuffix (past .greaterThan
      (afterArguments (pastSpacing (pastName ts).tail)))) := by
  rw [afterType?, typeRest?, dif_pos hname, if_pos hless]
  rfl

/-- A name without a `<` is passed with its suffix. -/
theorem afterType?_of_name {ts : List Token} (hname : startsWith .identifier ts = true)
    (hless : startsWith .lessThan (pastName ts) = false) :
    afterType? ts = some (pastSuffix (pastName ts)) := by
  rw [afterType?, typeRest?, dif_pos hname, if_neg (by simp [hless])]
  rfl

/-- The procedure fails exactly where no identifier stands. -/
theorem afterType?_eq_none_iff (ts : List Token) :
    afterType? ts = none ↔ startsWith .identifier ts = false := by
  constructor
  · intro hnone
    cases hname : startsWith .identifier ts with
    | false =>
        rfl
    | true =>
        cases hless : startsWith .lessThan (pastName ts) with
        | true =>
            rw [afterType?_of_lessThan hname hless] at hnone
            cases hnone
        | false =>
            rw [afterType?_of_name hname hless] at hnone
            cases hnone
  · intro hname
    rw [afterType?, typeRest?, dif_neg (by simp [hname])]
    rfl

/-- Where no type name stands there are no arguments. -/
theorem afterArguments_of_none {ts : List Token} (h : afterType? ts = none) :
    afterArguments ts = ts := by
  have hnone : typeRest? ts = none := Option.map_eq_none_iff.mp h
  rw [afterArguments, argumentsRest, hnone]

/-- An argument and a comma are followed by the other arguments. -/
theorem afterArguments_of_comma {ts rest : List Token} (h : afterType? ts = some rest)
    (hcomma : startsWith .comma (pastSpacing rest) = true) :
    afterArguments ts = afterArguments (pastSpacing (pastSpacing rest).tail) := by
  obtain ⟨⟨after, shorter⟩, hsome, rfl⟩ := Option.map_eq_some_iff.mp h
  rw [afterArguments, argumentsRest, hsome]
  simp only [hcomma, if_true]
  rfl

/-- An argument without a comma is the last one; the spacing after it is passed. -/
theorem afterArguments_of_last {ts rest : List Token} (h : afterType? ts = some rest)
    (hcomma : startsWith .comma (pastSpacing rest) = false) :
    afterArguments ts = pastSpacing rest := by
  obtain ⟨⟨after, shorter⟩, hsome, rfl⟩ := Option.map_eq_some_iff.mp h
  rw [afterArguments, argumentsRest, hsome]
  simp [hcomma]

/-! ## The walk and the procedure -/

open Cursor

/-- A run of pairs counted and dropped is the run passed. -/
theorem drop_pairRun (a b : TokenKind) :
    ∀ ts : List Token, ts.drop (pairRun a b ts 0) = pastPairs a b ts
  | [] => rfl
  | [_] => rfl
  | s :: t :: ts => by
      have ih := drop_pairRun a b ts
      have hrun := pairRun_eq a b ts (0 + 2)
      simp only [pairRun, pastPairs]
      split
      · rw [hrun, Nat.zero_add, Nat.add_comm, List.drop_succ_cons, List.drop_succ_cons, ih]
      · rfl

/-- A cursor passes pairs as a list of tokens does, and so it is with the other parts. -/
theorem rest_movePairs (a b : TokenKind) (c : Cursor) :
    (c.movePairs a b).rest = pastPairs a b c.rest :=
  drop_pairRun a b c.rest

theorem rest_moveOver (kind : TokenKind) (c : Cursor) :
    (c.moveOver kind).rest = past kind c.rest := by
  have hat : c.isAt kind = startsWith kind c.rest := rfl
  rw [moveOver, past, hat]
  split
  · exact List.drop_one
  · rfl

theorem rest_skipSpacing (c : Cursor) :
    (skipSpacing c).rest = pastSpacing c.rest :=
  rest_moveWhile _ c

theorem rest_skipSuffix (c : Cursor) :
    (skipSuffix c).rest = pastSuffix c.rest := by
  rw [skipSuffix, rest_movePairs, rest_moveOver, pastSuffix]

/-- A mark is passed together with the spacing after it. -/
theorem rest_skipSpacing_move (c : Cursor) :
    (skipSpacing (c.move 1)).rest = pastSpacing c.rest.tail := by
  rw [rest_skipSpacing, rest_move, List.drop_one]

/-- At an identifier a cursor passes a name, as the procedure does. -/
theorem exists_qualifiedName? {c : Cursor} (h : startsWith .identifier c.rest = true) :
    ∃ d, qualifiedName? c = some d ∧ d.rest = pastName c.rest := by
  refine ⟨_, if_pos h, ?_⟩
  rw [rest_movePairs, rest_move, List.drop_one, pastName]

theorem qualifiedName?_eq_none {c : Cursor} (h : startsWith .identifier c.rest = false) :
    qualifiedName? c = none := by
  have hat : c.isAt .identifier = false := h
  simp [qualifiedName?, hat]

theorem startsWith_of_afterType? {ts rest : List Token} (h : afterType? ts = some rest) :
    startsWith .identifier ts = true := by
  rw [← Bool.not_eq_false, ← afterType?_eq_none_iff, h]
  simp

mutual

/-- Where the procedure finds a type name, the walk passes it, and a name was read. -/
theorem exists_walk_type {c : Cursor} {rest : List Token} (h : afterType? c.rest = some rest)
    (depth : Nat) :
    ∃ d, d.rest = rest ∧ walk depth .argument c = walk depth (.afterArgument true) d := by
  have hstart := startsWith_of_afterType? h
  obtain ⟨d, hname, hd⟩ := exists_qualifiedName? hstart
  have hat : d.isAt .lessThan = startsWith .lessThan (pastName c.rest) := by
    rw [← hd]
    rfl
  cases hless : startsWith .lessThan (pastName c.rest) with
  | true =>
      rw [afterType?_of_lessThan hstart hless, Option.some.injEq] at h
      have hinner : (skipSpacing (d.move 1)).rest = pastSpacing (pastName c.rest).tail := by
        rw [rest_skipSpacing_move, hd]
      obtain ⟨e, he, hwalk⟩ := exists_walk_arguments (skipSpacing (d.move 1)) depth
      refine ⟨e, ?_, ?_⟩
      · rw [he, hinner, h]
      · rw [walk_argument_of_lessThan hname (hat.trans hless), hwalk]
  | false =>
      rw [afterType?_of_name hstart hless, Option.some.injEq] at h
      refine ⟨skipSuffix d, ?_, walk_argument_of_name hname (hat.trans hless) depth⟩
      rw [rest_skipSuffix, hd, h]
termination_by 2 * c.rest.length
decreasing_by
  have hshorter := length_pastName_lt hstart
  have hle := length_pastSpacing_le (pastName c.rest).tail
  simp only [List.length_tail] at hle
  rw [hinner]
  omega

/-- From inside a list the walk passes the arguments that the procedure passes, and then closes
the list. -/
theorem exists_walk_arguments (c : Cursor) (depth : Nat) :
    ∃ d, d.rest = pastSuffix (past .greaterThan (afterArguments c.rest)) ∧
      walk (depth + 1) .argument c = walk depth (.afterArgument true) d := by
  cases hrest : afterType? c.rest with
  | none =>
      have hname : qualifiedName? c = none :=
        qualifiedName?_eq_none ((afterType?_eq_none_iff c.rest).mp hrest)
      refine ⟨skipSuffix ((skipGap false c).moveOver .greaterThan), ?_, ?_⟩
      · rw [rest_skipSuffix, rest_moveOver, afterArguments_of_none hrest]
        rfl
      · rw [walk_argument_of_none hname, walk_of_close (Or.inl rfl)]
  | some rest =>
      obtain ⟨d, hd, hwalk⟩ := exists_walk_type hrest (depth + 1)
      have hgap : (skipSpacing d).rest = pastSpacing rest := by
        rw [rest_skipSpacing, hd]
      have hat : (skipSpacing d).isAt .comma = startsWith .comma (pastSpacing rest) := by
        rw [← hgap]
        rfl
      cases hcomma : startsWith .comma (pastSpacing rest) with
      | true =>
          have hnext : (skipSpacing ((skipSpacing d).move 1)).rest =
              pastSpacing (pastSpacing rest).tail := by
            rw [rest_skipSpacing_move, hgap]
          obtain ⟨e, he, hmore⟩ :=
            exists_walk_arguments (skipSpacing ((skipSpacing d).move 1)) depth
          refine ⟨e, ?_, ?_⟩
          · rw [he, hnext, afterArguments_of_comma hrest hcomma]
          · rw [hwalk, walk_of_comma (hat.trans hcomma), hmore]
      | false =>
          refine ⟨skipSuffix ((skipGap true d).moveOver .greaterThan), ?_, ?_⟩
          · rw [rest_skipSuffix, rest_moveOver, afterArguments_of_last hrest hcomma]
            exact congrArg (pastSuffix <| past .greaterThan ·) hgap
          · rw [hwalk, walk_of_close (Or.inr (hat.trans hcomma))]
termination_by 2 * c.rest.length + 1
decreasing_by
  · omega
  · have hshorter := length_of_afterType? hrest
    have hle := length_pastSpacing_le (pastSpacing rest).tail
    have hgapLe := length_pastSpacing_le rest
    simp only [List.length_tail] at hle
    rw [hnext]
    omega

end

/-- At the end of a type name is left what the procedure leaves. -/
theorem rest_pass (c : Cursor) :
    (pass c).rest = afterType c.rest := by
  have hat : c.isAt .identifier = startsWith .identifier c.rest := rfl
  rw [pass, hat, afterType]
  cases hrest : afterType? c.rest with
  | none =>
      rw [if_neg (by simp [(afterType?_eq_none_iff c.rest).mp hrest])]
      rfl
  | some rest =>
      obtain ⟨d, hd, hwalk⟩ := exists_walk_type hrest 0
      rw [if_pos (startsWith_of_afterType? hrest), hwalk, walk_outermost, hd]
      rfl

/-- The type name of the walk leaves what the procedure leaves. -/
theorem drop_length_eq_afterType (ts : List Token) :
    ts.drop (length ts) = afterType ts := by
  rw [← rest_pass_ofTokens, rest_pass, rest_ofTokens]

end TypeName

namespace Slicer

open Token (textOf)
open PageTemplate.TypeName (afterType)

/-- What stands before the tokens that a type name leaves is moved into the draft. -/
theorem acceptTypeName_of_append {s : Slicer} {taken : List Token}
    (h : s.cursor.rest = taken ++ afterType s.cursor.rest) :
    s.acceptTypeName =
        (textOf taken,
          { s with
            cursor := s.cursor.move taken.length
            draft := s.draft.accept taken }) ∧
      s.acceptTypeName.2.cursor.rest = afterType s.cursor.rest := by
  have hdrop := TypeName.drop_length_eq_afterType s.cursor.rest
  have hlength : TypeName.length s.cursor.rest = taken.length :=
    TypeName.length_of_eq_append (by rw [hdrop, ← h])
  have htake : s.cursor.rest.take taken.length = taken := by
    rw [h, List.take_left]
  constructor
  · simp only [acceptTypeName, acceptNext, hlength, htake]
  · rw [acceptTypeName, rest_acceptNext, hdrop]

/-- The type name at a cursor is what the procedure takes: its text is given back, and its tokens
are moved from the cursor into the draft. -/
theorem acceptTypeName_eq_recursion (s : Slicer) :
    ∃ taken, s.cursor.rest = taken ++ afterType s.cursor.rest ∧
      s.acceptTypeName =
        (textOf taken,
          { s with
            cursor := s.cursor.move taken.length
            draft := s.draft.accept taken }) ∧
      s.acceptTypeName.2.cursor.rest = afterType s.cursor.rest := by
  have hsplit : s.cursor.rest =
      s.cursor.rest.take (TypeName.length s.cursor.rest) ++ afterType s.cursor.rest := by
    rw [← TypeName.drop_length_eq_afterType, List.take_append_drop]
  exact ⟨_, hsplit, acceptTypeName_of_append hsplit⟩

end Slicer
end PageTemplate
