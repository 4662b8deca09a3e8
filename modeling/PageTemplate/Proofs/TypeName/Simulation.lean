import PageTemplate.TypeName

/-!
# What a reader of type names does not see

A change of cursors is *unseen* when the steps of the walk come out the same before and after
it: the cursor is at tokens of the same kinds, and every move leads from changed cursors to
changed cursors.  Then the whole walk does.

**Results.**
* `walk_of_unseen`: the walk of a changed cursor is the changed walk.
* `unseen_map`, `length_map`, `length_of_map_kind_eq`: of the tokens only their kinds are seen.
-/

namespace PageTemplate

/-- Whether a token of the kind may belong to a type name. -/
def TokenKind.inTypeName : TokenKind → Bool
  | .identifier | .dot | .comma | .lessThan | .greaterThan | .questionMark | .leftBracket
  | .rightBracket | .whiteSpace | .comment => true
  | .newLine | .stringLiteral | .transition | .other => false

namespace Cursor

/-- Whether a change of cursors is not seen by a reader of type names, which asks only for
tokens of type names and passes no other. -/
structure Unseen (g : Cursor → Cursor) : Prop where
  isAt :
    ∀ {kind : TokenKind}, kind.inTypeName = true → ∀ c, (g c).isAt kind = c.isAt kind
  moveNext :
    ∀ {kind : TokenKind} {c : Cursor}, c.isAt kind = true → (g c).move 1 = g (c.move 1)
  moveSpacing :
    ∀ c, (g c).moveWhile (Token.isSpacing false true) =
      g (c.moveWhile (Token.isSpacing false true))
  movePairs :
    ∀ {a b : TokenKind}, a.inTypeName = true → b.inTypeName = true →
      ∀ c, (g c).movePairs a b = g (c.movePairs a b)

/-- An optional token of type names is passed alike before and after the change. -/
theorem Unseen.moveOver
    {g : Cursor → Cursor} (hg : Unseen g)
    {kind : TokenKind} (hkind : kind.inTypeName = true) (c : Cursor) :
    (g c).moveOver kind = g (c.moveOver kind) := by
  unfold Cursor.moveOver
  rw [hg.isAt hkind]
  split
  · next hat => exact hg.moveNext hat
  · rfl

end Cursor

namespace TypeName

open Cursor

section Unseen

variable {g : Cursor → Cursor} (hg : Unseen g)
include hg

theorem skipSuffix_of_unseen (c : Cursor) :
    skipSuffix (g c) = g (skipSuffix c) := by
  unfold skipSuffix
  rw [hg.moveOver (by decide), hg.movePairs (by decide) (by decide)]

theorem skipSpacing_of_unseen (c : Cursor) :
    skipSpacing (g c) = g (skipSpacing c) :=
  hg.moveSpacing c

theorem skipGap_of_unseen (named : Bool) (c : Cursor) :
    skipGap named (g c) = g (skipGap named c) := by
  cases named with
  | false =>
      rfl
  | true =>
      exact hg.moveSpacing c

/-- There is a name after the change if there is one before it, and it ends at the changed cursor.
-/
theorem qualifiedName?_of_unseen (c : Cursor) :
    qualifiedName? (g c) = (qualifiedName? c).map g := by
  unfold qualifiedName?
  rw [hg.isAt (by decide)]
  split
  · next hat =>
      rw [hg.moveNext hat, hg.movePairs (by decide) (by decide)]
      rfl
  · rfl

omit hg in
/-- The list is closed unless a name and a comma are there; the walk reads the comma behind a gap
that is empty without a name. -/
theorem close_of_not_comma
    {named : Bool} {c : Cursor}
    (h : ¬ (named = true ∧ (skipGap named c).isAt .comma = true)) :
    named = false ∨ (skipSpacing c).isAt .comma = false := by
  cases named with
  | false =>
      exact Or.inl rfl
  | true =>
      exact Or.inr (by simpa [skipGap] using h)

/-- The walk of a changed cursor is the changed walk. -/
theorem walk_of_unseen
    (depth : Nat) (stage : Stage) (c : Cursor) :
    walk depth stage (g c) = g (walk depth stage c) := by
  induction depth, stage, c using walk.induct with
  | case1 depth c hname ih =>
      have hchanged := qualifiedName?_of_unseen hg c
      rw [hname] at hchanged
      rw [walk_argument_of_none hname, walk_argument_of_none hchanged, ih]
  | case2 depth c d hname hless ih =>
      have hchanged := qualifiedName?_of_unseen hg c
      rw [hname] at hchanged
      have hless' := (hg.isAt (by decide) d).trans hless
      rw [walk_argument_of_lessThan hname hless, walk_argument_of_lessThan hchanged hless',
        hg.moveNext hless, skipSpacing_of_unseen hg, ih]
  | case3 depth c d hname hless ih =>
      have hchanged := qualifiedName?_of_unseen hg c
      rw [hname] at hchanged
      have hless : d.isAt .lessThan = false := by simpa using hless
      have hless' := (hg.isAt (by decide) d).trans hless
      rw [walk_argument_of_name hname hless, walk_argument_of_name hchanged hless',
        skipSuffix_of_unseen hg, ih]
  | case4 c named =>
      rw [walk_outermost, walk_outermost]
  | case5 c named outer hcomma ih =>
      obtain ⟨rfl, hcomma⟩ := hcomma
      have hcomma : (skipSpacing c).isAt .comma = true := hcomma
      have hchanged := skipSpacing_of_unseen hg c
      have hcomma' : (skipSpacing (g c)).isAt .comma = true := by
        rw [hchanged]
        exact (hg.isAt (by decide) _).trans hcomma
      rw [walk_of_comma hcomma, walk_of_comma hcomma', hchanged, hg.moveNext hcomma,
        skipSpacing_of_unseen hg]
      exact ih
  | case6 c named outer hcomma ih =>
      have hclose := close_of_not_comma hcomma
      have hclose' : named = false ∨ (skipSpacing (g c)).isAt .comma = false := by
        rwa [skipSpacing_of_unseen hg, hg.isAt (by decide)]
      rw [walk_of_close hclose, walk_of_close hclose', skipGap_of_unseen hg,
        hg.moveOver (by decide), skipSuffix_of_unseen hg, ih]

/-- A type name ends at the changed cursor. -/
theorem pass_of_unseen (c : Cursor) :
    pass (g c) = g (pass c) := by
  unfold pass
  rw [hg.isAt (by decide)]
  split
  · exact walk_of_unseen hg 0 .argument c
  · rfl

end Unseen

end TypeName

/-! ## Other tokens of the same kinds -/

namespace Cursor

variable {f : Token → Token}

/-- The cursor with every token changed. -/
def map (f : Token → Token) (c : Cursor) : Cursor :=
  ⟨c.passed.map f, c.rest.map f⟩

theorem move_map (n : Nat) (c : Cursor) :
    (c.map f).move n = (c.move n).map f := by
  simp [map, move, List.map_take, List.map_drop]

variable (hf : ∀ t, (f t).kind = t.kind)
include hf

/-- Runs of pairs are as long in tokens of the same kinds. -/
theorem pairRun_map (a b : TokenKind) :
    ∀ (ts : List Token) (n : Nat), pairRun a b (ts.map f) n = pairRun a b ts n
  | [], n => rfl
  | [_], n => rfl
  | s :: t :: rest, n => by
      have ih := pairRun_map a b rest (n + 2)
      rw [List.map_cons, List.map_cons]
      simp only [pairRun, hf, ih]

theorem isSpacing_map (newLines comments : Bool) (t : Token) :
    Token.isSpacing newLines comments (f t) = Token.isSpacing newLines comments t := by
  unfold Token.isSpacing
  rw [hf]

/-- A reader of type names sees the kinds of the tokens only. -/
theorem unseen_map :
    Unseen (map f) where
  isAt hkind c := by
    obtain ⟨passed, rest⟩ := c
    cases rest with
    | nil =>
        rfl
    | cons t rest =>
        simp [map, Cursor.isAt, current?, hf]
  moveNext hat := move_map 1 _
  moveSpacing c := by
    have hcount : (c.rest.map f).takeWhile (Token.isSpacing false true) =
        (c.rest.takeWhile (Token.isSpacing false true)).map f := by
      rw [List.takeWhile_map]
      congr 2
      exact funext (isSpacing_map hf false true)
    rw [moveWhile, moveWhile, ← move_map, map, hcount, List.length_map]
  movePairs ha hb c := by
    rw [Cursor.movePairs, Cursor.movePairs, ← move_map, map, pairRun_map hf]

end Cursor

/-- A token of which nothing but the kind is known. -/
def Token.ofKind (kind : TokenKind) : Token :=
  ⟨kind, [], Location.start⟩

namespace TypeName

/-- The length of a type name depends on the kinds of the tokens only. -/
theorem length_map
    {f : Token → Token} (hf : ∀ t, (f t).kind = t.kind) (ts : List Token) :
    length (ts.map f) = length ts := by
  have hpass := pass_of_unseen (Cursor.unseen_map hf) (Cursor.ofTokens ts)
  calc
    length (ts.map f)
        = (pass ((Cursor.ofTokens ts).map f)).position := rfl
    _ = ((pass (Cursor.ofTokens ts)).map f).position := by rw [hpass]
    _ = length ts := List.length_map f

/-- Type names with tokens of the same kinds are equally long. -/
theorem length_of_map_kind_eq
    {ts us : List Token} (h : ts.map Token.kind = us.map Token.kind) :
    length ts = length us := by
  have hlength (ws : List Token) :
      length ((ws.map Token.kind).map Token.ofKind) = length ws := by
    have hkind (t : Token) : (Token.ofKind t.kind).kind = t.kind := rfl
    rw [List.map_map]
    exact length_map hkind ws
  rw [← hlength ts, ← hlength us, h]

end TypeName
end PageTemplate
