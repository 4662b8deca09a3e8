import PageTemplate.Proofs.TypeName.Simulation
import PageTemplate.Proofs.Token.Line

/-!
# A type name stays on its line

A type name is read without regard to what stands after the end of its line.  A cursor is
*extended* by further tokens at the end of those it has left; if these start with a line
end, or with any other token that no type name has, every step of the walk does the same with
and without them.

**Results.**
* `unseen_extend`: a reader of type names sees nothing behind a token that no type name has.
* `length_append`: what follows such a token does not change the length of a type name.
* `reaches_walk`: a walk only ever moves on.
* `length_pos`: where a name stands something is taken.
* `take_length_line`, `drop_length_line`: the tokens of a type name, and what is left after
  them, are those of its line.
-/

namespace PageTemplate

namespace Token

/-- Whether no type name goes on with the first of the tokens. -/
def StopsTypeName (ts : List Token) : Prop :=
  ∀ t, ts.head? = some t → t.kind.inTypeName = false

theorem StopsTypeName.kind_ne
    {t : Token} {ts : List Token} (h : StopsTypeName (t :: ts))
    {kind : TokenKind} (hkind : kind.inTypeName = true) :
    t.kind ≠ kind := by
  rintro rfl
  rw [h t rfl] at hkind
  cases hkind

/-- No type name goes on over a line end. -/
theorem StartsWithLineEnd.stopsTypeName
    {ts : List Token} (h : StartsWithLineEnd ts) :
    StopsTypeName ts := by
  intro t ht
  rw [h t ht]
  rfl

/-- Spacing that stays on its line is white space or a comment. -/
theorem kind_of_isSpacing
    {t : Token} (h : isSpacing false true t = true) :
    t.kind = .whiteSpace ∨ t.kind = .comment := by
  unfold isSpacing at h
  split at h
  · next hkind => exact Or.inl hkind
  · cases h
  · next hkind => exact Or.inr hkind
  · cases h

theorem inTypeName_of_isSpacing
    (t : Token) (h : isSpacing false true t = true) :
    t.kind.inTypeName = true := by
  rcases kind_of_isSpacing h with hkind | hkind <;> rw [hkind] <;> rfl

end Token

namespace Cursor

variable {more : List Token}

/-- The cursor with more tokens behind those it has left. -/
def extend (more : List Token) (c : Cursor) : Cursor :=
  ⟨c.passed, c.rest ++ more⟩

/-- Moves that stay within the old tokens do not depend on the new ones. -/
theorem extend_move
    {n : Nat} {c : Cursor} (h : n ≤ c.rest.length) :
    (c.extend more).move n = (c.move n).extend more := by
  simp [extend, move, List.take_append_of_le_length h, List.drop_append_of_le_length h]

/-- Whether a token of type names is at the cursor does not depend on the new tokens. -/
theorem isAt_extend
    (hmore : Token.StopsTypeName more)
    {kind : TokenKind} (hkind : kind.inTypeName = true) (c : Cursor) :
    (c.extend more).isAt kind = c.isAt kind := by
  obtain ⟨passed, rest⟩ := c
  cases rest with
  | nil =>
      cases more with
      | nil =>
          rfl
      | cons t more =>
          have ht := hmore.kind_ne hkind
          simp [extend, isAt, current?, ht]
  | cons t rest =>
      rfl

/-- A run of tokens of type names ends where the new tokens begin. -/
theorem moveWhile_extend
    (hmore : Token.StopsTypeName more)
    {p : Token → Bool} (hp : ∀ t, p t = true → t.kind.inTypeName = true) (c : Cursor) :
    (c.extend more).moveWhile p = (c.moveWhile p).extend more := by
  have hnone : more.takeWhile p = [] := by
    cases more with
    | nil =>
        rfl
    | cons t more =>
        refine List.takeWhile_cons_of_neg ?_
        intro ht
        exact hmore.kind_ne (hp t ht) rfl
  have hrun : (c.rest ++ more).takeWhile p = c.rest.takeWhile p := by
    rw [List.takeWhile_append]
    split
    · next hall =>
        rw [hnone, List.append_nil]
        exact (List.takeWhile_prefix p).eq_of_length hall |>.symm
    · rfl
  have hle := (List.takeWhile_sublist p (l := c.rest)).length_le
  have hcount : (c.extend more).moveWhile p =
      (c.extend more).move (c.rest.takeWhile p).length := by
    simp only [moveWhile, extend, hrun]
  rw [hcount, extend_move hle]
  rfl

theorem pairRun_le (a b : TokenKind) :
    ∀ ts : List Token, pairRun a b ts 0 ≤ ts.length
  | [] => Nat.le_refl 0
  | [_] => Nat.zero_le _
  | s :: t :: rest => by
      have ih := pairRun_le a b rest
      have hrun := pairRun_eq a b rest (0 + 2)
      simp only [pairRun, List.length_cons]
      split <;> omega

/-- A run of pairs ends there too, also where only the first half of a pair is left. -/
theorem pairRun_append
    (hmore : Token.StopsTypeName more)
    {a b : TokenKind} (ha : a.inTypeName = true) (hb : b.inTypeName = true) :
    ∀ ts : List Token, pairRun a b (ts ++ more) 0 = pairRun a b ts 0
  | [] => by
      rcases more with _ | ⟨s, _ | ⟨t, more⟩⟩
      · rfl
      · rfl
      · have hne := hmore.kind_ne ha
        simp [pairRun, hne]
  | [s] => by
      cases more with
      | nil =>
          rfl
      | cons t more =>
          have hne := hmore.kind_ne hb
          simp [pairRun, hne]
  | s :: t :: rest => by
      have ih := pairRun_append hmore ha hb rest
      simp only [List.cons_append, pairRun]
      rw [pairRun_eq a b (rest ++ more), pairRun_eq a b rest, ih]

theorem movePairs_extend
    (hmore : Token.StopsTypeName more)
    {a b : TokenKind} (ha : a.inTypeName = true) (hb : b.inTypeName = true) (c : Cursor) :
    (c.extend more).movePairs a b = (c.movePairs a b).extend more := by
  have hrun := pairRun_append hmore ha hb c.rest
  unfold movePairs
  rw [← extend_move (pairRun_le a b c.rest), ← hrun]
  rfl

/-- A reader of type names sees nothing behind a token that no type name has. -/
theorem unseen_extend
    (hmore : Token.StopsTypeName more) :
    Unseen (extend more) where
  isAt hkind c := isAt_extend hmore hkind c
  moveNext hat := by
    obtain ⟨t, rest, hrest, -⟩ := (isAt_iff _ _).mp hat
    exact extend_move (by simp [hrest])
  moveSpacing c := moveWhile_extend hmore Token.inTypeName_of_isSpacing c
  movePairs ha hb c := movePairs_extend hmore ha hb c

/-- Whether the second cursor is the first one or further on. -/
def Reaches (c d : Cursor) : Prop :=
  ∃ n, c.move n = d

theorem Reaches.refl (c : Cursor) :
    c.Reaches c :=
  ⟨0, move_zero c⟩

theorem Reaches.trans
    {c d e : Cursor} (hcd : c.Reaches d) (hde : d.Reaches e) :
    c.Reaches e := by
  obtain ⟨m, rfl⟩ := hcd
  obtain ⟨n, rfl⟩ := hde
  exact ⟨m + n, (move_move m n c).symm⟩

theorem reaches_move (n : Nat) (c : Cursor) :
    c.Reaches (c.move n) :=
  ⟨n, rfl⟩

theorem reaches_moveOver (kind : TokenKind) (c : Cursor) :
    c.Reaches (c.moveOver kind) := by
  unfold moveOver
  split
  · exact reaches_move 1 c
  · exact Reaches.refl c

end Cursor

namespace TypeName

open Cursor

variable {more : List Token}

/-- What starts with no token of a type name does not make the type name before it longer. -/
theorem length_append
    (hmore : Token.StopsTypeName more) (ts : List Token) :
    length (ts ++ more) = length ts := by
  have hpass := pass_of_unseen (unseen_extend hmore) (ofTokens ts)
  calc
    length (ts ++ more)
        = (pass ((ofTokens ts).extend more)).position := rfl
    _ = ((pass (ofTokens ts)).extend more).position := by rw [hpass]
    _ = length ts := rfl

/-! ## The tokens of a type name -/

/-- The suffix of a type name is passed onwards, like each part of a walk below. -/
theorem reaches_skipSuffix (c : Cursor) :
    c.Reaches (skipSuffix c) :=
  (reaches_moveOver .questionMark c).trans (reaches_move _ _)

theorem reaches_skipGap (named : Bool) (c : Cursor) :
    c.Reaches (skipGap named c) := by
  cases named with
  | false =>
      exact Reaches.refl c
  | true =>
      exact reaches_move _ c

/-- The mark at the cursor is passed with the spacing after it. -/
theorem reaches_next (c : Cursor) :
    c.Reaches (skipSpacing (c.move 1)) :=
  (reaches_move 1 c).trans (reaches_move _ _)

theorem reaches_qualifiedName?
    {c d : Cursor} (h : qualifiedName? c = some d) :
    c.Reaches d := by
  unfold qualifiedName? at h
  split at h
  · cases h
    exact (reaches_move 1 c).trans (reaches_move _ _)
  · cases h

/-- A walk only ever moves on. -/
theorem reaches_walk
    (depth : Nat) (stage : Stage) (c : Cursor) :
    c.Reaches (walk depth stage c) := by
  induction depth, stage, c using walk.induct with
  | case1 depth c hname ih =>
      rw [walk_argument_of_none hname]
      exact ih
  | case2 depth c d hname hless ih =>
      rw [walk_argument_of_lessThan hname hless]
      exact (reaches_qualifiedName? hname).trans ((reaches_next d).trans ih)
  | case3 depth c d hname hless ih =>
      rw [walk_argument_of_name hname (by simpa using hless)]
      exact (reaches_qualifiedName? hname).trans ((reaches_skipSuffix d).trans ih)
  | case4 c named =>
      rw [walk_outermost]
      exact Reaches.refl c
  | case5 c named outer hcomma ih =>
      obtain ⟨rfl, hcomma⟩ := hcomma
      rw [walk_of_comma hcomma]
      have hgap : c.Reaches (skipSpacing c) := reaches_move _ c
      exact hgap.trans ((reaches_next (skipSpacing c)).trans ih)
  | case6 c named outer hcomma ih =>
      rw [walk_of_close (close_of_not_comma hcomma)]
      have hnext : c.Reaches (skipSuffix ((skipGap named c).moveOver .greaterThan)) :=
        (reaches_skipGap named c).trans
          ((reaches_moveOver .greaterThan _).trans (reaches_skipSuffix _))
      exact hnext.trans ih

/-- A walk that starts at a name takes the name. -/
theorem reaches_walk_of_identifier
    {c : Cursor} (h : c.isAt .identifier = true) (depth : Nat) :
    (c.move 1).Reaches (walk depth .argument c) := by
  obtain ⟨d, hname, hd⟩ : ∃ d, qualifiedName? c = some d ∧ (c.move 1).Reaches d :=
    ⟨_, if_pos h, reaches_move _ _⟩
  cases hless : d.isAt .lessThan with
  | true =>
      rw [walk_argument_of_lessThan hname hless]
      exact hd.trans ((reaches_next d).trans (reaches_walk _ _ _))
  | false =>
      rw [walk_argument_of_name hname hless]
      exact hd.trans ((reaches_skipSuffix d).trans (reaches_walk _ _ _))

/-- Where an identifier stands, a type name has at least one token. -/
theorem length_pos
    {ts : List Token} (h : (ofTokens ts).isAt .identifier = true) :
    0 < length ts := by
  obtain ⟨t, rest, hrest, -⟩ := (isAt_iff _ _).mp h
  obtain ⟨n, hn⟩ := reaches_walk_of_identifier h 0
  have hposition := position_move n ((ofTokens ts).move 1)
  rw [hn, position_move, hrest] at hposition
  have hpass : pass (ofTokens ts) = walk 0 .argument (ofTokens ts) := if_pos h
  rw [length, hpass, hposition]
  simp only [position_ofTokens, List.length_cons]
  omega

theorem reaches_pass (c : Cursor) :
    c.Reaches (pass c) := by
  unfold pass
  split
  · exact reaches_walk 0 .argument c
  · exact Reaches.refl c

/-- A type name has no more tokens than there are. -/
theorem length_le (ts : List Token) :
    length ts ≤ ts.length := by
  obtain ⟨n, hn⟩ := reaches_pass (ofTokens ts)
  have hposition := position_move n (ofTokens ts)
  rw [hn] at hposition
  simp only [position_ofTokens, rest_ofTokens] at hposition
  unfold length
  omega

/-- At the end of a type name as many tokens are passed as it has. -/
theorem rest_pass_ofTokens (ts : List Token) :
    (pass (ofTokens ts)).rest = ts.drop (length ts) := by
  have htokens : (pass (ofTokens ts)).tokens = ts := by
    obtain ⟨n, hn⟩ := reaches_pass (ofTokens ts)
    rw [← hn, tokens_move, tokens_ofTokens]
  rw [rest_eq_drop, htokens, length]

/-- The tokens before what is left after a type name are as many as it has. -/
theorem length_of_eq_append
    {ts taken : List Token} (h : ts = taken ++ ts.drop (length ts)) :
    length ts = taken.length := by
  have hle := length_le ts
  have hcount := congrArg List.length h
  rw [List.length_append, List.length_drop] at hcount
  omega

section Line

open Token (line afterLine staysOnLine)

variable (designTime : Bool) (ts : List Token)

/-- A type name ends before the line does. -/
theorem length_eq_length_takeWhile :
    length ts = length (ts.takeWhile staysOnLine) := by
  have h := length_append (Token.startsWithLineEnd_dropWhile ts).stopsTypeName
    (ts.takeWhile staysOnLine)
  rwa [List.takeWhile_append_dropWhile] at h

/-- A type name is as long on its line alone as in the whole source. -/
theorem length_line :
    length (line designTime ts) = length ts := by
  rw [length_eq_length_takeWhile, Token.takeWhile_staysOnLine_line,
    ← length_eq_length_takeWhile]

theorem take_length_eq :
    ts.take (length ts) =
      (ts.takeWhile staysOnLine).take (length (ts.takeWhile staysOnLine)) := by
  have hsplit := List.takeWhile_append_dropWhile (p := staysOnLine) (l := ts)
  calc
    ts.take (length ts)
        = (ts.takeWhile staysOnLine ++ ts.dropWhile staysOnLine).take
            (length (ts.takeWhile staysOnLine)) := by
          rw [hsplit, ← length_eq_length_takeWhile]
    _ = (ts.takeWhile staysOnLine).take (length (ts.takeWhile staysOnLine)) :=
          List.take_append_of_le_length (length_le _)

/-- No token of a type name is a line end. -/
theorem mem_take_length_ne :
    ∀ t ∈ ts.take (length ts), t.kind ≠ .newLine := by
  intro t ht
  rw [take_length_eq] at ht
  exact Token.mem_takeWhile_ne Token.kind_of_staysOnLine ts t (List.mem_of_mem_take ht)

/-- A line that starts with a type name is that name and the line of what is left after it. -/
theorem line_eq_take_length_append :
    line designTime ts =
      ts.take (length ts) ++ line designTime (ts.drop (length ts)) := by
  rw [← Token.line_append designTime (mem_take_length_ne ts), List.take_append_drop]

theorem afterLine_drop_length :
    afterLine designTime (ts.drop (length ts)) = afterLine designTime ts := by
  rw [← Token.afterLine_append designTime (mem_take_length_ne ts), List.take_append_drop]

/-- Read from its line alone, a type name takes the same tokens. -/
theorem take_length_line :
    (line designTime ts).take (length (line designTime ts)) = ts.take (length ts) := by
  have hle := length_le ts
  rw [length_line, line_eq_take_length_append]
  exact List.take_left' (by simp [hle])

/-- What a type name leaves of its line is the line of what it leaves. -/
theorem drop_length_line :
    (line designTime ts).drop (length (line designTime ts)) =
      line designTime (ts.drop (length ts)) := by
  have hle := length_le ts
  rw [length_line, line_eq_take_length_append]
  exact List.drop_left' (by simp [hle])

end Line

end TypeName
end PageTemplate
