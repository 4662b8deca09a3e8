import Mathlib.Data.List.TakeWhile
import PageTemplate.Proofs.TypeName.Recursion

/-!
# How the tokens of a type name nest

A type name that breaks off or is written wrongly is still read as far as it goes.  What is
taken is never more than a type name may have: argument lists are closed only where they were
opened, and spacing belongs to a type name only inside of them.

**Input.**  The tokens taken by a walk, one after the other.

**Algorithm.**  A scan keeps how many `<` are still without their `>`, and whether the token
before needs the next one: a dot an identifier, and a `[` its `]`.  The walk closes some lists
without a `>`, so the number that the walk keeps is at most that of the scan.

**Results.**
* `depth_of_run`: the scan counts the `<` and `>`.
* `exists_leads_walk`: what a walk takes is let through by the scan.
* `exists_next_of_run`: what a token needs next is let through next.
* `wellNested_of_run`: what the scan lets through from the start.
* `acceptTypeName_wellNested`: what is taken of any tokens as a type name.
-/

namespace PageTemplate

/-- Number of tokens `<` in a list. -/
def Token.openers (ts : List Token) : Nat :=
  ts.countP (·.kind = .lessThan)

/-- Number of tokens `>` in a list. -/
def Token.closers (ts : List Token) : Nat :=
  ts.countP (·.kind = .greaterThan)

theorem Token.openers_append (ts us : List Token) :
    openers (ts ++ us) = openers ts + openers us :=
  List.countP_append

theorem Token.closers_append (ts us : List Token) :
    closers (ts ++ us) = closers ts + closers us :=
  List.countP_append

/-- How far the tokens of a type name are read, with the number of `<` without their `>`. -/
inductive Nesting
  /-- The name may end here, or go on. -/
  | complete (depth : Nat)
  /-- After a dot, which an identifier has to follow. -/
  | afterDot (depth : Nat)
  /-- After a `[`, which its `]` has to follow. -/
  | afterBracket (depth : Nat)
  deriving DecidableEq, Repr

namespace Nesting

/-- Number of `<` without their `>`. -/
def depth : Nesting → Nat
  | complete d => d
  | afterDot d => d
  | afterBracket d => d

/-- The nesting after one more token, if a type name may go on with it. -/
def step : Nesting → TokenKind → Option Nesting
  | complete d, .identifier => some (complete d)
  | complete d, .questionMark => some (complete d)
  | complete d, .dot => some (afterDot d)
  | complete d, .leftBracket => some (afterBracket d)
  | complete d, .lessThan => some (complete (d + 1))
  | complete (d + 1), .greaterThan => some (complete d)
  | complete (d + 1), .comma => some (complete (d + 1))
  | complete (d + 1), .whiteSpace => some (complete (d + 1))
  | complete (d + 1), .comment => some (complete (d + 1))
  | afterDot d, .identifier => some (complete d)
  | afterBracket d, .rightBracket => some (complete d)
  | _, _ => none

/-- The kind that the next token has to be of, where a type name may not end. -/
def needed : Nesting → Option TokenKind
  | complete _ => none
  | afterDot _ => some .identifier
  | afterBracket _ => some .rightBracket

/-- The nesting after more tokens, if a type name may go on with them. -/
def run (n : Nesting) : List Token → Option Nesting
  | [] => some n
  | t :: ts => (n.step t.kind).bind (fun m => m.run ts)

@[simp] theorem run_nil (n : Nesting) :
    n.run [] = some n := rfl

theorem run_cons_eq_some_iff
    {n m : Nesting} {t : Token} {ts : List Token} :
    n.run (t :: ts) = some m ↔ ∃ k, n.step t.kind = some k ∧ k.run ts = some m :=
  Option.bind_eq_some_iff

/-- A scan of tokens one behind the other goes through the nesting at the border. -/
theorem run_append_eq_some_iff
    {n m : Nesting} {ts us : List Token} :
    n.run (ts ++ us) = some m ↔ ∃ k, n.run ts = some k ∧ k.run us = some m := by
  induction ts generalizing n with
  | nil =>
      simp
  | cons t ts ih =>
      rw [List.cons_append, run_cons_eq_some_iff]
      constructor
      · rintro ⟨k, hstep, hrest⟩
        obtain ⟨j, hts, hus⟩ := ih.mp hrest
        exact ⟨j, run_cons_eq_some_iff.mpr ⟨k, hstep, hts⟩, hus⟩
      · rintro ⟨j, hts, hus⟩
        obtain ⟨k, hstep, hrest⟩ := run_cons_eq_some_iff.mp hts
        exact ⟨k, hstep, ih.mpr ⟨j, hrest, hus⟩⟩

/-- One token that a type name goes on with changes the depth by what it opens or closes. -/
theorem depth_of_step
    {n m : Nesting} {t : Token} (h : n.step t.kind = some m) :
    m.depth + Token.closers [t] = n.depth + Token.openers [t] := by
  unfold step at h
  split at h <;> cases h
  all_goals
    next hkind =>
      simp [depth, Token.closers, Token.openers, hkind]

/-- The scan counts the `<` and the `>`. -/
theorem depth_of_run
    {n m : Nesting} {ts : List Token} (h : n.run ts = some m) :
    m.depth + Token.closers ts = n.depth + Token.openers ts := by
  induction ts generalizing n with
  | nil =>
      cases h
      rfl
  | cons t ts ih =>
      obtain ⟨k, hstep, hrest⟩ := run_cons_eq_some_iff.mp h
      have hfirst := depth_of_step hstep
      have hmore := ih hrest
      have hopen := Token.openers_append [t] ts
      have hclose := Token.closers_append [t] ts
      simp only [List.singleton_append] at hopen hclose
      omega

end Nesting

/-! ## What a walk takes -/

namespace TypeName

open Cursor Nesting

/-- Whether the scan lets through what stands between two cursors. -/
def Leads (n : Nesting) (c : Cursor) (m : Nesting) (d : Cursor) : Prop :=
  ∃ taken, c.rest = taken ++ d.rest ∧ n.run taken = some m

theorem Leads.refl (n : Nesting) (c : Cursor) :
    Leads n c n c :=
  ⟨[], rfl, rfl⟩

theorem Leads.trans
    {n m k : Nesting} {c d e : Cursor} (hcd : Leads n c m d) (hde : Leads m d k e) :
    Leads n c k e := by
  obtain ⟨first, hc, hfirst⟩ := hcd
  obtain ⟨second, hd, hsecond⟩ := hde
  refine ⟨first ++ second, ?_, run_append_eq_some_iff.mpr ⟨m, hfirst, hsecond⟩⟩
  rw [hc, hd, List.append_assoc]

/-- A token at the cursor leads on by its step of the scan. -/
theorem leads_move
    {n m : Nesting} {kind : TokenKind} (hstep : n.step kind = some m)
    {c : Cursor} (hat : c.isAt kind = true) :
    Leads n c m (c.move 1) := by
  obtain ⟨t, rest, hrest, rfl⟩ := (isAt_iff _ _).mp hat
  refine ⟨[t], ?_, run_cons_eq_some_iff.mpr ⟨m, hstep, rfl⟩⟩
  rw [rest_move, hrest]
  rfl

/-- Pairs of a token that needs the next one and of that next one leave the nesting as it was. -/
theorem exists_run_pastPairs
    {n m : Nesting} {a b : TokenKind} (ha : n.step a = some m) (hb : m.step b = some n) :
    ∀ ts : List Token, ∃ taken, ts = taken ++ pastPairs a b ts ∧ n.run taken = some n
  | [] => ⟨[], rfl, rfl⟩
  | [_] => ⟨[], rfl, rfl⟩
  | s :: t :: ts => by
      rw [pastPairs]
      split
      · next hkinds =>
          obtain ⟨rfl, rfl⟩ := hkinds
          obtain ⟨taken, hts, hrun⟩ := exists_run_pastPairs ha hb ts
          refine ⟨s :: t :: taken, congrArg (s :: t :: ·) hts, ?_⟩
          exact run_cons_eq_some_iff.mpr ⟨m, ha, run_cons_eq_some_iff.mpr ⟨n, hb, hrun⟩⟩
      · exact ⟨[], rfl, rfl⟩

/-- Pairs that lead back to the nesting before them do so as often as they stand there. -/
theorem leads_movePairs
    {n m : Nesting} {a b : TokenKind} (ha : n.step a = some m) (hb : m.step b = some n)
    (c : Cursor) :
    Leads n c n (c.movePairs a b) := by
  obtain ⟨taken, hrest, hrun⟩ := exists_run_pastPairs ha hb c.rest
  exact ⟨taken, by rw [rest_movePairs, ← hrest], hrun⟩

/-- Inside of a list, spacing is let through and changes nothing. -/
theorem run_of_isSpacing (d : Nat) :
    ∀ {ts : List Token}, (∀ t ∈ ts, Token.isSpacing false true t = true) →
      (complete (d + 1)).run ts = some (complete (d + 1))
  | [], _ => rfl
  | t :: ts, h => by
      have hstep : (complete (d + 1)).step t.kind = some (complete (d + 1)) := by
        rcases Token.kind_of_isSpacing (h t List.mem_cons_self) with hkind | hkind
        · rw [hkind]
          rfl
        · rw [hkind]
          rfl
      have hrest := run_of_isSpacing d (fun u hu => h u (List.mem_cons_of_mem t hu))
      exact run_cons_eq_some_iff.mpr ⟨_, hstep, hrest⟩

/-- Inside an argument list spacing may stand. -/
theorem leads_skipSpacing (d : Nat) (c : Cursor) :
    Leads (complete (d + 1)) c (complete (d + 1)) (skipSpacing c) := by
  refine ⟨c.rest.takeWhile (Token.isSpacing false true), ?_, ?_⟩
  · rw [rest_skipSpacing, pastSpacing, List.takeWhile_append_dropWhile]
  · exact run_of_isSpacing d fun t ht => List.mem_takeWhile_imp ht

theorem leads_skipGap (named : Bool) (d : Nat) (c : Cursor) :
    Leads (complete (d + 1)) c (complete (d + 1)) (skipGap named c) := by
  cases named with
  | false =>
      exact Leads.refl _ c
  | true =>
      exact leads_skipSpacing d c

/-- A suffix is let through inside and outside of lists. -/
theorem leads_skipSuffix (d : Nat) (c : Cursor) :
    Leads (complete d) c (complete d) (skipSuffix c) := by
  have hpairs := leads_movePairs (n := complete d) (m := afterBracket d)
    (a := .leftBracket) (b := .rightBracket) rfl rfl (c.moveOver .questionMark)
  refine Leads.trans ?_ hpairs
  unfold moveOver
  split
  · next hat => exact leads_move rfl hat
  · exact Leads.refl _ c

/-- A name is let through, with an identifier after each of its dots. -/
theorem leads_qualifiedName?
    {c d : Cursor} (h : qualifiedName? c = some d) (depth : Nat) :
    Leads (complete depth) c (complete depth) d := by
  unfold qualifiedName? at h
  split at h
  · next hat =>
      cases h
      have hname : Leads (complete depth) c (complete depth) (c.move 1) := leads_move rfl hat
      exact hname.trans (leads_movePairs (m := afterDot depth) rfl rfl _)
  · cases h

/-- Closing a list takes its `>` or nothing. -/
theorem exists_leads_close (d : Nat) (c : Cursor) :
    ∃ e, d ≤ e ∧ Leads (complete (d + 1)) c (complete e) (c.moveOver .greaterThan) := by
  unfold moveOver
  split
  · next hat => exact ⟨d, Nat.le_refl d, leads_move rfl hat⟩
  · exact ⟨d + 1, Nat.le_succ d, Leads.refl _ c⟩

/-- A mark inside a list is taken with the spacing after it. -/
theorem leads_next
    {n : Nesting} {d : Nat} {kind : TokenKind} (hstep : n.step kind = some (complete (d + 1)))
    {c : Cursor} (hat : c.isAt kind = true) :
    Leads n c (complete (d + 1)) (skipSpacing (c.move 1)) :=
  (leads_move hstep hat).trans (leads_skipSpacing d _)

/-- What a walk takes is let through by the scan: it has at least as many lists open as the
walk, and the walk closes lists without a `>` only in its own count. -/
theorem exists_leads_walk
    (depth : Nat) (stage : Stage) (c : Cursor) :
    ∀ d, depth ≤ d → ∃ e, Leads (complete d) c (complete e) (walk depth stage c) := by
  induction depth, stage, c using walk.induct with
  | case1 depth c hname ih =>
      rw [walk_argument_of_none hname]
      exact ih
  | case2 depth c name hname hless ih =>
      intro d hd
      rw [walk_argument_of_lessThan hname hless]
      obtain ⟨e, he⟩ := ih (d + 1) (Nat.succ_le_succ hd)
      exact ⟨e, (leads_qualifiedName? hname d).trans ((leads_next rfl hless).trans he)⟩
  | case3 depth c name hname hless ih =>
      intro d hd
      rw [walk_argument_of_name hname (by simpa using hless)]
      obtain ⟨e, he⟩ := ih d hd
      exact ⟨e, (leads_qualifiedName? hname d).trans ((leads_skipSuffix d name).trans he)⟩
  | case4 c named =>
      intro d hd
      rw [walk_outermost]
      exact ⟨d, Leads.refl _ c⟩
  | case5 c named outer hcomma ih =>
      intro d hd
      obtain ⟨rfl, hcomma⟩ := hcomma
      rw [walk_of_comma hcomma]
      obtain ⟨d, rfl⟩ : ∃ k, d = k + 1 := Nat.exists_eq_add_of_le' (by omega)
      obtain ⟨e, he⟩ := ih (d + 1) hd
      exact ⟨e, (leads_skipSpacing d c).trans ((leads_next rfl hcomma).trans he)⟩
  | case6 c named outer hcomma ih =>
      intro d hd
      rw [walk_of_close (close_of_not_comma hcomma)]
      obtain ⟨d, rfl⟩ : ∃ k, d = k + 1 := Nat.exists_eq_add_of_le' (by omega)
      -- Without its `>` the list stays open in the scan, which is then further ahead.
      obtain ⟨inner, hinner, hclose⟩ := exists_leads_close d (skipGap named c)
      obtain ⟨e, he⟩ := ih inner (by omega)
      exact ⟨e, (leads_skipGap named d c).trans
        (hclose.trans ((leads_skipSuffix inner _).trans he))⟩

/-- What is taken as a type name leaves the scan where a type name may end. -/
theorem exists_leads_pass (c : Cursor) :
    ∃ e, Leads (complete 0) c (complete e) (pass c) := by
  unfold pass
  split
  · exact exists_leads_walk 0 .argument c 0 (Nat.le_refl 0)
  · exact ⟨0, Leads.refl _ c⟩

/-! ## What the scan lets through -/

/-- What may be taken of tokens as a type name, whether or not one was written. -/
structure WellNested (taken : List Token) : Prop where
  /-- Nothing is taken, or a name comes first. -/
  starts : ∀ t, taken.head? = some t → t.kind = .identifier
  /-- No other tokens are taken, and no line end. -/
  kinds : ∀ t ∈ taken, t.kind.inTypeName = true
  /-- No list is closed that was not opened before. -/
  closers_le : ∀ before after, taken = before ++ after →
    Token.closers before ≤ Token.openers before
  /-- A dot is taken with the name after it. -/
  dot : ∀ before t after, taken = before ++ t :: after → t.kind = .dot →
    ∃ name rest, after = name :: rest ∧ name.kind = .identifier
  /-- A `[` is taken with its `]`. -/
  bracket : ∀ before t after, taken = before ++ t :: after → t.kind = .leftBracket →
    ∃ closing rest, after = closing :: rest ∧ closing.kind = .rightBracket
  /-- Spacing and commas are taken inside of argument lists only. -/
  inside : ∀ before t after, taken = before ++ t :: after →
    t.kind = .whiteSpace ∨ t.kind = .comment ∨ t.kind = .comma →
      Token.closers before < Token.openers before
  /-- Nothing is taken after a type name that is closed. -/
  ends : Token.closers taken = Token.openers taken → ∀ t, taken.getLast? = some t →
    t.kind = .identifier ∨ t.kind = .greaterThan ∨ t.kind = .questionMark ∨
      t.kind = .rightBracket

section Run

variable {n m : Nesting} {t : Token} {before after : List Token}

/-- A scan of tokens passes each one of them. -/
theorem exists_step_of_run (h : n.run (before ++ t :: after) = some m) :
    ∃ k j, n.run before = some k ∧ k.step t.kind = some j ∧ j.run after = some m := by
  obtain ⟨k, hbefore, hmore⟩ := run_append_eq_some_iff.mp h
  obtain ⟨j, hstep, hafter⟩ := run_cons_eq_some_iff.mp hmore
  exact ⟨k, j, hbefore, hstep, hafter⟩

/-- Only tokens of type names are let through. -/
theorem inTypeName_of_step {kind : TokenKind} (h : n.step kind = some m) :
    kind.inTypeName = true := by
  unfold step at h
  split at h <;> cases h
  all_goals rfl

/-- Spacing and commas are let through inside of lists only. -/
theorem depth_pos_of_step
    {kind : TokenKind} (hkind : kind = .whiteSpace ∨ kind = .comment ∨ kind = .comma)
    (h : n.step kind = some m) :
    0 < n.depth := by
  cases n with
  | complete d =>
      cases d with
      | zero => rcases hkind with rfl | rfl | rfl <;> cases h
      | succ d => exact Nat.succ_pos d
  | afterDot d => rcases hkind with rfl | rfl | rfl <;> cases h
  | afterBracket d => rcases hkind with rfl | rfl | rfl <;> cases h

/-- What a type name may end with outside of all lists. -/
theorem kind_of_step_complete_zero {kind : TokenKind} (h : n.step kind = some (complete 0)) :
    kind = .identifier ∨ kind = .greaterThan ∨ kind = .questionMark ∨ kind = .rightBracket := by
  unfold step at h
  split at h <;> cases h
  all_goals simp

theorem needed_of_step_dot (h : n.step .dot = some m) :
    m.needed = some .identifier := by
  cases n <;> cases h
  rfl

theorem needed_of_step_leftBracket (h : n.step .leftBracket = some m) :
    m.needed = some .rightBracket := by
  cases n <;> cases h
  rfl

/-- Where the token before needs a kind, no other one is let through. -/
theorem kind_of_step_of_needed
    {kind needed : TokenKind} (hneeded : n.needed = some needed) (h : n.step kind = some m) :
    kind = needed := by
  cases n with
  | complete d =>
      cases hneeded
  | afterDot d =>
      cases hneeded
      cases kind <;> cases h
      rfl
  | afterBracket d =>
      cases hneeded
      cases kind <;> cases h
      rfl

/-- What a token needs next comes next. -/
theorem exists_next_of_run
    {opening needed : TokenKind} {e : Nat}
    (hopening : ∀ {k j : Nesting}, k.step opening = some j → j.needed = some needed)
    (h : n.run (before ++ t :: after) = some (complete e)) (ht : t.kind = opening) :
    ∃ next rest, after = next :: rest ∧ next.kind = needed := by
  obtain ⟨k, j, -, hstep, hafter⟩ := exists_step_of_run h
  rw [ht] at hstep
  have hneeded := hopening hstep
  cases after with
  | nil =>
      cases hafter
      cases hneeded
  | cons next rest =>
      obtain ⟨i, hnext, -⟩ := run_cons_eq_some_iff.mp hafter
      exact ⟨next, rest, rfl, kind_of_step_of_needed hneeded hnext⟩

end Run

/-- What the scan lets through from the start of a name. -/
theorem wellNested_of_run
    {taken : List Token} {e : Nat}
    (hstart : ∀ t, taken.head? = some t → t.kind = .identifier)
    (h : (complete 0).run taken = some (complete e)) :
    WellNested taken where
  starts := hstart
  kinds := by
    intro t ht
    obtain ⟨before, after, rfl⟩ := List.append_of_mem ht
    obtain ⟨k, j, -, hstep, -⟩ := exists_step_of_run h
    exact inTypeName_of_step hstep
  closers_le := by
    rintro before after rfl
    obtain ⟨k, hbefore, -⟩ := run_append_eq_some_iff.mp h
    have hdepth := depth_of_run hbefore
    simp only [depth] at hdepth
    omega
  dot := by
    rintro before t after rfl hkind
    exact exists_next_of_run needed_of_step_dot h hkind
  bracket := by
    rintro before t after rfl hkind
    exact exists_next_of_run needed_of_step_leftBracket h hkind
  inside := by
    rintro before t after rfl hkind
    obtain ⟨k, j, hbefore, hstep, -⟩ := exists_step_of_run h
    have hdepth := depth_of_run hbefore
    have hpos := depth_pos_of_step hkind hstep
    simp only [depth] at hdepth hpos
    omega
  ends := by
    intro hclosed t ht
    obtain ⟨before, rfl⟩ := List.getLast?_eq_some_iff.mp ht
    have hdepth := depth_of_run h
    obtain ⟨k, j, -, hstep, hrun⟩ := exists_step_of_run h
    cases hrun
    obtain rfl : e = 0 := by
      simp only [depth] at hdepth
      omega
    exact kind_of_step_complete_zero hstep

end TypeName

namespace Slicer

open Token (textOf)
open PageTemplate.TypeName (WellNested exists_leads_pass wellNested_of_run)

/-- What is taken of any tokens as a type name is well nested. -/
theorem acceptTypeName_wellNested (s : Slicer) :
    ∃ taken, WellNested taken ∧
      s.cursor.rest = taken ++ s.acceptTypeName.2.cursor.rest ∧
      s.acceptTypeName =
        (textOf taken,
          { s with
            cursor := s.cursor.move taken.length
            draft := s.draft.accept taken }) := by
  obtain ⟨e, taken, hrest, hrun⟩ := exists_leads_pass s.cursor
  rw [TypeName.rest_pass] at hrest
  obtain ⟨haccept, hleft⟩ := acceptTypeName_of_append hrest
  have hstart : ∀ t, taken.head? = some t → t.kind = .identifier := by
    intro t ht
    have hname : TypeName.startsWith .identifier s.cursor.rest = true := by
      rw [← Bool.not_eq_false, ← TypeName.afterType?_eq_none_iff]
      intro hnone
      simp [TypeName.afterType, hnone] at hrest
      simp [hrest] at ht
    have hhead : s.cursor.rest.head? = some t := by
      rw [hrest, List.head?_append, ht]
      rfl
    simpa [TypeName.startsWith, hhead] using hname
  exact ⟨taken, wellNested_of_run hstart hrun, by rw [hleft, ← hrest], haccept⟩

end Slicer
end PageTemplate
