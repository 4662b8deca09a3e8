import PageTemplate.Proofs.Token.Located

/-!
# Lines of tokens

A directive takes the tokens up to the next line end.  At design time the line end itself
is left to what follows.

**Results.**
* `line_append_afterLine`: a list is its first line and what follows the line.
* `length_line`: the first line goes up to the first line end.
* `line_append`, `line_append_of_lineEnd`: a line in a longer list, before or after its end.
* `line_eq_takeWhile_append`: the white space of a line can be read before the rest of it.
* `dropWhile_line`, `takeWhile_staysOnLine_line`: parts of a line and of the document.
* `placeOf_line`, `atLineEnd_line`, `atIdentifier_line`: the end of a line and the end of
  the document are met alike.
* `splitSpace_line`: the white space at the start of a line is split off its spacing.
* `line_false`, `afterLine_true`: at design time the line end goes to what follows.
-/

namespace PageTemplate
namespace Token

/-- Whether the token leaves the line open. -/
def staysOnLine (t : Token) : Bool :=
  t.kind ≠ .newLine

/-- The tokens up to the first line end, which is one of them unless at design time. -/
def line (designTime : Bool) : List Token → List Token
  | [] => []
  | t :: ts =>
      if t.kind = .newLine then (if designTime then [] else [t])
      else t :: line designTime ts

/-- The tokens that follow the first line. -/
def afterLine (designTime : Bool) : List Token → List Token
  | [] => []
  | t :: ts =>
      if t.kind = .newLine then (if designTime then t :: ts else ts)
      else afterLine designTime ts

/-- Whether the list can only be read on as a new line. -/
def StartsWithLineEnd (ts : List Token) : Prop :=
  ∀ t, ts.head? = some t → t.kind = .newLine

/-- A line and what is after it are all there is. -/
theorem line_append_afterLine
    (designTime : Bool) (ts : List Token) :
    line designTime ts ++ afterLine designTime ts = ts := by
  induction ts with
  | nil =>
      rfl
  | cons t ts ih =>
      unfold line afterLine
      split
      · split <;> rfl
      · rw [List.cons_append, ih]

/-- The line end of the first line, if it has one. -/
def lineEnd : List Token → List Token
  | [] => []
  | t :: ts => if t.kind = .newLine then [t] else lineEnd ts

/-- Unless it is design time, a line has its line end. -/
theorem line_false (ts : List Token) :
    line false ts = line true ts ++ lineEnd ts := by
  induction ts with
  | nil =>
      rfl
  | cons t ts ih =>
      by_cases hkind : t.kind = .newLine
      · simp [line, lineEnd, hkind]
      · simp [line, lineEnd, hkind, ih]

/-- At design time the line end is left for what follows. -/
theorem afterLine_true (ts : List Token) :
    afterLine true ts = lineEnd ts ++ afterLine false ts := by
  induction ts with
  | nil =>
      rfl
  | cons t ts ih =>
      by_cases hkind : t.kind = .newLine
      · simp [afterLine, lineEnd, hkind]
      · simp [afterLine, lineEnd, hkind, ih]

/-- Without a line end the first line is all there is. -/
theorem lineEnd_eq (ts : List Token) :
    (lineEnd ts = [] ∧ afterLine false ts = []) ∨
      ∃ t ∈ ts, lineEnd ts = [t] ∧ t.kind = .newLine := by
  induction ts with
  | nil =>
      exact Or.inl ⟨rfl, rfl⟩
  | cons t ts ih =>
      by_cases hkind : t.kind = .newLine
      · right
        exact ⟨t, List.mem_cons_self, if_pos hkind, hkind⟩
      · rw [lineEnd, if_neg hkind, afterLine, if_neg hkind]
        rcases ih with hnone | ⟨u, hu, hone⟩
        · exact Or.inl hnone
        · exact Or.inr ⟨u, List.mem_cons_of_mem t hu, hone⟩

theorem drop_length_line
    (designTime : Bool) (ts : List Token) :
    ts.drop (line designTime ts).length = afterLine designTime ts := by
  have h : (line designTime ts ++ afterLine designTime ts).drop (line designTime ts).length =
      afterLine designTime ts :=
    List.drop_left
  rwa [line_append_afterLine] at h

theorem take_length_line
    (designTime : Bool) (ts : List Token) :
    ts.take (line designTime ts).length = line designTime ts := by
  have h : (line designTime ts ++ afterLine designTime ts).take (line designTime ts).length =
      line designTime ts :=
    List.take_left
  rwa [line_append_afterLine] at h

/-- A line has the tokens before its line end, and the line end unless it is design time. -/
theorem length_line
    (designTime : Bool) (ts : List Token) :
    (line designTime ts).length =
      match ts.findIdx? (·.kind = .newLine) with
      | some n => n + (if designTime then 0 else 1)
      | none => ts.length := by
  induction ts with
  | nil =>
      rfl
  | cons t ts ih =>
      by_cases hkind : t.kind = .newLine
      · cases designTime <;> simp [line, hkind, List.findIdx?_cons]
      · have hcons : (t :: ts).findIdx? (·.kind = .newLine) =
            (ts.findIdx? (·.kind = .newLine)).map (· + 1) := by
          simp [List.findIdx?_cons, hkind]
        rw [line, if_neg hkind, List.length_cons, hcons, ih]
        cases ts.findIdx? (·.kind = .newLine) with
        | none =>
            rfl
        | some n =>
            exact Nat.add_right_comm n _ 1

theorem line_subset
    (designTime : Bool) (ts : List Token) :
    line designTime ts ⊆ ts := by
  rw [← take_length_line]
  exact List.take_subset _ _

theorem afterLine_subset
    (designTime : Bool) (ts : List Token) :
    afterLine designTime ts ⊆ ts := by
  rw [← drop_length_line]
  exact List.drop_subset _ _

/-- A line alone has nothing after it. -/
theorem afterLine_line
    (designTime : Bool) (ts : List Token) :
    afterLine designTime (line designTime ts) = [] := by
  induction ts with
  | nil =>
      rfl
  | cons t ts ih =>
      by_cases hkind : t.kind = .newLine
      · cases designTime <;> simp [line, afterLine, hkind]
      · simp [line, afterLine, hkind, ih]

/-- A line starts with the first of the tokens it is read from, if with any. -/
theorem head?_line
    {designTime : Bool} {ts : List Token} {t : Token}
    (h : (line designTime ts).head? = some t) :
    ts.head? = some t := by
  cases ts with
  | nil =>
      cases h
  | cons u ts =>
      unfold line at h
      split at h
      · split at h
        · cases h
        · exact h
      · exact h

/-- Tokens that leave the line open can be read before the rest of the line. -/
theorem line_append
    (designTime : Bool) {ts : List Token}
    (h : ∀ t ∈ ts, t.kind ≠ .newLine) (us : List Token) :
    line designTime (ts ++ us) = ts ++ line designTime us := by
  induction ts with
  | nil =>
      rfl
  | cons t ts ih =>
      have hrest := ih (fun u hu => h u (List.mem_cons_of_mem t hu))
      rw [List.cons_append, List.cons_append, ← hrest]
      exact if_neg (h t List.mem_cons_self)

theorem afterLine_append
    (designTime : Bool) {ts : List Token}
    (h : ∀ t ∈ ts, t.kind ≠ .newLine) (us : List Token) :
    afterLine designTime (ts ++ us) = afterLine designTime us := by
  induction ts with
  | nil =>
      rfl
  | cons t ts ih =>
      rw [← ih (fun u hu => h u (List.mem_cons_of_mem t hu))]
      exact if_neg (h t List.mem_cons_self)

section LineEnd

variable {ts : List Token} (h : ∃ t ∈ ts, t.kind = .newLine)
include h

/-- A line that ends among the tokens is not made longer by those behind them. -/
theorem line_append_of_lineEnd
    (designTime : Bool) (us : List Token) :
    line designTime (ts ++ us) = line designTime ts := by
  induction ts with
  | nil =>
      obtain ⟨t, ht, -⟩ := h
      cases ht
  | cons t ts ih =>
      rw [List.cons_append, line, line]
      split
      · rfl
      · next hkind =>
          obtain ⟨u, hu, hend⟩ := h
          rcases List.mem_cons.mp hu with rfl | hu
          · exact absurd hend hkind
          · rw [ih ⟨u, hu, hend⟩]

theorem afterLine_append_of_lineEnd
    (designTime : Bool) (us : List Token) :
    afterLine designTime (ts ++ us) = afterLine designTime ts ++ us := by
  induction ts with
  | nil =>
      obtain ⟨t, ht, -⟩ := h
      cases ht
  | cons t ts ih =>
      rw [List.cons_append, afterLine, afterLine]
      split
      · split <;> rfl
      · next hkind =>
          obtain ⟨u, hu, hend⟩ := h
          rcases List.mem_cons.mp hu with rfl | hu
          · exact absurd hend hkind
          · rw [ih ⟨u, hu, hend⟩]

end LineEnd

/-- What is left where a run ends does not belong to the run. -/
theorem eq_false_of_head?_dropWhile
    {p : Token → Bool} {ts : List Token} {t : Token}
    (h : (ts.dropWhile p).head? = some t) :
    p t = false := by
  have hstop := List.head?_dropWhile_not p ts
  rw [h] at hstop
  simpa using hstop

section Predicates

variable {p : Token → Bool} (hp : ∀ t, p t = true → t.kind ≠ .newLine)
include hp

theorem mem_takeWhile_ne
    (ts : List Token) :
    ∀ t ∈ ts.takeWhile p, t.kind ≠ .newLine := by
  intro t ht
  exact hp t (List.all_eq_true.mp List.all_takeWhile t ht)

/-- What stays on the line may be taken before the line is. -/
theorem line_eq_takeWhile_append
    (designTime : Bool) (ts : List Token) :
    line designTime ts = ts.takeWhile p ++ line designTime (ts.dropWhile p) := by
  rw [← line_append designTime (mem_takeWhile_ne hp ts), List.takeWhile_append_dropWhile]

theorem afterLine_dropWhile
    (designTime : Bool) (ts : List Token) :
    afterLine designTime (ts.dropWhile p) = afterLine designTime ts := by
  rw [← afterLine_append designTime (mem_takeWhile_ne hp ts),
    List.takeWhile_append_dropWhile]

theorem dropWhile_line
    (designTime : Bool) (ts : List Token) :
    (line designTime ts).dropWhile p = line designTime (ts.dropWhile p) := by
  have hall : ∀ t ∈ ts.takeWhile p, p t = true :=
    fun t ht => List.all_eq_true.mp List.all_takeWhile t ht
  have hstop : (line designTime (ts.dropWhile p)).dropWhile p =
      line designTime (ts.dropWhile p) := by
    cases hline : line designTime (ts.dropWhile p) with
    | nil =>
        rfl
    | cons t rest =>
        have hhead : (ts.dropWhile p).head? = some t :=
          head?_line (by rw [hline, List.head?_cons])
        exact List.dropWhile_cons_of_neg (by simp [eq_false_of_head?_dropWhile hhead])
  rw [line_eq_takeWhile_append hp, List.dropWhile_append_of_pos hall, hstop]

end Predicates

theorem takeWhile_staysOnLine_line
    (designTime : Bool) (ts : List Token) :
    (line designTime ts).takeWhile staysOnLine = ts.takeWhile staysOnLine := by
  induction ts with
  | nil =>
      rfl
  | cons t ts ih =>
      by_cases hkind : t.kind = .newLine
      · cases designTime <;> simp [line, staysOnLine, hkind]
      · simp [line, staysOnLine, hkind, ih]

theorem kind_of_staysOnLine
    (t : Token) (h : staysOnLine t = true) :
    t.kind ≠ .newLine := by
  simpa [staysOnLine] using h

/-- Behind what stays on the line comes a line end, or nothing. -/
theorem startsWithLineEnd_dropWhile (ts : List Token) :
    StartsWithLineEnd (ts.dropWhile staysOnLine) := by
  intro t ht
  simpa [staysOnLine] using eq_false_of_head?_dropWhile ht

theorem staysOnLine_of_isSpacing
    (t : Token) (h : isSpacing false true t = true) :
    t.kind ≠ .newLine := by
  intro hkind
  simp [isSpacing, hkind] at h

/-- The white space at the start is cut off whatever follows. -/
theorem splitSpace_append
    {ts : List Token} (h : ts ≠ []) (us : List Token) :
    splitSpace (ts ++ us) = ((splitSpace ts).1, (splitSpace ts).2 ++ us) := by
  cases ts with
  | nil =>
      exact absurd rfl h
  | cons t ts =>
      simp only [List.cons_append, splitSpace]
      split
      · cases t.splitFirst <;> rfl
      · rfl

theorem splitSpace_of_head
    {ts : List Token} (h : ∀ t, ts.head? = some t → t.kind ≠ .whiteSpace) :
    splitSpace ts = ([], ts) := by
  cases ts with
  | nil =>
      rfl
  | cons t ts =>
      exact if_neg (h t rfl)

/-- What does not start with white space can be put behind the rest of what is split. -/
theorem splitSpace_append_of_head
    {us : List Token} (h : ∀ t, us.head? = some t → t.kind ≠ .whiteSpace) (ts : List Token) :
    splitSpace (ts ++ us) = ((splitSpace ts).1, (splitSpace ts).2 ++ us) := by
  cases ts with
  | nil =>
      exact splitSpace_of_head h
  | cons t ts =>
      exact splitSpace_append (List.cons_ne_nil t ts) us

/-- The white space at the start of a line is split off its spacing. -/
theorem splitSpace_line
    (designTime : Bool) (ts : List Token) :
    splitSpace (line designTime ts) =
      ((splitSpace (ts.takeWhile (isSpacing false true))).1,
        (splitSpace (ts.takeWhile (isSpacing false true))).2 ++
          line designTime (ts.dropWhile (isSpacing false true))) := by
  have hline := line_eq_takeWhile_append staysOnLine_of_isSpacing designTime ts
  by_cases hspacing : ts.takeWhile (isSpacing false true) = []
  · rw [hspacing, List.nil_append] at hline
    rw [hline, hspacing]
    refine splitSpace_of_head ?_
    intro t ht hkind
    have hstop := eq_false_of_head?_dropWhile (head?_line ht)
    simp [isSpacing, hkind] at hstop
  · rw [hline, splitSpace_append hspacing]

/-! ## What stands at the start of a line -/

/-- Whether nothing but a line end is left at the start of the tokens. -/
def atLineEnd (ts : List Token) : Bool :=
  ts.head?.all (·.kind = .newLine)

/-- Whether the first of the tokens is an identifier. -/
def atIdentifier (ts : List Token) : Bool :=
  ts.head?.any (·.kind = .identifier)

/-- A line stands where the document goes on. -/
theorem placeOf_line
    (designTime : Bool) (final : Location) (ts : List Token) :
    placeOf (placeOf final (afterLine designTime ts)) (line designTime ts) =
      placeOf final ts := by
  rw [← placeOf_append, line_append_afterLine]

theorem atLineEnd_line
    (designTime : Bool) (ts : List Token) :
    atLineEnd (line designTime ts) = atLineEnd ts := by
  cases ts with
  | nil =>
      rfl
  | cons t ts =>
      unfold line
      split
      · next hkind =>
          cases designTime <;> simp [atLineEnd, hkind]
      · rfl

theorem atIdentifier_line
    (designTime : Bool) (ts : List Token) :
    atIdentifier (line designTime ts) = atIdentifier ts := by
  cases ts with
  | nil =>
      rfl
  | cons t ts =>
      unfold line
      split
      · next hkind =>
          cases designTime <;> simp [atIdentifier, hkind]
      · rfl

end Token
end PageTemplate
