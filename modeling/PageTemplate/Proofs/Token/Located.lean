import PageTemplate.Cursor

/-!
# Located tokens

The tokens of a document stand one after the other: each starts where the text of those
before it ends.

**Results.**
* `located_tokensFrom`: the tokens of a text are located.
* `located_append`: a located list can be cut anywhere.
* `placeOf_of_located`: the place of what is left of a located list is where the text
  before it ends.
* `location_eq_placeOf`: a cursor stands at the place of what it has left.
-/

namespace PageTemplate
namespace Token

/-- Each token starts where the one before it ends, the first one at the given place. -/
def Located : Location → List Token → Prop
  | _, [] => True
  | l, t :: ts => t.location = l ∧ Located (l.advance t.content) ts

/-- Where the first of the tokens stands, or else the end of the document. -/
def placeOf (final : Location) (ts : List Token) : Location :=
  (ts.head?.map Token.location).getD final

@[simp] theorem placeOf_nil (final : Location) :
    placeOf final [] = final := rfl

@[simp] theorem placeOf_cons
    (final : Location) (t : Token) (ts : List Token) :
    placeOf final (t :: ts) = t.location := rfl

/-- The end of the rest takes the place of the end of the document. -/
theorem placeOf_append
    (final : Location) (ts us : List Token) :
    placeOf final (ts ++ us) = placeOf (placeOf final us) ts := by
  cases ts with
  | nil =>
      rfl
  | cons t ts =>
      rfl

/-- Tokens stand where they should if their parts do, one behind the other. -/
theorem located_append
    {l : Location} {ts us : List Token} :
    Located l (ts ++ us) ↔
      Located l ts ∧ Located (l.advance (textOf ts)) us := by
  induction ts generalizing l with
  | nil =>
      simp [Located]
  | cons t ts ih =>
      rw [List.cons_append, textOf_cons, Location.advance_append]
      simp only [Located, ih, and_assoc]

/-- The tokens of a text stand where the text before them ends. -/
theorem located_tokensFrom
    (l : Location) (t : Text) :
    Located l (tokensFrom l t) := by
  induction l, t using tokensFrom_induction with
  | nil l =>
      simp [Located]
  | cons l c rest ih =>
      rw [tokensFrom_cons]
      exact ⟨rfl, ih⟩

/-- A list is located when every token stands where the text before it ends. -/
theorem location_of_located
    {l : Location} {before after : List Token} {t : Token}
    (h : Located l (before ++ t :: after)) :
    t.location = l.advance (textOf before) := by
  have hrest := (located_append.mp h).2
  exact hrest.1

/-- What is left of a text stands where the text before it ends. -/
theorem placeOf_of_located
    {l : Location} {ts us : List Token}
    (h : Located l (ts ++ us)) :
    placeOf (l.advance (textOf (ts ++ us))) us =
      l.advance (textOf ts) := by
  cases us with
  | nil =>
      simp
  | cons t us =>
      exact location_of_located h

/-- The last token of a located list ends where its text ends. -/
theorem endOf?_of_located
    {l : Location} {ts : List Token}
    (h : Located l ts) :
    (endOf? ts).getD l = l.advance (textOf ts) := by
  rcases List.eq_nil_or_concat ts with rfl | ⟨before, t, rfl⟩
  · rfl
  · rw [List.concat_eq_append] at h ⊢
    have hplace := location_of_located h
    simp [endOf?, endLocation, hplace, Location.advance_append]

/-! ## Split tokens -/

/-- The first character of white space at the start of a list, apart from all that
follows it. -/
def splitSpace : List Token → List Token × List Token
  | [] => ([], [])
  | t :: ts =>
      if t.kind = .whiteSpace then
        match t.splitFirst with
        | none => ([t], ts)
        | some (first, rest) => ([first], rest :: ts)
      else ([], t :: ts)

theorem textOf_splitSpace (ts : List Token) :
    textOf (splitSpace ts).1 ++ textOf (splitSpace ts).2 = textOf ts := by
  unfold splitSpace
  split
  · rfl
  · split
    · split
      · simp
      · next hsplit =>
          have hcontent := (content_of_splitFirst hsplit).2
          simp [← hcontent]
    · simp

/-- White space that is split stands where it should too. -/
theorem located_splitSpace
    {l : Location} {ts : List Token}
    (h : Located l ts) :
    Located l ((splitSpace ts).1 ++ (splitSpace ts).2) := by
  unfold splitSpace
  split
  · trivial
  · next t ts =>
      split
      · split
        · exact h
        · next first rest hsplit =>
            have hcontent := (content_of_splitFirst hsplit).2
            obtain ⟨hfirst, hrest, -⟩ := location_of_splitFirst hsplit
            obtain ⟨ht, hts⟩ := h
            refine ⟨hfirst.trans ht, ?_, ?_⟩
            · rw [hrest, endLocation, hfirst, ht]
            · rwa [← Location.advance_append, hcontent]
      · exact h

/-- What is split off is at most one token, of white space and at most one character. -/
theorem splitSpace_fst
    (ts : List Token) :
    (splitSpace ts).1 = [] ∨
      ∃ t space, (splitSpace ts).1 = [space] ∧
        ts.head? = some t ∧ t.kind = .whiteSpace ∧
        space.content = t.content.take 1 := by
  unfold splitSpace
  split
  · exact Or.inl rfl
  · next t ts =>
      split
      · next hkind =>
          right
          split
          · next hsplit =>
              have hlength := (splitFirst_eq_none_iff t).mp hsplit
              exact ⟨t, t, rfl, rfl, hkind, (List.take_of_length_le hlength).symm⟩
          · next first rest hsplit =>
              obtain ⟨hone, hcontent⟩ := content_of_splitFirst hsplit
              refine ⟨t, first, rfl, rfl, hkind, ?_⟩
              rw [← hcontent, ← hone, List.take_left]
      · exact Or.inl rfl

end Token

/-! ## Cursors -/

namespace Cursor

/-- Where the last of all tokens ends. -/
def final (c : Cursor) : Location :=
  (Token.endOf? c.tokens).getD Location.start

@[simp] theorem final_move
    (n : Nat) (c : Cursor) :
    (c.move n).final = c.final := by
  simp [final]

theorem location_eq_placeOf (c : Cursor) :
    c.location = Token.placeOf c.final c.rest := by
  obtain ⟨passed, rest⟩ := c
  cases rest with
  | nil =>
      cases passed with
      | nil =>
          rfl
      | cons t passed =>
          simp [location, final, tokens, Token.endOf?]
  | cons t rest =>
      rfl

end Cursor
end PageTemplate
