import PageTemplate.Text.Basic

/-!
# Keyword tables

A keyword table gives each keyword at most one value.  It is kept in the order of
the keywords, which is the order of their code points and so that of their UTF-8
bytes.

**Results.**
* `get?_register_self`, `get?_register_of_ne`: the last value registered counts.
* `contains_eq_isSome`: a keyword is contained exactly when it has a value.
* `register_fst`: a complaint is made exactly about a keyword already contained.
-/

namespace PageTemplate

namespace Text

theorem lt_trans {s t u : Text} (h : s < t) (h' : t < u) : s < u :=
  List.lt_trans h h'

theorem lt_of_not_lt {s t : Text} (h : ¬ t < s) (hne : s ≠ t) : s < t := by
  by_cases hlt : s < t
  · exact hlt
  · exact absurd (List.le_antisymm (List.not_lt.mp h) (List.not_lt.mp hlt)) hne

end Text

/-- A keyword was registered that the table already had. -/
structure DuplicateKeyword where
  /-- The keyword. -/
  keyword : Text
  deriving DecidableEq, Repr, Inhabited

/-- The sentence that describes the complaint. -/
def DuplicateKeyword.message (d : DuplicateKeyword) : String :=
  s!"directive '{String.ofList d.keyword}' registered twice"

/-- Values by keyword, in the order of the keywords. -/
structure KeywordTable (α : Type) where
  /-- Each keyword with its value. -/
  entries : List (Text × α)
  /-- Each keyword comes before the next one. -/
  ordered : entries.Pairwise (fun a b => a.1 < b.1)

namespace KeywordTable

variable {α : Type}

/-- The entries with `value` for `keyword`, in the place of its earlier value or
else in order. -/
def insertEntry (keyword : Text) (value : α) : List (Text × α) → List (Text × α)
  | [] => [(keyword, value)]
  | (k, v) :: rest =>
      if keyword = k then (keyword, value) :: rest
      else if keyword < k then (keyword, value) :: (k, v) :: rest
      else (k, v) :: insertEntry keyword value rest

theorem mem_insertEntry {keyword : Text} {value : α} {e : Text × α} :
    ∀ {entries : List (Text × α)}, e ∈ insertEntry keyword value entries →
      e = (keyword, value) ∨ e ∈ entries
  | [], h => by simpa [insertEntry] using h
  | (k, v) :: rest, h => by
      simp only [insertEntry] at h
      split at h
      · rcases List.mem_cons.mp h with h | h
        · exact Or.inl h
        · exact Or.inr (List.mem_cons_of_mem _ h)
      · split at h
        · exact List.mem_cons.mp h
        · rcases List.mem_cons.mp h with h | h
          · exact Or.inr (by simp [h])
          · rcases mem_insertEntry h with h | h
            · exact Or.inl h
            · exact Or.inr (List.mem_cons_of_mem _ h)

/-- An entry is put where the order of keywords has it. -/
theorem ordered_insertEntry (keyword : Text) (value : α) :
    ∀ {entries : List (Text × α)}, entries.Pairwise (fun a b => a.1 < b.1) →
      (insertEntry keyword value entries).Pairwise (fun a b => a.1 < b.1)
  | [], _ => by simp [insertEntry]
  | (k, v) :: rest, h => by
      obtain ⟨hk, hrest⟩ := List.pairwise_cons.mp h
      simp only [insertEntry]
      split
      · next heq => exact List.pairwise_cons.mpr ⟨by simpa [heq] using hk, hrest⟩
      · next hne =>
          split
          · next hlt =>
              refine List.pairwise_cons.mpr ⟨fun e he => ?_, h⟩
              rcases List.mem_cons.mp he with rfl | he
              · exact hlt
              · exact Text.lt_trans hlt (hk e he)
          · next hlt =>
              refine List.pairwise_cons.mpr
                ⟨fun e he => ?_, ordered_insertEntry keyword value hrest⟩
              rcases mem_insertEntry he with rfl | he
              · exact Text.lt_of_not_lt hlt (Ne.symm hne)
              · exact hk e he

/-- The table without entries. -/
def empty : KeywordTable α :=
  ⟨[], List.Pairwise.nil⟩

/-- The value of a keyword. -/
def get? (keyword : Text) (t : KeywordTable α) : Option α :=
  t.entries.lookup keyword

/-- Whether a keyword has a value. -/
def contains (keyword : Text) (t : KeywordTable α) : Bool :=
  (t.get? keyword).isSome

/-- The keywords in order. -/
def keywords (t : KeywordTable α) : List Text :=
  t.entries.map Prod.fst

/-- Number of keywords. -/
def size (t : KeywordTable α) : Nat :=
  t.entries.length

/-- Whether there is no keyword. -/
def isEmpty (t : KeywordTable α) : Bool :=
  t.entries.isEmpty

/-- The table with `value` for `keyword`, and a complaint if it had one before. -/
def register (keyword : Text) (value : α) (t : KeywordTable α) :
    Option DuplicateKeyword × KeywordTable α :=
  (if t.contains keyword then some ⟨keyword⟩ else none,
    ⟨insertEntry keyword value t.entries, ordered_insertEntry keyword value t.ordered⟩)

/-- The table of a list of entries, of which the last counts for each keyword. -/
def ofList (entries : List (Text × α)) : KeywordTable α :=
  entries.foldl (fun t e => (t.register e.1 e.2).2) empty

theorem lookup_insertEntry_self (keyword : Text) (value : α) :
    ∀ entries : List (Text × α),
      (insertEntry keyword value entries).lookup keyword = some value
  | [] => by simp [insertEntry]
  | (k, v) :: rest => by
      have ih := lookup_insertEntry_self keyword value rest
      simp only [insertEntry]
      split
      · simp
      · next hne =>
          split
          · simp
          · have hb : (keyword == k) = false := by simpa using hne
            simp [List.lookup_cons, hb, ih]

theorem lookup_insertEntry_of_ne {keyword other : Text} (value : α) (h : other ≠ keyword) :
    ∀ entries : List (Text × α),
      (insertEntry keyword value entries).lookup other = entries.lookup other
  | [] => by
      have hb : (other == keyword) = false := by simpa using h
      simp [insertEntry, List.lookup_cons, hb]
  | (k, v) :: rest => by
      have hb : (other == keyword) = false := by simpa using h
      have ih := lookup_insertEntry_of_ne value h rest
      simp only [insertEntry]
      split
      · next heq =>
          subst heq
          simp [List.lookup_cons, hb]
      · split
        · simp [List.lookup_cons, hb]
        · simp [List.lookup_cons, ih]

@[simp] theorem get?_empty (keyword : Text) : (empty : KeywordTable α).get? keyword = none := rfl

theorem get?_register_self (keyword : Text) (value : α) (t : KeywordTable α) :
    (t.register keyword value).2.get? keyword = some value :=
  lookup_insertEntry_self keyword value t.entries

/-- A registration changes nothing about other keywords. -/
theorem get?_register_of_ne {keyword other : Text} (value : α) (t : KeywordTable α)
    (h : other ≠ keyword) : (t.register keyword value).2.get? other = t.get? other :=
  lookup_insertEntry_of_ne value h t.entries

theorem contains_eq_isSome (keyword : Text) (t : KeywordTable α) :
    t.contains keyword = (t.get? keyword).isSome := rfl

theorem register_fst (keyword : Text) (value : α) (t : KeywordTable α) :
    (t.register keyword value).1 = if t.contains keyword then some ⟨keyword⟩ else none := rfl

end KeywordTable

end PageTemplate
