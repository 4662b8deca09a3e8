import Mathlib.Data.Finset.Card
import PageTemplate.Directive
import PageTemplate.Proofs.Text.ByteOrder

/-!
# Runs of registrations

A table is filled by a sequence of calls, each with a keyword and a value.  Whatever the calls
are, it is the finite map that gives each keyword the value of its last call.

**Input.**  A sequence of calls on the table without entries.

**Algorithm.**  Each call is made on the table that the calls before it left.  Its value takes
the place of an earlier value of the keyword.  A complaint about that does not end the run.

**Results.**
* `registerAll_snd`: a run leaves the table of the list of its calls.
* `get?_register`: one call changes the value of its own keyword and of no other.
* `getElem?_registerAll`: the answer to each call, by the table on which it is made.
* `get?_registerAll`, `contains_registerAll`: what the table holds after a run.
* `keywords_increasing`: the keywords are listed in the order of their bytes.
* `answers_eq_none_iff`: when a run goes without complaint.
* `registerAll_isFiniteMap`: all answers of a run, and of the table that it leaves.
* `Directive.registerAll_keywords`: the table of the directives is filled without complaint.
-/

namespace PageTemplate
namespace KeywordTable

variable {α : Type}

/-! ## Calls -/

/-- The answers to a sequence of calls, and the table after it. -/
def registerAll (t : KeywordTable α) :
    List (Text × α) → List (Option DuplicateKeyword) × KeywordTable α
  | [] => ([], t)
  | call :: calls =>
      let first := t.register call.1 call.2
      let others := first.2.registerAll calls
      (first.1 :: others.1, others.2)

/-- The table of a list of entries is what registering them one after the other leaves. -/
theorem registerAll_snd (calls : List (Text × α)) :
    ((empty : KeywordTable α).registerAll calls).2 = ofList calls := by
  unfold ofList
  generalize (empty : KeywordTable α) = t
  induction calls generalizing t with
  | nil =>
      rfl
  | cons call calls ih =>
      exact ih _

/-- The value of the last call with exactly this keyword. -/
def lastValue? (keyword : Text) (calls : List (Text × α)) : Option α :=
  (calls.filter (fun call => call.1 = keyword)).getLast?.map Prod.snd

theorem lastValue?_cons (keyword : Text) (call : Text × α) (calls : List (Text × α)) :
    lastValue? keyword (call :: calls) =
      (lastValue? keyword calls).or (if call.1 = keyword then some call.2 else none) := by
  unfold lastValue?
  by_cases h : call.1 = keyword
  · rw [List.filter_cons_of_pos (by simpa using h), List.getLast?_cons, if_pos h]
    cases (calls.filter (fun call => call.1 = keyword)).getLast? <;> rfl
  · rw [List.filter_cons_of_neg (by simpa using h), if_neg h, Option.or_none]

theorem isSome_lastValue?_iff (keyword : Text) (calls : List (Text × α)) :
    (lastValue? keyword calls).isSome = true ↔ keyword ∈ calls.map Prod.fst := by
  induction calls with
  | nil =>
      simp [lastValue?]
  | cons call calls ih =>
      rw [lastValue?_cons, Option.isSome_or, Bool.or_eq_true, ih, List.map_cons, List.mem_cons]
      by_cases h : call.1 = keyword
      · simp [h]
      · simp [h, Ne.symm h]

/-! ## What a table holds -/

section Contents

variable (t : KeywordTable α)

theorem get?_register (keyword other : Text) (value : α) :
    (t.register keyword value).2.get? other =
      if keyword = other then some value else t.get? other := by
  split
  · next h =>
      rw [← h, get?_register_self]
  · next h =>
      exact get?_register_of_ne value t (Ne.symm h)

theorem contains_register (keyword other : Text) (value : α) :
    (t.register keyword value).2.contains other = true ↔
      keyword = other ∨ t.contains other = true := by
  rw [contains, get?_register]
  split
  · next h =>
      simp [h]
  · next h =>
      simp [h, contains]

/-- After several registrations a keyword has the last value registered for it, or else its old
one. -/
theorem get?_registerAll (calls : List (Text × α)) (keyword : Text) :
    (t.registerAll calls).2.get? keyword = (lastValue? keyword calls).or (t.get? keyword) := by
  induction calls generalizing t with
  | nil =>
      rfl
  | cons call calls ih =>
      rw [registerAll, ih, get?_register, lastValue?_cons, Option.or_assoc]
      split <;> rfl

/-- The keywords are those registered and those that were there. -/
theorem contains_registerAll (calls : List (Text × α)) (keyword : Text) :
    (t.registerAll calls).2.contains keyword = true ↔
      keyword ∈ calls.map Prod.fst ∨ t.contains keyword = true := by
  rw [contains, get?_registerAll, Option.isSome_or, Bool.or_eq_true, isSome_lastValue?_iff]
  rfl

/-- Each call is made on the table that the calls before it left. -/
theorem getElem?_registerAll (calls : List (Text × α)) (i : Nat) :
    (t.registerAll calls).1[i]? = calls[i]?.map (fun call =>
      ((t.registerAll (calls.take i)).2.register call.1 call.2).1) := by
  induction calls generalizing t i with
  | nil =>
      rfl
  | cons call calls ih =>
      cases i with
      | zero => rfl
      | succ i => exact ih _ i

/-- A run goes without complaint exactly if no keyword comes twice or was there before. -/
theorem answers_eq_none_iff (calls : List (Text × α)) :
    (∀ answer ∈ (t.registerAll calls).1, answer = none) ↔
      (∀ call ∈ calls, t.contains call.1 = false) ∧ (calls.map Prod.fst).Nodup := by
  induction calls generalizing t with
  | nil =>
      simp [registerAll]
  | cons call calls ih =>
      have hfirst : (t.register call.1 call.2).1 = none ↔ t.contains call.1 = false := by
        rw [register_fst]
        cases t.contains call.1 <;> simp
      have hothers (other : Text) : (t.register call.1 call.2).2.contains other = false ↔
          call.1 ≠ other ∧ t.contains other = false := by
        rw [← Bool.not_eq_true, contains_register, not_or, Bool.not_eq_true]
      simp only [registerAll, List.forall_mem_cons, hfirst, ih, hothers, List.map_cons,
        List.nodup_cons, List.mem_map]
      constructor
      · rintro ⟨hcall, hcalls, hnodup⟩
        refine ⟨⟨hcall, fun other hother => (hcalls other hother).2⟩, ?_, hnodup⟩
        rintro ⟨other, hother, heq⟩
        exact (hcalls other hother).1 heq.symm
      · rintro ⟨⟨hcall, hcalls⟩, hnew, hnodup⟩
        refine ⟨hcall, fun other hother => ⟨?_, hcalls other hother⟩, hnodup⟩
        intro heq
        exact hnew ⟨other, hother, heq.symm⟩

theorem mem_keywords_iff (keyword : Text) :
    keyword ∈ t.keywords ↔ t.contains keyword = true := by
  rw [contains, get?, List.lookup_isSome_iff, keywords, List.mem_map]
  constructor
  · rintro ⟨e, he, rfl⟩
    exact ⟨e, he, beq_self_eq_true e.1⟩
  · rintro ⟨e, he, heq⟩
    exact ⟨e, he, (beq_iff_eq.mp heq).symm⟩

/-- The keywords increase by the bytes of their UTF-8 encoding. -/
theorem keywords_increasing :
    t.keywords.Pairwise (fun k l => k.utf8 < l.utf8) := by
  rw [keywords, List.pairwise_map]
  exact t.ordered.imp (fun h => (Text.utf8_lt_iff _ _).mpr h)

theorem nodup_keywords :
    t.keywords.Nodup := by
  refine t.keywords_increasing.imp ?_
  rintro k l h rfl
  exact List.lt_irrefl _ h

theorem isEmpty_iff :
    t.isEmpty = true ↔ t.keywords = [] := by
  rw [isEmpty, List.isEmpty_iff, keywords, List.map_eq_nil_iff]

end Contents

/-! ## Runs -/

section Run

variable (calls : List (Text × α))

theorem contains_registerAll_empty (keyword : Text) :
    ((empty : KeywordTable α).registerAll calls).2.contains keyword = true ↔
      keyword ∈ calls.map Prod.fst := by
  rw [contains_registerAll]
  simp [contains]

theorem mem_keywords_registerAll_empty (keyword : Text) :
    keyword ∈ ((empty : KeywordTable α).registerAll calls).2.keywords ↔
      keyword ∈ calls.map Prod.fst := by
  rw [mem_keywords_iff, contains_registerAll_empty]

/-- A keyword is counted once, however often it is registered. -/
theorem size_registerAll_empty :
    ((empty : KeywordTable α).registerAll calls).2.size = (calls.map Prod.fst).toFinset.card := by
  obtain ⟨t, ht⟩ : ∃ t, ((empty : KeywordTable α).registerAll calls).2 = t := ⟨_, rfl⟩
  have hsame : t.keywords.toFinset = (calls.map Prod.fst).toFinset := by
    ext keyword
    rw [List.mem_toFinset, List.mem_toFinset, ← ht, mem_keywords_registerAll_empty]
  rw [ht, ← hsame, List.toFinset_card_of_nodup t.nodup_keywords, keywords, List.length_map, size]

theorem isEmpty_registerAll_empty :
    ((empty : KeywordTable α).registerAll calls).2.isEmpty = true ↔ calls = [] := by
  rw [isEmpty_iff, List.eq_nil_iff_forall_not_mem]
  simp only [mem_keywords_registerAll_empty]
  rw [← List.eq_nil_iff_forall_not_mem, List.map_eq_nil_iff]

/-- The complaints are about the calls that come again with a keyword. -/
theorem answers_registerAll_empty (i : Nat) :
    ((empty : KeywordTable α).registerAll calls).1[i]? = calls[i]?.map (fun call =>
      if call.1 ∈ (calls.take i).map Prod.fst then some ⟨call.1⟩ else none) := by
  simp only [getElem?_registerAll, register_fst, contains_registerAll_empty]

/-- A run is answered by a complaint for each keyword of an earlier call, and leaves the finite
map of the last values, with its keywords in the order of their bytes. -/
theorem registerAll_isFiniteMap :
    let run := (empty : KeywordTable α).registerAll calls
    (∀ i : Nat, run.1[i]? = calls[i]?.map (fun call =>
      if call.1 ∈ (calls.take i).map Prod.fst then some ⟨call.1⟩ else none)) ∧
    (∀ k, run.2.get? k = lastValue? k calls) ∧
    (∀ k, run.2.get? k = none ↔ k ∉ calls.map Prod.fst) ∧
    (∀ k, run.2.contains k = (run.2.get? k).isSome) ∧
    (∀ k, run.2.contains k = true ↔ k ∈ calls.map Prod.fst) ∧
    run.2.keywords.Pairwise (fun k l => k.utf8 < l.utf8) ∧
    (∀ k, k ∈ run.2.keywords ↔ k ∈ calls.map Prod.fst) ∧
    run.2.size = (calls.map Prod.fst).toFinset.card ∧
    (run.2.isEmpty = true ↔ calls = []) := by
  have hget (k : Text) :
      ((empty : KeywordTable α).registerAll calls).2.get? k = lastValue? k calls := by
    rw [get?_registerAll, get?_empty, Option.or_none]
  refine ⟨answers_registerAll_empty calls, hget, ?_, fun k => contains_eq_isSome k _,
    contains_registerAll_empty calls, keywords_increasing _,
    mem_keywords_registerAll_empty calls, size_registerAll_empty calls,
    isEmpty_registerAll_empty calls⟩
  intro k
  rw [hget, ← isSome_lastValue?_iff, Bool.not_eq_true, Option.isSome_eq_false_iff,
    Option.isNone_iff_eq_none]

/-- The second call of a keyword is complained about and counts all the same. -/
example :
    let run := (empty : KeywordTable Nat).registerAll
      [("été".toList, 1), ("route".toList, 2), ("été".toList, 3)]
    run.1 = [none, none, some ⟨"été".toList⟩] ∧
      run.2.entries = [("route".toList, 2), ("été".toList, 3)] := by
  decide +kernel

end Run

end KeywordTable

/-! ## The table of the directives -/

/-- No two directives share a keyword, so their table is filled without complaint. -/
theorem Directive.registerAll_keywords :
    let run := (KeywordTable.empty : KeywordTable Directive).registerAll
      (all.map (fun d => (d.keyword, d)))
    (∀ answer ∈ run.1, answer = none) ∧ run.2 = table := by
  refine ⟨(KeywordTable.answers_eq_none_iff _ _).mpr ⟨fun _ _ => rfl, ?_⟩,
    KeywordTable.registerAll_snd _⟩
  rw [List.map_map]
  exact List.Nodup.map (fun _ _ h => keyword_injective h) (by decide)

end PageTemplate
