import PageTemplate.Descriptor
import PageTemplate.KeywordTable

/-!
# Directives

A directive is chosen by the keyword after an `@`.

**Results.**
* `get?_table_eq_some_iff`: the table leads from each keyword to its directive, and
  from nothing else to any.
* `keyword_injective`: two directives never share a keyword.
-/

namespace PageTemplate

/-- What the author of a template can ask for. -/
inductive Directive
  /-- `@inherits <type>` names the base class. -/
  | inherits
  /-- `@model <type>` names the model. -/
  | model
  /-- `@inject <type> <name>` asks for a property. -/
  | inject
  /-- `@route <pattern>`, or `@http<verb> <pattern>` for one request method. -/
  | route (verb : Option Verb)
  deriving DecidableEq, Repr, Inhabited

namespace Directive

/-- The keyword of the route directive for a request method, or for all of them. -/
def routeKeyword : Option Verb → Text
  | none => "route".toList
  | some .get => "httpget".toList
  | some .put => "httpput".toList
  | some .post => "httppost".toList
  | some .delete => "httpdelete".toList
  | some .patch => "httppatch".toList

/-- The keyword that chooses the directive. -/
def keyword : Directive → Text
  | inherits => "inherits".toList
  | model => "model".toList
  | inject => "inject".toList
  | route verb => routeKeyword verb

/-- All directives. -/
def all : List Directive :=
  [inherits, model, inject, route none] ++ Verb.all.map (fun v => route (some v))

/-- The directives by keyword. -/
def table : KeywordTable Directive :=
  KeywordTable.ofList (all.map (fun d => (d.keyword, d)))

theorem mem_all (d : Directive) : d ∈ all := by
  rcases d with _ | _ | _ | (_ | v)
  · simp [all]
  · simp [all]
  · simp [all]
  · simp [all]
  · exact List.mem_append_right _ (List.mem_map_of_mem v.mem_all)

theorem get?_table_keyword (d : Directive) : table.get? d.keyword = some d := by
  rcases d with _ | _ | _ | (_ | v)
  · decide
  · decide
  · decide
  · decide
  · cases v <;> decide

theorem keyword_of_mem_entries :
    ∀ e ∈ table.entries, e.2.keyword = e.1 := by
  decide

/-- The table knows each directive by its keyword, and nothing else. -/
theorem get?_table_eq_some_iff (k : Text) (d : Directive) :
    table.get? k = some d ↔ d.keyword = k := by
  constructor
  · intro h
    obtain ⟨before, after, hentries, -⟩ := List.lookup_eq_some_iff.mp h
    exact keyword_of_mem_entries (k, d) (by simp [hentries])
  · rintro rfl
    exact get?_table_keyword d

theorem keyword_injective {d e : Directive} (h : d.keyword = e.keyword) : d = e := by
  have hd := get?_table_keyword d
  rw [h, get?_table_keyword] at hd
  exact (Option.some.inj hd).symm

end Directive

end PageTemplate
