import PageTemplate.Settings.Basic
import PageTemplate.Toml.Document

/-!
# Settings in TOML

The settings stand in the table `parser`: the base class under `base_type`, design
time under `design_time`.  What is not given keeps its standard value, and other
entries have no meaning, but their numbers must be of a size that programs can hold.
In the place of the table there may be a list of the two values in this order; what
follows them in the list may be any value, with numbers of any size or unreadable ones.

**Results.**
* `check_of_ofToml`: the settings that a document gives can be used.
-/

namespace PageTemplate
namespace Settings

open Toml (Entries Value)

/-- The settings after an entry of their table. -/
def applyEntry? (s : Settings) (key : Text) (value : Value) : Option Settings :=
  if key = "base_type".toList then
    match value with
    | .text t => some (s.withBaseType t)
    | _ => none
  else if key = "design_time".toList then
    match value with
    | .boolean b => some (s.withDesignTime b)
    | _ => none
  else if value.inRange then some s
  else none

/-- The settings after the entries of their table. -/
def applyEntries? (s : Settings) : Entries → Option Settings
  | [] => some s
  | (key, value) :: rest =>
      match s.applyEntry? key value with
      | some s => s.applyEntries? rest
      | none => none

/-- The settings that a list gives by the places of its items. -/
def ofItems? : List Value → Option Settings
  | [] => some standard
  | [.text t] => some (standard.withBaseType t)
  | .text t :: .boolean b :: _ => some ((standard.withBaseType t).withDesignTime b)
  | _ => none

/-- The settings that a value gives. -/
def ofValue? : Value → Option Settings
  | .table _ entries => standard.applyEntries? entries
  | .array items => ofItems? items
  | .moment => some standard
  | _ => none

/-- The settings that the entries of a document give, after those given before. -/
def ofEntries? (s : Settings) : Entries → Option Settings
  | [] => some s
  | (key, value) :: rest =>
      if key = "parser".toList then
        match ofValue? value with
        | some s => ofEntries? s rest
        | none => none
      else if value.inRange then ofEntries? s rest
      else none

/-- The settings that a TOML document gives. -/
def ofToml (source : Text) : Except SettingsError Settings :=
  match (Toml.entries? source).bind (ofEntries? standard) with
  | none => .error .malformed
  | some s =>
      match s.check with
      | .error e => .error e
      | .ok () => .ok s

theorem check_of_ofToml {source : Text} {s : Settings} (h : ofToml source = .ok s) :
    s.check = .ok () := by
  unfold ofToml at h
  split at h
  · cases h
  · next s' _ =>
      split at h
      · cases h
      · next hcheck =>
          cases h
          exact hcheck

end Settings
end PageTemplate
