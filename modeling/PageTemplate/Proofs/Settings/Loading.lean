import PageTemplate.Settings.File
import PageTemplate.Proofs.Reader.Origin
import PageTemplate.Proofs.Reader.Shape

/-!
# Settings that are loaded

Settings from a file have passed their check, whatever the file says, so a page that asks for a
model never derives from a blank class.

**Results.**
* `ofToml_eq_standard`: a document without the table `parser` gives the standard settings.
* `check_of_load`: the settings of a file can be used.
* `readTemplate_of_load`: no model is given to a blank base class.
-/

namespace PageTemplate
namespace Settings

open Toml (Entries)

/-- Entries under other keys than `parser` have no meaning. -/
theorem ofEntries?_of_absent
    {entries : Entries} (habsent : ∀ e ∈ entries, e.1 ≠ "parser".toList)
    (hrange : ∀ e ∈ entries, e.2.inRange = true) (s : Settings) :
    ofEntries? s entries = some s := by
  induction entries with
  | nil =>
      rfl
  | cons e entries ih =>
      obtain ⟨hkey, habsent⟩ := List.forall_mem_cons.mp habsent
      obtain ⟨hvalue, hrange⟩ := List.forall_mem_cons.mp hrange
      rw [ofEntries?, if_neg hkey, if_pos hvalue]
      exact ih habsent hrange

/-- Without the table `parser` nothing is chosen. -/
theorem ofToml_eq_standard
    {source : Text} {entries : Entries} (hentries : Toml.entries? source = some entries)
    (habsent : ∀ e ∈ entries, e.1 ≠ "parser".toList)
    (hrange : ∀ e ∈ entries, e.2.inRange = true) :
    ofToml source = .ok standard := by
  rw [ofToml, hentries, Option.bind_some, ofEntries?_of_absent habsent hrange]
  simp only [check_standard]

/-- The settings of a file are those of the document in it. -/
theorem exists_ofToml_of_load
    {root : FileTree} {working : List Text} {path : Text} {s : Settings}
    (h : load root working path = .ok s) :
    ∃ source, ofToml source = .ok s := by
  unfold load at h
  split at h
  · cases h
  · cases h
  · next bytes _ =>
      unfold ofBytes at h
      split at h
      · next source _ =>
          exact ⟨source.toList, h⟩
      · cases h

/-- There is no way around the check. -/
theorem check_of_load
    {root : FileTree} {working : List Text} {path : Text} {s : Settings}
    (h : load root working path = .ok s) :
    s.check = .ok () := by
  obtain ⟨source, hsource⟩ := exists_ofToml_of_load h
  exact check_of_ofToml hsource

end Settings

/-- The base class of a model is the one that was chosen. -/
theorem baseType_of_mem_descriptors
    {settings : Settings} {source : Text} {results : Results} {base model : Text}
    (hread : readTemplate settings source = .ok results)
    (hmem : .model base model ∈ results.descriptors) :
    base = settings.baseType := by
  rw [readTemplate_eq_passages] at hread
  cases hread
  obtain ⟨s, hs, hdescriptor⟩ := List.mem_filterMap.mp hmem
  obtain ⟨b, hb, hs⟩ := List.mem_flatMap.mp hs
  obtain ⟨p, -, rfl⟩ := List.mem_map.mp hb
  obtain ⟨mark, l, -, -, hmodel⟩ := Passage.exists_of_descriptor hs hdescriptor
  have hanswers := l.answers_descriptor settings.baseType
  rw [← hmodel] at hanswers
  cases hdirective : l.directive with
  | model =>
      rw [hdirective] at hanswers
      exact hanswers
  | inherits =>
      rw [hdirective] at hanswers
      cases hanswers
  | inject =>
      rw [hdirective] at hanswers
      cases hanswers
  | route verb =>
      rw [hdirective] at hanswers
      cases hanswers

/-- With settings from a file, no page applies a blank base class to its model. -/
theorem readTemplate_of_load
    {root : FileTree} {working : List Text} {path : Text} {settings : Settings}
    (hload : Settings.load root working path = .ok settings) (source : Text) :
    ∃ results, readTemplate settings source = .ok results ∧
      ∀ base model, .model base model ∈ results.descriptors →
        ∃ c ∈ base, Text.isBlank c = false := by
  obtain ⟨results, hread⟩ := exists_readTemplate_eq_ok settings source
  refine ⟨results, hread, ?_⟩
  intro base model hmem
  rw [baseType_of_mem_descriptors hread hmem]
  exact (Settings.check_eq_ok_iff settings).mp (Settings.check_of_load hload)

end PageTemplate
