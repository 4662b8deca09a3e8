import PageTemplate.Reader.Document
import PageTemplate.Settings.Basic

/-!
# Reading templates

**Input.**  The text of a template and the settings.

**Results.**
* `readTemplate_eq`: a template is read by reading all of its document.
* `exists_readTemplate_eq_ok`: every template can be read.
-/

namespace PageTemplate

namespace Reader

/-- The reader at the start of a template. -/
def ofSource (settings : Settings) (source : Text) : Reader :=
  ofSlicer settings.baseType (Slicer.ofSource settings.designTime source)

end Reader

/-- Everything that comes out of a template. -/
def readTemplate (settings : Settings) (source : Text) : Except UnexpectedDirective Results :=
  match (Reader.ofSource settings source).readAll with
  | .error e => .error e
  | .ok r => .ok r.results

theorem readTemplate_eq (settings : Settings) (source : Text) :
    readTemplate settings source = (Reader.ofSource settings source).readAll.map Reader.results := by
  unfold readTemplate
  cases (Reader.ofSource settings source).readAll <;> rfl

/-- Every template has results. -/
theorem exists_readTemplate_eq_ok (settings : Settings) (source : Text) :
    ∃ results, readTemplate settings source = .ok results := by
  obtain ⟨r, h⟩ := Reader.exists_readAll_eq_ok (Reader.ofSource settings source)
  exact ⟨r.results, by rw [readTemplate_eq, h]; rfl⟩

end PageTemplate
