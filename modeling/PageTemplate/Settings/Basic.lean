import PageTemplate.Text.Blank

/-!
# Settings

What a caller can choose about the reading of templates.

**Results.**
* `check_eq_ok_iff`: settings pass exactly when the base class is not blank.
* `check_standard`: the standard settings pass.
-/

namespace PageTemplate

/-- The choices of a caller. -/
structure Settings where
  /-- The base class of pages that name none. -/
  baseType : Text
  /-- Whether the line end of a directive is left to the markup after it, as editors
  that read single lines want it. -/
  designTime : Bool
  deriving DecidableEq, Repr, Inhabited

/-- Why there are no usable settings. -/
inductive SettingsError
  /-- There is no file of the given path. -/
  | notFound (path : Text)
  /-- The file has no text. -/
  | unreadable
  /-- The text is no TOML, or its values are of the wrong kind. -/
  | malformed
  /-- The base class is blank. -/
  | blankBaseType
  deriving DecidableEq, Repr, Inhabited

/-- The sentence that describes the error. -/
def SettingsError.message : SettingsError → String
  | notFound path => s!"Configuration file not found: {String.ofList path}"
  | unreadable => "I/O error: the file holds no text"
  | malformed => "TOML parse error: the text holds no settings"
  | blankBaseType => "Configuration error: parser.base_type cannot be empty"

namespace Settings

/-- The base class where none is chosen. -/
def standardBaseType : Text :=
  "TemplatePage".toList

/-- The settings where nothing is chosen. -/
def standard : Settings :=
  ⟨standardBaseType, false⟩

/-- The settings with another base class. -/
def withBaseType (baseType : Text) (s : Settings) : Settings :=
  { s with baseType := baseType }

/-- The settings with or without design time. -/
def withDesignTime (designTime : Bool) (s : Settings) : Settings :=
  { s with designTime := designTime }

/-- Succeeds if the settings can be used. -/
def check (s : Settings) : Except SettingsError Unit :=
  if (Text.trim s.baseType).isEmpty then .error .blankBaseType else .ok ()

/-- A base class passes when something of it is not blank. -/
theorem check_eq_ok_iff (s : Settings) :
    s.check = .ok () ↔ ∃ c ∈ s.baseType, Text.isBlank c = false := by
  have h := Text.trim_eq_nil_iff s.baseType
  unfold check
  split
  · next hempty =>
      have hall := h.mp (by simpa using hempty)
      simp only [reduceCtorEq, false_iff]
      rintro ⟨c, hc, hblank⟩
      simp [hall c hc] at hblank
  · next hempty =>
      simp only [true_iff]
      apply Classical.byContradiction
      intro hnone
      refine hempty ?_
      rw [h.mpr]
      · rfl
      · intro c hc
        cases hb : Text.isBlank c with
        | true => rfl
        | false => exact absurd ⟨c, hc, hb⟩ hnone

theorem check_standard : standard.check = .ok () :=
  (check_eq_ok_iff standard).mpr ⟨'T', by decide, by decide⟩

end Settings

end PageTemplate
