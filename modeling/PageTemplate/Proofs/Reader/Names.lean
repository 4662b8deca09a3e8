import PageTemplate.Proofs.Reader.Origin

/-!
# Names that are missing without a report

A name is reported missing when no token stands where it should.  A blank that is neither
space nor tab nor part of a line end is a token of its own, so it passes for a name, and then
it is trimmed off.

**Input.**  The line of a directive on which nothing is reported missing.

**Results.**
* `mem_reports_of_mem_faults`: the mistakes of every line are reported.
* `trailsOff_of_blank`: blanks where a name was found start with such a blank.
* `named_or_trailsOff`: a line without mistakes has its names or such blanks.
* `readTemplate_names`: without a report every name is there, or such blanks are.
* `readTemplate_names_of_blank`: a name that is missing without a report.
-/

namespace PageTemplate

open Token (line splitSpace isSpacing staysOnLine textOf)
open Text (AllBlank)

/-! ## Names -/

namespace Descriptor

/-- The names that the author of the template has to give. -/
def names : Descriptor → List Text
  | setBaseType baseType => [baseType]
  | model _ modelType => [modelType]
  | inject typeName propertyName => [typeName, propertyName]
  | route _ _ => []

/-- Whether no name is empty. -/
def Named (d : Descriptor) : Prop :=
  ∀ name ∈ d.names, name ≠ []

end Descriptor

/-! ## Blanks that pass for names -/

/-- Whether the tokens end with blanks of which the first is not spacing but a token of its
own. -/
def Token.TrailsOff (ts : List Token) : Prop :=
  ∃ front t back, ts = front ++ t :: back ∧ t.kind = .other ∧ AllBlank (textOf (t :: back))

namespace Token

theorem TrailsOff.append_left
    {us : List Token} (h : TrailsOff us) (ts : List Token) :
    TrailsOff (ts ++ us) := by
  obtain ⟨front, t, back, rfl, hkind, hblank⟩ := h
  exact ⟨ts ++ front, t, back, (List.append_assoc _ _ _).symm, hkind, hblank⟩

/-- Blanks behind them do not keep tokens from trailing off. -/
theorem TrailsOff.append_right
    {ts us : List Token} (h : TrailsOff ts) (hus : AllBlank (textOf us)) :
    TrailsOff (ts ++ us) := by
  obtain ⟨front, t, back, rfl, hkind, hblank⟩ := h
  refine ⟨front, t, back ++ us, by simp, hkind, ?_⟩
  rw [← List.cons_append, textOf_append, Text.allBlank_append]
  exact ⟨hblank, hus⟩

/-- Blanks that do not start with spacing or a line end start with a token of their own. -/
theorem trailsOff_of_blank
    {l : Location} {text : Text} {ts : List Token}
    (h : ts ⊆ tokensFrom l text) (hend : atLineEnd ts = false)
    (hspacing : ∀ t, ts.head? = some t → isSpacing false true t = false)
    (hblank : AllBlank (textOf ts)) :
    TrailsOff ts := by
  cases ts with
  | nil =>
      cases hend
  | cons t ts =>
      refine ⟨[], t, ts, rfl, ?_, hblank⟩
      rw [textOf_cons, Text.allBlank_append] at hblank
      rcases kind_of_allBlank (h List.mem_cons_self) hblank.1 with hkind | hkind | hkind
      · have hspace := hspacing t rfl
        simp [isSpacing, hkind] at hspace
      · simp [atLineEnd, hkind] at hend
      · exact hkind

theorem kind_of_mem_dropWhile_line
    {designTime : Bool} {ts : List Token} {t : Token}
    (h : t ∈ (line designTime ts).dropWhile staysOnLine) :
    t.kind = .newLine := by
  induction ts with
  | nil =>
      cases h
  | cons u ts ih =>
      unfold line at h
      split at h
      · next hkind =>
          split at h
          · cases h
          · have hmem := List.dropWhile_subset _ h
            rw [List.mem_singleton] at hmem
            rw [hmem, hkind]
      · next hkind =>
          rw [List.dropWhile_cons_of_pos (by simpa [staysOnLine] using hkind)] at h
          exact ih h

/-- What a line has behind its last token that stays on it is blank. -/
theorem allBlank_dropWhile_line
    {l : Location} {text : Text} {designTime : Bool} {ts : List Token}
    (h : line designTime ts ⊆ tokensFrom l text) :
    AllBlank (textOf ((line designTime ts).dropWhile staysOnLine)) := by
  intro c hc
  obtain ⟨t, ht, hc⟩ := List.mem_flatMap.mp hc
  have hmem := h (List.dropWhile_subset _ ht)
  exact allBlank_of_newLine hmem (kind_of_mem_dropWhile_line ht) c hc

theorem head?_takeWhile_staysOnLine
    {ts : List Token} (h : atLineEnd ts = false) :
    (ts.takeWhile staysOnLine).head? = ts.head? := by
  cases ts with
  | nil =>
      rfl
  | cons t ts =>
      have hkind : staysOnLine t = true := by simpa [atLineEnd, staysOnLine] using h
      rw [List.takeWhile_cons_of_pos hkind, List.head?_cons, List.head?_cons]

/-- An identifier is never blank. -/
theorem not_allBlank_of_identifier
    {l : Location} {text : Text} {t : Token}
    (h : t ∈ tokensFrom l text) (hkind : t.kind = .identifier) :
    ¬ AllBlank t.content := by
  intro hblank
  have hkinds := kind_of_allBlank h hblank
  simp [hkind] at hkinds

end Token

/-! ## Reports -/

/-- The mistakes of each line are among the reports, whatever the history. -/
theorem mem_reports_of_mem_faults
    {ps : List Passage} {mark : Token} {l : DirectiveLine} {d : Diagnostic}
    (hl : .directive mark l ∈ ps) (hd : d ∈ l.faults) (h : History) :
    d ∈ h.reports ps := by
  induction ps generalizing h with
  | nil =>
      cases hl
  | cons p ps ih =>
      rw [History.reports, List.mem_append]
      rcases List.mem_cons.mp hl with rfl | hl
      · left
        rw [Passage.reports]
        exact List.mem_append_left _ hd
      · right
        exact ih hl (p.record h)

namespace DirectiveLine

/-! ## One line -/

/-- Behind its spacing a line has its type, a gap, its property and its line end. -/
theorem afterSpacing_eq_append
    (l : DirectiveLine) :
    l.afterSpacing =
      l.typeName ++ (l.afterType.takeWhile (isSpacing false true) ++
        (l.property ++ l.afterGap.dropWhile staysOnLine)) := by
  rw [property, List.takeWhile_append_dropWhile, afterGap, List.takeWhile_append_dropWhile,
    typeName, afterType, List.take_append_drop]

section Read

variable {place final : Location} {text : Text} {d : Directive} {designTime : Bool} {k : Token}
  {ts : List Token} {l : DirectiveLine} (hl : l = read d designTime final k ts)
include hl

/-- The last span goes on with what follows the white space and comments. -/
theorem argument_eq_append :
    l.argument = (splitSpace (ts.takeWhile (isSpacing false true))).2 ++ l.afterSpacing := by
  rw [hl, afterSpacing_read]
  exact congrArg Prod.snd (Token.splitSpace_line designTime ts)

variable (h : ts ⊆ Token.tokensFrom place text)
include h

theorem afterSpacing_subset :
    l.afterSpacing ⊆ Token.tokensFrom place text := by
  rw [hl]
  exact List.Subset.trans (List.dropWhile_subset _)
    (List.Subset.trans (Token.line_subset designTime ts) h)

theorem afterGap_subset :
    l.afterGap ⊆ Token.tokensFrom place text :=
  List.Subset.trans (List.dropWhile_subset _)
    (List.Subset.trans (List.drop_subset _ _) (afterSpacing_subset hl h))

/-- A line that goes on after its spacing names a type, or blanks are there. -/
theorem trim_argument_or_trailsOff
    (hend : Token.atLineEnd l.afterSpacing = false) :
    Text.trim (textOf l.argument) ≠ [] ∨ Token.TrailsOff l.argument := by
  by_cases hblank : AllBlank (textOf l.argument)
  · right
    rw [argument_eq_append hl, Token.textOf_append, Text.allBlank_append] at hblank
    have htrails := Token.trailsOff_of_blank (afterSpacing_subset hl h) hend
      (fun _ => Token.eq_false_of_head?_dropWhile) hblank.2
    rw [argument_eq_append hl]
    exact htrails.append_left _
  · left
    exact fun hnil => hblank ((Text.trim_eq_nil_iff _).mp hnil)

/-- A type name has the identifier that it starts with. -/
theorem trim_typeName_ne_nil
    (hname : Token.atIdentifier l.afterSpacing = true) :
    Text.trim (textOf l.typeName) ≠ [] := by
  obtain ⟨t, hhead, hkind⟩ := (Option.any_eq_true _ _).mp hname
  obtain ⟨rest, hrest⟩ := List.head?_eq_some_iff.mp hhead
  have ht : t ∈ Token.tokensFrom place text :=
    afterSpacing_subset hl h (List.mem_of_mem_head? hhead)
  have hpos : 0 < TypeName.length l.afterSpacing := TypeName.length_pos hname
  obtain ⟨n, hn⟩ := Nat.exists_eq_succ_of_ne_zero (Nat.ne_of_gt hpos)
  intro hnil
  rw [Text.trim_eq_nil_iff, typeName, hn, hrest, List.take_succ_cons, Token.textOf_cons] at hnil
  have hblank := (Text.allBlank_append _ _).mp hnil
  exact Token.not_allBlank_of_identifier ht (of_decide_eq_true hkind) hblank.1

/-- A line that goes on after its type name names a property, or blanks are there. -/
theorem trim_property_or_trailsOff
    (hend : Token.atLineEnd l.afterGap = false) :
    Text.trim (textOf l.property) ≠ [] ∨ Token.TrailsOff l.argument := by
  by_cases hblank : AllBlank (textOf l.property)
  · right
    have hhead : l.property.head? = l.afterGap.head? := Token.head?_takeWhile_staysOnLine hend
    have hsubset : l.property ⊆ Token.tokensFrom place text :=
      List.Subset.trans (List.takeWhile_subset _) (afterGap_subset hl h)
    have htrails : Token.TrailsOff l.property := by
      refine Token.trailsOff_of_blank hsubset ?_ ?_ hblank
      · rw [← hend, Token.atLineEnd, Token.atLineEnd, hhead]
      · rw [hhead]
        exact fun _ => Token.eq_false_of_head?_dropWhile
    have hlast : AllBlank (textOf (l.afterGap.dropWhile staysOnLine)) := by
      have hsubset := afterGap_subset hl h
      rw [hl, afterGap_read] at hsubset ⊢
      exact Token.allBlank_dropWhile_line hsubset
    rw [argument_eq_append hl, afterSpacing_eq_append]
    exact (((htrails.append_right hlast).append_left _).append_left _).append_left _
  · left
    exact fun hnil => hblank ((Text.trim_eq_nil_iff _).mp hnil)

/-- A line without mistakes has its names, or blanks in the place of one. -/
theorem named_or_trailsOff
    (hfaults : l.faults = []) (baseType : Text) :
    (l.descriptor baseType).Named ∨ Token.TrailsOff l.argument := by
  unfold faults at hfaults
  unfold descriptor
  cases hd : l.directive with
  | inherits =>
      rw [hd] at hfaults
      simpa [Descriptor.Named, Descriptor.names] using
        trim_argument_or_trailsOff hl h (by simpa using hfaults)
  | model =>
      rw [hd] at hfaults
      simpa [Descriptor.Named, Descriptor.names] using
        trim_argument_or_trailsOff hl h (by simpa using hfaults)
  | inject =>
      rw [hd] at hfaults
      have hname : Token.atIdentifier l.afterSpacing = true := by
        cases hid : Token.atIdentifier l.afterSpacing with
        | true => rfl
        | false => simp [hid] at hfaults
      have htype := trim_typeName_ne_nil hl h hname
      simpa [Descriptor.Named, Descriptor.names, htype] using
        trim_property_or_trailsOff hl h (by simpa [hname] using hfaults)
  | route verb =>
      left
      simp [Descriptor.Named, Descriptor.names]

end Read
end DirectiveLine

/-- If nothing is reported missing, no name is empty, except where blanks that are tokens of
their own end the argument of the directive. -/
theorem readTemplate_names
    (settings : Settings) (source : Text) :
    ∃ results, readTemplate settings source = .ok results ∧
      ((∀ d ∈ results.diagnostics,
          d.fault ≠ .missingTypeName ∧ d.fault ≠ .missingPropertyName) →
        ∀ b ∈ results.blocks, ∀ s ∈ b.spans, ∀ descriptor, s.descriptor = some descriptor →
          descriptor.Named ∨ Token.TrailsOff s.tokens) := by
  refine ⟨_, readTemplate_eq_passages settings source, ?_⟩
  intro hnone b hb s hs descriptor hdescriptor
  obtain ⟨p, hp, rfl⟩ := List.mem_map.mp hb
  obtain ⟨mark, l, rfl, rfl, rfl⟩ := Passage.exists_of_descriptor hs hdescriptor
  obtain ⟨before, after, hsplit⟩ := List.append_of_mem hp
  obtain ⟨rest, htokens, hread, -⟩ := exists_read_of_passages_eq hsplit
  have hrest : rest ⊆ Token.tokenize source := by
    rw [htokens]
    intro t ht
    simp [ht]
  have hfaults : l.faults = [] := by
    refine List.eq_nil_iff_forall_not_mem.mpr ?_
    intro d hd
    obtain ⟨htype, hproperty⟩ := hnone d (mem_reports_of_mem_faults hp hd _)
    rcases DirectiveLine.fault_of_mem_faults hd with hfault | hfault
    · exact htype hfault
    · exact hproperty hfault
  exact DirectiveLine.named_or_trailsOff hread hrest hfaults settings.baseType

/-- A blank that is a token of its own passes for the name of a model. -/
theorem readTemplate_names_of_blank :
    ∃ results, readTemplate Settings.standard "@model \u00a0\n".toList = .ok results ∧
      results.diagnostics = [] ∧
      results.descriptors = [.model Settings.standardBaseType []] := by
  obtain ⟨results, hread⟩ := exists_readTemplate_eq_ok Settings.standard "@model \u00a0\n".toList
  have houtcome :
      (readTemplate Settings.standard "@model \u00a0\n".toList).toOption.map
        (fun results => (results.diagnostics, results.descriptors)) =
          some ([], [.model Settings.standardBaseType []]) := by
    decide +kernel
  rw [hread] at houtcome
  obtain ⟨hdiagnostics, hdescriptors⟩ := Prod.mk.inj (Option.some.inj houtcome)
  exact ⟨results, hread, hdiagnostics, hdescriptors⟩

end PageTemplate
