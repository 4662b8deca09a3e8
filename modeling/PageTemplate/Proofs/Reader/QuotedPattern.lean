import PageTemplate.Proofs.Reader.WrittenLine

/-!
# Patterns in quotes

The pattern of a route that is written in quotes is read as it is written, whatever stands
between the quotes: marks of comments and directives mean nothing there, and spaces stay.

**Input.**  A line with `@`, the keyword of a route, spaces or tabs, and a pattern in quotes; and
any text behind it.

**Algorithm.**  The pattern with its quotes is one token.  What is trimmed off stands outside the
quotes, and then one pair of them is removed.

**Results.**
* `Text.cutsInto_quoted`: a text in quotes is one token.
* `DirectiveLine.read_quoted`, `oneDirective_quoted`: the line asks for the pattern.
* `OneDirective.descriptors_append`: what is asked for in a line and behind it.
* `readTemplate_of_quoted`: the pattern is asked for as it is written.
-/

namespace PageTemplate

open Text (AllBlank Stops)
open Token (KeepsOpen textOf)
open PageTemplate.TypeName (CutsInto Single)

/-! ## Texts in quotes -/

namespace Text

/-- The text between two quotes. -/
def quoted (t : Text) : Text :=
  '"' :: (t ++ ['"'])

/-- Whether the text has no quote, no backslash and no character of a line end. -/
def IsPlain (t : Text) : Prop :=
  ∀ c ∈ t, c ≠ '"' ∧ c ≠ '\\' ∧ c ≠ '\r' ∧ c ≠ '\n'

instance (t : Text) : Decidable (IsPlain t) :=
  decidable_of_iff (t.all (fun c => decide (c ≠ '"' ∧ c ≠ '\\' ∧ c ≠ '\r' ∧ c ≠ '\n')) = true)
    (by simp only [List.all_eq_true, decide_eq_true_eq, IsPlain])

variable {t : Text}

/-- A plain text neither ends a literal nor its line. -/
theorem IsPlain.keepsOpen (h : IsPlain t) :
    KeepsOpen t := by
  rintro before c after rfl hc
  obtain ⟨hquote, -, hreturn, hfeed⟩ := h c (by simp)
  exact absurd hc (by simp [hquote, hreturn, hfeed])

theorem IsPlain.protects_eq_false (h : IsPlain t) :
    protects t = false := by
  rcases List.eq_nil_or_concat t with rfl | ⟨t, c, rfl⟩
  · rfl
  · rw [List.concat_eq_append] at h ⊢
    rw [protects_concat, decide_eq_false (h c (by simp)).2.1, Bool.false_and]

/-- A text in quotes is one token, whatever follows it. -/
theorem cutsInto_quoted (h : IsPlain t) :
    CutsInto (fun _ => false) (Single .stringLiteral (quoted t)) (quoted t) :=
  TypeName.cutsInto_of_fits (fun _ _ => .literal h.keepsOpen h.protects_eq_false)

theorem stops_quoted (t rest : Text) :
    Stops Token.isSpaceOrTab (quoted t ++ rest) :=
  stops_cons (by decide) _

/-- Blanks between the quotes are not trimmed off. -/
theorem trim_quoted (t : Text) :
    trim (quoted t) = quoted t := by
  refine trim_of_ends ?_ ?_
  · rintro _ ⟨⟩
    decide
  · intro c hc
    rw [quoted, ← List.cons_append, List.getLast?_concat, Option.some.injEq] at hc
    subst hc
    decide

end Text

open Text (quoted)

/-! ## Routes -/

/-- A pattern in quotes is read without its quotes, and nothing is missed. -/
theorem DirectiveLine.read_quoted
    {k space literal last : Token} {p : Text}
    (hspace : space.kind = .whiteSpace)
    (hliteral : literal.kind = .stringLiteral) (hcontent : literal.content = quoted p)
    (hspelled : ∀ t ∈ space :: ([literal] ++ [last]), t.Spelled)
    (hlast : last.kind = .newLine) (hblank : AllBlank last.content)
    (baseType : Text) (verb : Option Verb) (designTime : Bool) (final : Location) :
    let l := read (.route verb) designTime final k (space :: ([literal] ++ [last]))
    l.descriptor baseType = .route p verb ∧ l.faults = [] := by
  intro l
  have hopen : ∀ t ∈ [literal], t.kind ≠ .newLine := by simp [hliteral]
  have hargument : Text.trim (textOf l.argument) = quoted p := by
    rw [trim_argument_of_line hspace hopen hspelled hlast hblank, Token.textOf_cons,
      Token.textOf_nil, List.append_nil, hcontent, Text.trim_quoted]
  have hdescriptor : l.descriptor baseType =
      .route (Text.unquote (Text.trim (textOf l.argument))) verb := rfl
  refine ⟨?_, rfl⟩
  rw [hdescriptor, hargument, quoted, Text.unquote_quoted]

/-- A line with a route whose pattern is in quotes. -/
theorem oneDirective_quoted
    {gap p : Text} (hgap : IsGap gap) (hp : p.IsPlain) (baseType : Text) (verb : Option Verb) :
    OneDirective baseType
      ('@' :: ((Directive.route verb).keyword ++ (gap ++ (quoted p ++ ['\n']))))
      (.route p verb) := by
  have hpattern : CutsInto (fun _ => false) _ (quoted p ++ ['\n']) :=
    (Text.cutsInto_quoted hp).append cutsInto_newLine (fun _ _ _ _ => rfl)
  obtain ⟨mark, k, space, _, htokens, hmark, hkeyword, hspace, ⟨_, _, rfl, ⟨l, rfl⟩, ⟨m, rfl⟩⟩⟩ :=
    exists_tokenize_eq (d := .route verb) hgap hpattern
      (fun rest => by rw [List.append_assoc]; exact Text.stops_quoted p _)
  have hopen : ∀ t ∈ [space, ⟨.stringLiteral, quoted p, l⟩], t.kind ≠ .newLine := by
    simp [hspace]
  have hcut : [space, ⟨.stringLiteral, quoted p, l⟩, ⟨.newLine, ['\n'], m⟩] =
      [space, ⟨.stringLiteral, quoted p, l⟩] ++ [⟨.newLine, ['\n'], m⟩] := rfl
  have hblank : AllBlank ['\n'] := by decide
  refine .of_tokens hcut hopen rfl htokens hmark hkeyword ?_
  intro designTime final
  exact DirectiveLine.read_quoted hspace rfl rfl (Token.spelled_of_tokenize_eq htokens) rfl hblank
    baseType verb designTime final

/-- What is written in a line does not change what is asked for behind it. -/
theorem descriptors_map_behind
    (designTime : Bool) (line rest baseType : Text) :
    ((Passage.directives (Passage.ofSource designTime rest)).map
        (Transcription.behind line).passage).filterMap (Passage.descriptor? baseType) =
      (Passage.directives (Passage.ofSource designTime rest)).filterMap
        (Passage.descriptor? baseType) := by
  rw [List.filterMap_map]
  refine List.filterMap_congr ?_
  intro p hp
  exact Passage.descriptor?_behind (List.mem_filter.mp hp).1 line baseType

/-- What a line asks for comes before all that is asked for behind it. -/
theorem OneDirective.descriptors_append
    {settings : Settings} {source : Text} {descriptor : Descriptor}
    (h : OneDirective settings.baseType source descriptor) (rest : Text) :
    ∃ both after,
      readTemplate settings (source ++ rest) = .ok both ∧
      readTemplate settings rest = .ok after ∧
      both.descriptors = descriptor :: after.descriptors := by
  obtain ⟨both, hboth⟩ := exists_readTemplate_eq_ok settings (source ++ rest)
  obtain ⟨after, hafter⟩ := exists_readTemplate_eq_ok settings rest
  obtain ⟨mark, l, hdirectives, hdescriptor, -⟩ := h.directives_append settings.designTime rest
  refine ⟨both, after, hboth, hafter, ?_⟩
  rw [descriptors_of_readTemplate hboth, descriptors_of_readTemplate hafter, hdirectives,
    List.filterMap_cons_some (b := descriptor), descriptors_map_behind]
  exact congrArg some hdescriptor

/-- A pattern that is written in quotes behind the keyword of a route is asked for as it is
written, before all that is asked for behind the line. -/
theorem readTemplate_of_quoted
    {gap p : Text} (hgap : IsGap gap) (hp : p.IsPlain)
    (settings : Settings) (verb : Option Verb) (rest : Text) :
    ∃ both after,
      readTemplate settings
        ("@".toList ++ Directive.routeKeyword verb ++ gap ++ ['"'] ++ p ++ ['"'] ++ ['\n'] ++
          rest) = .ok both ∧
      readTemplate settings rest = .ok after ∧
      both.descriptors = .route p verb :: after.descriptors := by
  have hline : "@".toList ++ Directive.routeKeyword verb ++ gap ++ ['"'] ++ p ++ ['"'] ++ ['\n'] =
      '@' :: ((Directive.route verb).keyword ++ (gap ++ (quoted p ++ ['\n']))) := by
    have hmark : "@".toList = ['@'] := rfl
    have hkeyword : (Directive.route verb).keyword = Directive.routeKeyword verb := rfl
    simp only [hmark, hkeyword, quoted, List.append_assoc, List.cons_append, List.nil_append]
  rw [hline]
  exact (oneDirective_quoted hgap hp settings.baseType verb).descriptors_append rest

/-- Between the quotes stand the marks of comments and of a directive, and spaces at both ends. -/
theorem readTemplate_of_quoted_httpget :
    IsGap " \t".toList ∧ Text.IsPlain " //@model /* ".toList ∧
      ∃ both,
        readTemplate (Settings.standard.withDesignTime true)
          ("@".toList ++ Directive.routeKeyword (some .get) ++ " \t".toList ++ ['"'] ++
            " //@model /* ".toList ++ ['"'] ++ ['\n'] ++ "@inherits A".toList) = .ok both ∧
        both.descriptors = [.route " //@model /* ".toList (some .get), .setBaseType ['A']] := by
  have hgap : IsGap " \t".toList := ⟨by decide, by decide⟩
  have hplain : Text.IsPlain " //@model /* ".toList := by
    decide
  have hinherits :
      (readTemplate (Settings.standard.withDesignTime true) "@inherits A".toList).toOption.map
        Results.descriptors = some [.setBaseType ['A']] := by
    decide +kernel
  obtain ⟨both, after, hboth, hafter, hdescriptors⟩ :=
    readTemplate_of_quoted hgap hplain (Settings.standard.withDesignTime true) (some .get)
      "@inherits A".toList
  rw [hafter] at hinherits
  refine ⟨hgap, hplain, both, hboth, ?_⟩
  rw [hdescriptors]
  exact congrArg (List.cons _) (Option.some.inj hinherits)

end PageTemplate
