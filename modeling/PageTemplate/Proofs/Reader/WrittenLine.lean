import Mathlib.Data.List.Basic
import PageTemplate.Proofs.Reader.Append
import PageTemplate.Proofs.Reader.Pattern
import PageTemplate.Proofs.TypeName.Written

/-!
# Directives that are written out

A directive that is written with its names in a line of its own is read with these names, and
lacks none of them.  Nothing that is written behind the line changes this.

**Input.**  A line with `@`, a keyword, the names of the directive, and spaces or tabs before
each name; and any text behind it.

**Algorithm.**  The line is cut into a token for each word and each mark.  The reader passes the
tokens of the type as a whole, and then those of the name of a property.

**Results.**
* `OneDirective.of_tokens`: tokens that are one directive and no more.
* `oneDirective_of_spells`: what is spelled is such a directive.
* `OneDirective.directives_append`: it comes before what is read behind it.
* `readTemplate_of_spells`: what is spelled is asked for, and nothing is reported missing.
-/

namespace PageTemplate

open Text (Stops AllBlank)
open Token (line afterLine isSpacing staysOnLine textOf EndsLine)
open PageTemplate.TypeName (AllSpacing AllSpaces CutsInto Derives EndsTypeName IsWord Single
  StartsWord Written)

/-! ## Directives in writing -/

/-- Whether the text is spaces and tabs, and not empty. -/
structure IsGap (t : Text) : Prop where
  ne_nil : t ≠ []
  spaces : AllSpaces t

/-- A directive that is written out with its names, and what it asks for. -/
inductive Spells (baseType : Text) : Text → Descriptor → Prop
  | inject {gap type between property : Text}
      (hgap : IsGap gap) (htype : Written .type type)
      (hbetween : IsGap between) (hproperty : IsWord property) :
      Spells baseType
        ("@inject".toList ++ (gap ++ (type ++ (between ++ (property ++ ['\n'])))))
        (.inject type property)
  | model {gap type : Text} (hgap : IsGap gap) (htype : Written .type type) :
      Spells baseType ("@model".toList ++ (gap ++ (type ++ ['\n']))) (.model baseType type)
  | inherits {gap type : Text} (hgap : IsGap gap) (htype : Written .type type) :
      Spells baseType ("@inherits".toList ++ (gap ++ (type ++ ['\n']))) (.setBaseType type)

/-! ## Type names among tokens -/

namespace TypeName

variable {ts rest : List Token}

theorem endsTypeName_nil :
    EndsTypeName [] := by
  intro t ht
  cases ht

/-- A type name of the grammar is as long as it is written. -/
theorem length_append_of_derives (h : Derives .type ts) (hrest : EndsTypeName rest) :
    length (ts ++ rest) = ts.length := by
  refine length_of_eq_append ?_
  rw [drop_length_eq_afterType, afterType, passes_of_derives h rest hrest]
  rfl

/-- A type name of the grammar has no line end among its tokens. -/
theorem kind_ne_of_derives (h : Derives .type ts) :
    ∀ t ∈ ts, t.kind ≠ .newLine := by
  have hlength := length_append_of_derives h endsTypeName_nil
  have hmem := mem_take_length_ne ts
  rw [List.append_nil] at hlength
  rwa [hlength, List.take_length] at hmem

end TypeName

/-! ## Lines with a type name -/

theorem Token.atLineEnd_of_atIdentifier {ts : List Token} (h : atIdentifier ts = true) :
    atLineEnd ts = false := by
  cases ts with
  | nil =>
      cases h
  | cons t ts =>
      have hkind : t.kind = .identifier := by simpa [atIdentifier] using h
      simp [atLineEnd, hkind]

namespace DirectiveLine

/-- The spaces before an argument and the line end behind it are trimmed off. -/
theorem trim_argument_of_line
    {d : Directive} {designTime : Bool} {final : Location} {k space last : Token}
    {us : List Token} (hspace : space.kind = .whiteSpace) (hus : ∀ t ∈ us, t.kind ≠ .newLine)
    (hspelled : ∀ t ∈ space :: (us ++ [last]), t.Spelled)
    (hlast : last.kind = .newLine) (hblank : AllBlank last.content) :
    Text.trim (textOf (read d designTime final k (space :: (us ++ [last]))).argument) =
      Text.trim (textOf us) := by
  have hopen : ∀ t ∈ space :: us, t.kind ≠ .newLine := by
    intro t ht
    rcases List.mem_cons.mp ht with rfl | ht
    · rw [hspace]
      exact TokenKind.noConfusion
    · exact hus t ht
  have htail : (read d designTime final k (space :: (us ++ [last]))).tail =
      space :: (us ++ line designTime [last]) :=
    Token.line_append designTime hopen [last]
  have hend : AllBlank (textOf (line designTime [last])) := by
    cases designTime with
    | false => simpa [line, hlast] using hblank
    | true => simp [line, hlast]
  have hstart : AllBlank space.content :=
    Token.allBlank_of_whiteSpace (hspelled space List.mem_cons_self) hspace
  rw [trim_argument, htail, Token.textOf_cons, Token.textOf_append,
    Text.trim_append_left hstart, Text.trim_append_right hend]
  intro t ht
  exact hspelled t (Token.line_subset designTime _ ht)

section Derives

variable {d : Directive} {designTime : Bool} {final : Location} {k space : Token}
  {ts rest : List Token}
  (hspace : space.kind = .whiteSpace) (hts : Derives .type ts)
include hspace hts

theorem kind_ne_of_derives :
    ∀ t ∈ space :: ts, t.kind ≠ .newLine := by
  intro t ht
  rcases List.mem_cons.mp ht with rfl | ht
  · rw [hspace]
    exact TokenKind.noConfusion
  · exact TypeName.kind_ne_of_derives hts t ht

/-- The spacing before a type name is passed, and nothing else. -/
theorem dropWhile_isSpacing_of_derives :
    (space :: (ts ++ rest)).dropWhile (isSpacing false true) = ts ++ rest := by
  have hone : AllSpacing [space] := by simp [AllSpacing, isSpacing, hspace]
  have hpast : TypeName.pastSpacing ([space] ++ (ts ++ rest)) = TypeName.pastSpacing (ts ++ rest) :=
    TypeName.pastSpacing_append hone
  rwa [TypeName.pastSpacing_of_startsWith .identifier (by decide)
    (TypeName.startsWith_of_derives hts rest)] at hpast

/-- Behind the space the line goes on with the identifier of the type. -/
theorem atIdentifier_of_derives :
    Token.atIdentifier
      (read d designTime final k (space :: (ts ++ rest))).afterSpacing = true := by
  rw [afterSpacing_read, Token.atIdentifier_line, dropWhile_isSpacing_of_derives hspace hts]
  have hstart := TypeName.startsWith_of_derives hts rest
  cases hall : ts ++ rest with
  | nil =>
      rw [hall] at hstart
      cases hstart
  | cons t us =>
      rw [hall] at hstart
      exact hstart

/-- The type that is read off the line is the one that is written there. -/
theorem typeName_of_derives (hrest : EndsTypeName rest) :
    (read d designTime final k (space :: (ts ++ rest))).typeName = ts := by
  rw [typeName_read, dropWhile_isSpacing_of_derives hspace hts,
    TypeName.length_append_of_derives hts hrest, List.take_left]

/-- Behind the type and its gap the line goes on with the property. -/
theorem afterGap_of_derives {gap word : Token}
    (hgap : gap.kind = .whiteSpace) (hword : word.kind = .identifier) (rest : List Token) :
    (read d designTime final k (space :: (ts ++ gap :: word :: rest))).afterGap =
      line designTime (word :: rest) := by
  have hends : EndsTypeName (gap :: word :: rest) :=
    TypeName.endsTypeName_cons (by simp [hgap])
  rw [afterGap_read, dropWhile_isSpacing_of_derives hspace hts,
    TypeName.length_append_of_derives hts hends, List.drop_left]
  simp [isSpacing, hgap, hword]

end Derives

/-- A base class or a model that is written out is read, and not missed. -/
theorem read_baseType
    {d : Directive} (hd : d = .inherits ∨ d = .model) {k space last : Token} {ts : List Token}
    (hspace : space.kind = .whiteSpace) (hts : Derives .type ts)
    (hspelled : ∀ t ∈ space :: (ts ++ [last]), t.Spelled)
    (hlast : last.kind = .newLine) (hblank : AllBlank last.content)
    (designTime : Bool) (final : Location) :
    let l := read d designTime final k (space :: (ts ++ [last]))
    Text.trim (textOf l.argument) = Text.trim (textOf ts) ∧ l.faults = [] := by
  intro l
  have hstart : Token.atLineEnd l.afterSpacing = false :=
    Token.atLineEnd_of_atIdentifier (atIdentifier_of_derives hspace hts)
  refine ⟨trim_argument_of_line hspace (TypeName.kind_ne_of_derives hts) hspelled hlast hblank, ?_⟩
  rw [faults_of_baseType hd, hstart]
  rfl

/-- A property that is written out is read, and neither of its names is missed. -/
theorem read_inject
    {k space gap word last : Token} {ts : List Token}
    (hspace : space.kind = .whiteSpace) (hts : Derives .type ts)
    (hgap : gap.kind = .whiteSpace) (hword : word.kind = .identifier)
    (hlast : last.kind = .newLine) (baseType : Text) (designTime : Bool) (final : Location) :
    let l := read .inject designTime final k (space :: (ts ++ gap :: word :: [last]))
    l.descriptor baseType = .inject (Text.trim (textOf ts)) (Text.trim word.content) ∧
      l.faults = [] := by
  intro l
  have hends : EndsTypeName (gap :: word :: [last]) :=
    TypeName.endsTypeName_cons (by simp [hgap])
  have hafter : l.afterGap = line designTime (word :: [last]) :=
    afterGap_of_derives hspace hts hgap hword [last]
  constructor
  · have htypeName : l.typeName = ts := typeName_of_derives hspace hts hends
    have hproperty : l.property = [word] := by
      rw [property, hafter, Token.takeWhile_staysOnLine_line]
      simp [staysOnLine, hword, hlast]
    have hdescriptor : l.descriptor baseType =
        .inject (Text.trim (textOf l.typeName)) (Text.trim (textOf l.property)) := rfl
    rw [hdescriptor, htypeName, hproperty, Token.textOf_cons, Token.textOf_nil, List.append_nil]
  · have hstart : Token.atIdentifier l.afterSpacing = true :=
      atIdentifier_of_derives hspace hts
    have hnamed : Token.atLineEnd l.afterGap = false := by
      rw [hafter, Token.atLineEnd_line]
      simp [Token.atLineEnd, hword]
    rw [faults_of_inject rfl, hstart, hnamed]
    rfl

end DirectiveLine

/-! ## Lines that are one directive -/

/-- Whether the text is one directive in a line of its own, which lacks nothing and asks for
the descriptor. -/
structure OneDirective (baseType source : Text) (descriptor : Descriptor) : Prop where
  endsLine : EndsLine (Token.tokenize source)
  reads : ∀ designTime, ∃ mark l,
    Passage.directives (Passage.ofSource designTime source) = [.directive mark l] ∧
      l.descriptor baseType = descriptor ∧ l.faults = []

section Tokens

variable {d : Directive} {mark k last : Token} {ts us : List Token} (hts : ts = us ++ [last])
  (hus : ∀ t ∈ us, t.kind ≠ .newLine) (hlast : last.kind = .newLine)
include hts hus hlast

/-- Behind the only line of a document there is no directive. -/
theorem directives_afterLine (designTime : Bool) (final : Location) :
    Passage.directives (passages designTime final (afterLine designTime ts)) = [] := by
  rw [hts, Token.afterLine_append designTime hus]
  cases designTime with
  | false =>
      simp [afterLine, hlast]
  | true =>
      rw [afterLine, if_pos hlast, if_pos rfl, passages]
      rfl

/-- A mark, a keyword and one line of tokens are one directive, if what is read of them is as it
should be. -/
theorem OneDirective.of_tokens
    {baseType source : Text} {descriptor : Descriptor}
    (htokens : Token.tokenize source = mark :: k :: ts)
    (hmark : mark.kind = .transition) (hkeyword : k.isKeyword d.keyword = true)
    (hread : ∀ designTime final,
      (DirectiveLine.read d designTime final k ts).descriptor baseType = descriptor ∧
        (DirectiveLine.read d designTime final k ts).faults = []) :
    OneDirective baseType source descriptor where
  endsLine := by
    intro t ht
    rw [htokens, hts, ← List.cons_append, ← List.cons_append, List.getLast?_concat,
      Option.some.injEq] at ht
    rwa [← ht]
  reads designTime := by
    -- At design time the line end is a passage of markup, which is no directive.
    have hat : directiveAt (mark :: k :: ts) = some d :=
      (directiveAt_eq_some_iff _ _).mpr ⟨mark, k, ts, rfl, hmark, hkeyword⟩
    refine ⟨mark, _, ?_, hread designTime (Location.start.advance source)⟩
    rw [Passage.ofSource, htokens, passages_of_directive hat, Passage.directives_directive,
      directives_afterLine hts hus hlast]

end Tokens

/-! ## Written lines are cut into their words -/

/-- Keywords are ASCII letters. -/
theorem Directive.isWord_keyword (d : Directive) :
    IsWord d.keyword := by
  have hascii : all.all (fun d => !d.keyword.isEmpty && d.keyword.all Char.isAlpha) = true := by
    decide
  have hd := List.all_eq_true.mp hascii d d.mem_all
  cases hkeyword : d.keyword with
  | nil =>
      simp [hkeyword] at hd
  | cons c t =>
      simp only [hkeyword, List.isEmpty_cons, Bool.not_false, Bool.true_and, List.all_cons,
        Bool.and_eq_true, List.all_eq_true] at hd
      exact .of_ascii hd.1 (fun e he => by simp [Char.isAlphanum, hd.2 e he])

theorem IsGap.stops_word {gap : Text} (h : IsGap gap) (rest : Text) :
    Stops Token.isIdentifierPart (gap ++ rest) := by
  obtain ⟨c, gap, rfl⟩ := List.exists_cons_of_ne_nil h.ne_nil
  exact Text.stops_cons (h.spaces.stops_word c rfl) _

/-- A line feed is one token, whatever follows. -/
theorem cutsInto_newLine :
    CutsInto (fun _ => false) (Single .newLine ['\n']) ['\n'] :=
  TypeName.cutsInto_of_fits (fun _ _ => .lineFeed)

/-- A directive that is written out is cut into its mark, its keyword, the space behind it and
what its argument is cut into. -/
theorem exists_tokenize_eq
    {d : Directive} {gap names : Text} {form : List Token → Prop} (hgap : IsGap gap)
    (hnames : CutsInto (fun _ => false) form names)
    (hstart : ∀ rest, Stops Token.isSpaceOrTab (names ++ rest)) :
    ∃ mark k space ts,
      Token.tokenize ('@' :: (d.keyword ++ (gap ++ names))) = mark :: k :: space :: ts ∧
        mark.kind = .transition ∧ k.isKeyword d.keyword = true ∧ space.kind = .whiteSpace ∧
        form ts := by
  have hargument : CutsInto (fun _ => false) _ (gap ++ names) :=
    (TypeName.cutsInto_gap hgap.spaces hgap.ne_nil).append hnames
      (fun rest _ => hstart rest)
  have hline : CutsInto (fun _ => false) _ ('@' :: (d.keyword ++ (gap ++ names))) :=
    ((TypeName.cutsInto_word d.isWord_keyword).append hargument (fun rest _ => by
      rw [List.append_assoc]
      exact hgap.stops_word _)).cons '@' .transition (by decide)
  obtain ⟨_, ⟨mark, _, rfl, hmark, ⟨_, _, rfl, ⟨_, rfl⟩, ⟨_, ts, rfl, ⟨_, rfl⟩, hts⟩⟩⟩, hcut⟩ :=
    hline Location.start [] Text.stops_nil
  rw [List.append_nil, Token.tokensFrom_nil, List.append_nil] at hcut
  exact ⟨mark, _, _, ts, hcut, hmark, (Token.isKeyword_iff _ _).mpr ⟨rfl, rfl⟩, rfl, hts⟩

theorem Token.spelled_of_tokenize_eq
    {source : Text} {mark k : Token} {ts : List Token}
    (h : tokenize source = mark :: k :: ts) :
    ∀ t ∈ ts, t.Spelled := by
  intro t ht
  have hmem : t ∈ tokenize source := by
    rw [h]
    exact List.mem_cons_of_mem mark (List.mem_cons_of_mem k ht)
  exact spelled_of_mem hmem

section Lines

variable {baseType gap type between property : Text}

/-- A line with the type of a base class or a model. -/
theorem oneDirective_baseType
    {d : Directive} (hd : d = .inherits ∨ d = .model)
    (hgap : IsGap gap) (htype : Written .type type) (f : Text → Descriptor)
    (hf : ∀ l : DirectiveLine, l.directive = d →
      l.descriptor baseType = f (Text.trim (textOf l.argument))) :
    OneDirective baseType ('@' :: (d.keyword ++ (gap ++ (type ++ ['\n'])))) (f type) := by
  have hnames : CutsInto (fun _ => false) _ (type ++ ['\n']) :=
    (TypeName.cutsInto_written htype).textOf.append cutsInto_newLine
      (fun _ _ => Text.stops_cons (by decide) _)
  obtain ⟨mark, k, space, _, htokens, hmark, hkeyword, hspace, ⟨ts, _, rfl, ⟨hts, htext⟩,
    ⟨place, rfl⟩⟩⟩ := exists_tokenize_eq (d := d) hgap hnames
      (fun rest => ((htype.startsWord.append _).append rest).stops_spaces)
  have hblank : AllBlank ['\n'] := by decide
  have hopen := DirectiveLine.kind_ne_of_derives hspace hts
  refine .of_tokens (List.cons_append.symm) hopen rfl htokens hmark hkeyword ?_
  intro designTime final
  obtain ⟨hargument, hfaults⟩ := DirectiveLine.read_baseType (k := k) hd hspace hts
    (Token.spelled_of_tokenize_eq htokens) rfl hblank designTime final
  refine ⟨?_, hfaults⟩
  rw [hf _ rfl, hargument, htext, htype.trim_eq]

/-- A line with the names of a property. -/
theorem oneDirective_inject
    (hgap : IsGap gap) (htype : Written .type type)
    (hbetween : IsGap between) (hproperty : IsWord property) :
    OneDirective baseType
      ('@' :: (Directive.inject.keyword ++ (gap ++ (type ++ (between ++ (property ++ ['\n']))))))
      (.inject type property) := by
  have hword : CutsInto (fun _ => false) _ (property ++ ['\n']) :=
    (TypeName.cutsInto_word hproperty).append cutsInto_newLine
      (fun _ _ => Text.stops_cons (by decide) _)
  have hsecond : CutsInto (fun _ => false) _ (between ++ (property ++ ['\n'])) :=
    (TypeName.cutsInto_gap hbetween.spaces hbetween.ne_nil).append hword (fun rest _ =>
      ((hproperty.startsWord.append _).append rest).stops_spaces)
  have hnames : CutsInto (fun _ => false) _ (type ++ (between ++ (property ++ ['\n']))) :=
    (TypeName.cutsInto_written htype).textOf.append hsecond (fun rest _ => by
      rw [List.append_assoc]
      exact hbetween.stops_word _)
  obtain ⟨mark, k, space, _, htokens, hmark, hkeyword, hspace, ⟨ts, _, rfl, ⟨hts, htext⟩,
    ⟨_, _, rfl, ⟨l, rfl⟩, ⟨_, _, rfl, ⟨m, rfl⟩, ⟨place, rfl⟩⟩⟩⟩⟩ :=
      exists_tokenize_eq (d := .inject) hgap hnames
        (fun rest => ((htype.startsWord.append _).append rest).stops_spaces)
  have hopen : ∀ t ∈ space :: ts ++ [⟨.whiteSpace, between, l⟩, ⟨.identifier, property, m⟩],
      t.kind ≠ .newLine := by
    intro t ht
    rcases List.mem_append.mp ht with ht | ht
    · exact DirectiveLine.kind_ne_of_derives hspace hts t ht
    · simp only [List.mem_cons, List.not_mem_nil, or_false] at ht
      rcases ht with rfl | rfl
      · exact TokenKind.noConfusion
      · exact TokenKind.noConfusion
  refine .of_tokens (List.append_assoc (space :: ts) [_, _] [_]).symm hopen rfl htokens hmark
    hkeyword ?_
  intro designTime final
  have hbetweenKind : (⟨.whiteSpace, between, l⟩ : Token).kind = .whiteSpace := rfl
  have hpropertyKind : (⟨.identifier, property, m⟩ : Token).kind = .identifier := rfl
  have hlastKind : (⟨.newLine, ['\n'], place⟩ : Token).kind = .newLine := rfl
  have hread := DirectiveLine.read_inject (k := k) hspace hts hbetweenKind hpropertyKind hlastKind
    baseType designTime final
  rwa [htext, htype.trim_eq, hproperty.trim_eq] at hread

end Lines

/-- A directive that is written out is the only one in its text, and it lacks nothing. -/
theorem oneDirective_of_spells
    {baseType source : Text} {descriptor : Descriptor} (h : Spells baseType source descriptor) :
    OneDirective baseType source descriptor := by
  cases h with
  | inject hgap htype hbetween hproperty =>
      exact oneDirective_inject hgap htype hbetween hproperty
  | model hgap htype =>
      refine oneDirective_baseType (Or.inr rfl) hgap htype (.model baseType) ?_
      rintro ⟨_, k, tail, stop⟩ rfl
      rfl
  | inherits hgap htype =>
      refine oneDirective_baseType (Or.inl rfl) hgap htype .setBaseType ?_
      rintro ⟨_, k, tail, stop⟩ rfl
      rfl

/-! ## What stands behind the line -/

/-- A passage asks for the same wherever it stands. -/
theorem Passage.descriptor?_behind
    {designTime : Bool} {source : Text} {p : Passage} (h : p ∈ ofSource designTime source)
    (before baseType : Text) :
    ((Transcription.behind before).passage p).descriptor? baseType = p.descriptor? baseType := by
  have hblock := Transcription.block_of_mem_ofSource (Transcription.behind before) h baseType
  rw [Transcription.block_behind] at hblock
  have hlists : (((Transcription.behind before).passage p).descriptor? baseType).toList =
      (p.descriptor? baseType).toList := by
    rw [← descriptors_block, ← descriptors_block, hblock, Block.behind, List.filterMap_map]
    rfl
  simpa using congrArg List.head? hlists

/-- What a template asks for is what its directives ask for. -/
theorem descriptors_of_readTemplate
    {settings : Settings} {source : Text} {results : Results}
    (h : readTemplate settings source = .ok results) :
    results.descriptors =
      (Passage.directives (Passage.ofSource settings.designTime source)).filterMap
        (Passage.descriptor? settings.baseType) := by
  rw [readTemplate_eq_passages, Except.ok.injEq] at h
  rw [← h, Results.descriptors, Results.spans, Passage.descriptors_blocks,
    Passage.descriptors_directives]

/-- What is reported missing in a template is what its directives lack. -/
theorem filter_isMissing_of_readTemplate
    {settings : Settings} {source : Text} {results : Results}
    (h : readTemplate settings source = .ok results) :
    results.diagnostics.filter Diagnostic.isMissing =
      (Passage.directives (Passage.ofSource settings.designTime source)).flatMap
        Passage.faults := by
  rw [readTemplate_eq_passages, Except.ok.injEq] at h
  rw [← h]
  exact History.filter_isMissing_reports _ _

/-- The directive comes before those that are read behind its line. -/
theorem OneDirective.directives_append
    {baseType source : Text} {descriptor : Descriptor}
    (h : OneDirective baseType source descriptor) (designTime : Bool) (rest : Text) :
    ∃ mark l,
      Passage.directives (Passage.ofSource designTime (source ++ rest)) =
        .directive mark l ::
          (Passage.directives (Passage.ofSource designTime rest)).map
            (Transcription.behind source).passage ∧
      l.descriptor baseType = descriptor ∧ l.faults = [] := by
  obtain ⟨mark, l, hone, hdescriptor, hfaults⟩ := h.reads designTime
  refine ⟨mark, l, ?_, hdescriptor, hfaults⟩
  rw [directives_ofSource_append h.endsLine, hone, List.singleton_append]

/-- A base class, a model or a property that is written out in a line is asked for with the names
that are written, before all that is asked for behind the line; and what is reported missing is
only what is missing behind the line. -/
theorem readTemplate_of_spells
    {settings : Settings} {source : Text} {descriptor : Descriptor}
    (h : Spells settings.baseType source descriptor) (rest : Text) :
    ∃ both after,
      readTemplate settings (source ++ rest) = .ok both ∧
      readTemplate settings rest = .ok after ∧
      both.descriptors = descriptor :: after.descriptors ∧
      both.diagnostics.filter Diagnostic.isMissing =
        (after.diagnostics.filter Diagnostic.isMissing).map (Diagnostic.behind source) := by
  obtain ⟨both, hboth⟩ := exists_readTemplate_eq_ok settings (source ++ rest)
  obtain ⟨after, hafter⟩ := exists_readTemplate_eq_ok settings rest
  obtain ⟨mark, l, hdirectives, hdescriptor, hfaults⟩ :=
    (oneDirective_of_spells h).directives_append settings.designTime rest
  refine ⟨both, after, hboth, hafter, ?_, ?_⟩
  · -- The directives behind the line have new places, but they ask for the same.
    have hrest : ((Passage.directives (Passage.ofSource settings.designTime rest)).map
        (Transcription.behind source).passage).filterMap
          (Passage.descriptor? settings.baseType) = after.descriptors := by
      rw [List.filterMap_map, descriptors_of_readTemplate hafter]
      refine List.filterMap_congr ?_
      intro p hp
      exact Passage.descriptor?_behind (List.mem_filter.mp hp).1 source settings.baseType
    rw [descriptors_of_readTemplate hboth, hdirectives, List.filterMap_cons_some (b := descriptor),
      hrest]
    exact congrArg some hdescriptor
  · have hdiagnostic : (Transcription.behind source).diagnostic = Diagnostic.behind source := rfl
    have hline : Passage.faults (.directive mark l) = [] := hfaults
    rw [filter_isMissing_of_readTemplate hboth, filter_isMissing_of_readTemplate hafter,
      hdirectives, List.flatMap_cons, hline, List.nil_append, List.flatMap_map, List.map_flatMap]
    simp only [Passage.faults_passage, hdiagnostic]

/-- A property of a nested type with spaces and a tab inside, before a directive with no name. -/
theorem readTemplate_of_spells_map :
    Spells Settings.standardBaseType "@inject \tMap< A.B ,\tList<C?> >[] p_1\n".toList
        (.inject "Map< A.B ,\tList<C?> >[]".toList "p_1".toList) ∧
      ∃ both,
        readTemplate Settings.standard
          ("@inject \tMap< A.B ,\tList<C?> >[] p_1\n".toList ++ "@inherits".toList) = .ok both ∧
        both.descriptors =
          [.inject "Map< A.B ,\tList<C?> >[]".toList "p_1".toList, .setBaseType []] ∧
        both.diagnostics.filter Diagnostic.isMissing =
          [⟨⟨46, 1, 9⟩, .missingTypeName, "inherits".toList⟩] := by
  have hname {word : Text} (h : IsWord word) : TypeName.WrittenName (word ++ []) :=
    .dotted h .none
  have hmember : TypeName.WrittenName ("A".toList ++ '.' :: ("B".toList ++ [])) :=
    .dotted (by decide) (.more (by decide) .none)
  have hfirst := Written.plain hmember (.arrays .none)
  have hinner : Written .type ("C".toList ++ [] ++ ['?']) :=
    .plain (hname (by decide)) (.nullable .none)
  have hsecond : Written .type
      ("List".toList ++ [] ++ '<' :: ([] ++ ("C".toList ++ [] ++ ['?'] ++ ([] ++ ['>'])))) :=
    .applied (hname (by decide)) (by decide) (.last hinner) (by decide) (.arrays .none)
  have htype : Written .type
      ("Map".toList ++ [] ++ '<' :: ([' '] ++ ("A".toList ++ '.' :: ("B".toList ++ []) ++ [] ++
        ([' '] ++ ',' :: (['\t'] ++ ("List".toList ++ [] ++
          '<' :: ([] ++ ("C".toList ++ [] ++ ['?'] ++ ([] ++ ['>'])))))) ++
            ([' '] ++ ['>', '[', ']'])))) :=
    .applied (hname (by decide)) (by decide)
      (.more hfirst (by decide) (by decide) (.last hsecond)) (by decide) (.arrays (.more .none))
  have hgap : IsGap [' ', '\t'] := ⟨by decide, by decide⟩
  have hbetween : IsGap [' '] := ⟨by decide, by decide⟩
  have hproperty : IsWord "p_1".toList := by decide
  have hspells : Spells Settings.standard.baseType
      "@inject \tMap< A.B ,\tList<C?> >[] p_1\n".toList
      (.inject "Map< A.B ,\tList<C?> >[]".toList "p_1".toList) :=
    .inject hgap htype hbetween hproperty
  have hinherits : (readTemplate Settings.standard "@inherits".toList).toOption.map
      (fun results => (results.descriptors, results.diagnostics)) =
        some ([.setBaseType []], [⟨⟨9, 0, 9⟩, .missingTypeName, "inherits".toList⟩]) := by
    decide +kernel
  obtain ⟨both, after, hboth, hafter, hdescriptors, hmissing⟩ :=
    readTemplate_of_spells hspells "@inherits".toList
  rw [hafter] at hinherits
  obtain ⟨hbase, hone⟩ := Prod.mk.inj (Option.some.inj hinherits)
  refine ⟨hspells, both, hboth, ?_, ?_⟩
  · rw [hdescriptors, hbase]
  · rw [hmissing, hone]
    decide

end PageTemplate
