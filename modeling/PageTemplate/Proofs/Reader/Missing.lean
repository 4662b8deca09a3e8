import PageTemplate.Proofs.Reader.Argument
import PageTemplate.Proofs.Reader.Pattern

/-!
# Names that are reported missing

What is reported missing can be read off the blocks.  The last span of a directive says which
name it lacks, and where: behind the white space and comments at its start, or behind the type
name that follows them.

A type that is reported missing is not always empty.  A base class and a model are the whole
span, trimmed, and so they hold the comments in front of which no type name stands.

**Input.**  The blocks of a template.

**Algorithm.**  For each directive, one after the other, the last span is read up to where the
name should be.

**Results.**
* `length_missing_le`, `location_of_mem_missing`: a directive lacks one name at most, and lacks
  it somewhere in its last span.
* `faults_eq_missing`: what is reported about a line is what its last span lacks.
* `readTemplate_missing`: what is reported missing in a template.
* `atLineEnd_of_mem_faults`, `typeName_eq_nil_of_mem_faults`: what the line is then like.
* `typeName_of_missing`: the type of a directive that is reported to have none.
* `readTemplate_missingTypeName`: when such a type is empty.
* `readTemplate_missingTypeName_of_comment`: a comment in the place of a type.
-/

namespace PageTemplate

open Token (line afterLine splitSpace isSpacing staysOnLine placeOf textOf Located located_append)
open Text (AllBlank)

/-! ## What a span lacks -/

namespace Span

/-- The place that is reached from the start of the span by reading the tokens. -/
def placeAfter (ts : List Token) (s : Span) : Location :=
  s.start.advance (textOf ts)

/-- The white space and comments at the start of the span. -/
def spacing (s : Span) : List Token :=
  s.tokens.takeWhile (isSpacing false true)

/-- What follows the white space and comments at the start of the span. -/
def afterSpacing (s : Span) : List Token :=
  s.tokens.dropWhile (isSpacing false true)

/-- The type name that comes next. -/
def typeName (s : Span) : List Token :=
  s.afterSpacing.take (TypeName.length s.afterSpacing)

/-- What follows the type name. -/
def afterType (s : Span) : List Token :=
  s.afterSpacing.drop (TypeName.length s.afterSpacing)

/-- What follows the white space and comments after the type name. -/
def afterGap (s : Span) : List Token :=
  s.afterType.dropWhile (isSpacing false true)

/-- The report that there is no type name in the last span of the directive. -/
def missingTypeName (d : Directive) (s : Span) : Diagnostic :=
  ⟨s.placeAfter s.spacing, .missingTypeName, d.keyword⟩

/-- The report that there is no property behind the type name. -/
def missingPropertyName (d : Directive) (s : Span) : Diagnostic :=
  ⟨s.placeAfter (s.spacing ++ s.typeName), .missingPropertyName, d.keyword⟩

/-- What the last span of the directive lacks: a type name if nothing is left of the line where
it should be, or, for a property, if no identifier is there; else the name of the property, if
nothing is left of the line after the type name. -/
def missing (d : Directive) (s : Span) : List Diagnostic :=
  match d with
  | .inherits | .model => if Token.atLineEnd s.afterSpacing then [s.missingTypeName d] else []
  | .inject =>
      if Token.atIdentifier s.afterSpacing then
        if Token.atLineEnd s.afterGap then [s.missingPropertyName d] else []
      else [s.missingTypeName d]
  | .route _ => []

theorem tokens_eq_spacing_append (s : Span) :
    s.tokens = s.spacing ++ s.afterSpacing := by
  rw [spacing, afterSpacing, List.takeWhile_append_dropWhile]

/-- A span is its spacing, its type name and the rest. -/
theorem tokens_eq_typeName_append (s : Span) :
    s.tokens = s.spacing ++ s.typeName ++ s.afterType := by
  rw [List.append_assoc, typeName, afterType, List.take_append_drop, ← tokens_eq_spacing_append]

/-- A directive lacks one name at most. -/
theorem length_missing_le
    (d : Directive) (s : Span) :
    (s.missing d).length ≤ 1 := by
  unfold missing
  split
  · split <;> simp
  · split <;> simp
  · split
    · split <;> simp
    · simp
  · simp

/-- What a directive lacks is a type or a property. -/
theorem missing_subset
    (d : Directive) (s : Span) :
    s.missing d ⊆ [s.missingTypeName d, s.missingPropertyName d] := by
  unfold missing
  split
  · split <;> simp
  · split <;> simp
  · split
    · split <;> simp
    · simp
  · simp

/-- A name is missing where some of the span is read and the rest is not. -/
theorem location_of_mem_missing
    {d : Directive} {s : Span} {e : Diagnostic} (h : e ∈ s.missing d) :
    ∃ front back, s.tokens = front ++ back ∧ e.location = s.placeAfter front := by
  have hmem := missing_subset d s h
  simp only [List.mem_cons, List.not_mem_nil, or_false] at hmem
  rcases hmem with rfl | rfl
  · exact ⟨s.spacing, s.afterSpacing, s.tokens_eq_spacing_append, rfl⟩
  · exact ⟨s.spacing ++ s.typeName, s.afterType, s.tokens_eq_typeName_append, rfl⟩

end Span

/-- What the last span of the block lacks, if the block is that of a directive. -/
def Block.missing (b : Block) : List Diagnostic :=
  match b.directive?, b.argument? with
  | some d, some argument => argument.missing d
  | _, _ => []

/-! ## Where a line stands -/

/-- The line of a directive stands behind the keyword, and the text goes on behind the line. -/
theorem exists_located_tail
    {designTime : Bool} {source : Text} {mark : Token} {l : DirectiveLine}
    (h : .directive mark l ∈ Passage.ofSource designTime source) :
    ∃ place, Located place l.tail ∧ l.stop = place.advance (textOf l.tail) := by
  obtain ⟨before, rest, htokens, hread, -⟩ := exists_read_of_mem_ofSource h
  have htail : l.tail = line designTime rest := by
    rw [hread]
    rfl
  have hcut : Token.tokenize source =
      before ++ [mark, l.keyword] ++ l.tail ++ afterLine designTime rest := by
    rw [htail, List.append_assoc, Token.line_append_afterLine, htokens]
    simp
  have hlocated : Located Location.start
      (before ++ [mark, l.keyword] ++ l.tail ++ afterLine designTime rest) := by
    rw [← hcut]
    exact Token.located_tokensFrom Location.start source
  refine ⟨Location.start.advance (textOf (before ++ [mark, l.keyword])), ?_, ?_⟩
  · exact (located_append.mp (located_append.mp hlocated).1).2
  · have hfinal : Location.start.advance source =
        Location.start.advance
          (textOf (before ++ [mark, l.keyword] ++ l.tail ++ afterLine designTime rest)) := by
      rw [← hcut, Token.tokenize, Token.textOf_tokensFrom]
    have hstop : l.stop = placeOf (Location.start.advance source) (afterLine designTime rest) := by
      rw [hread]
      rfl
    rw [hstop, hfinal, Token.placeOf_of_located hlocated, Token.textOf_append,
      Location.advance_append]

namespace DirectiveLine

section Places

variable {l : DirectiveLine} {place : Location}
  (htail : Located place l.tail) (hstop : l.stop = place.advance (textOf l.tail))
include htail hstop

/-- What is left of the argument stands where the text of the last span before it ends. -/
theorem placeOf_eq_placeAfter
    {front back : List Token} (hcut : l.argument = front ++ back) (baseType : Text) :
    placeOf l.stop back = (l.argumentSpan baseType).placeAfter front := by
  have hlocated := Token.located_splitSpace htail
  have hstart : (l.argumentSpan baseType).start =
      place.advance (textOf (splitSpace l.tail).1) := by
    have hplace := Token.placeOf_of_located hlocated
    rwa [Token.textOf_append, Token.textOf_splitSpace, ← hstop] at hplace
  have hargument := (located_append.mp hlocated).2
  have hend : l.stop = (place.advance (textOf (splitSpace l.tail).1)).advance
      (textOf (front ++ back)) := by
    rw [← hcut, ← Location.advance_append, hstop, argument, Token.textOf_splitSpace]
  rw [argument] at hcut
  rw [hcut] at hargument
  rw [hend, Token.placeOf_of_located hargument, Span.placeAfter, hstart]

/-- What is reported about a line is what its last span lacks. -/
theorem faults_eq_missing (baseType : Text) :
    l.faults = (l.argumentSpan baseType).missing l.directive := by
  have hspacing : (l.argumentSpan baseType).afterSpacing = l.afterSpacing :=
    l.dropWhile_argument
  have htype : (l.argumentSpan baseType).afterType = l.afterType := by
    rw [Span.afterType, hspacing, afterType]
  have hgap : (l.argumentSpan baseType).afterGap = l.afterGap := by
    rw [Span.afterGap, htype, afterGap]
  have hname : l.missingTypeName = (l.argumentSpan baseType).missingTypeName l.directive := by
    have hplace := placeOf_eq_placeAfter htail hstop
      (l.argumentSpan baseType).tokens_eq_spacing_append baseType
    rw [missingTypeName, Span.missingTypeName, ← hplace, hspacing]
  have hproperty : l.missingPropertyName =
      (l.argumentSpan baseType).missingPropertyName l.directive := by
    have hplace := placeOf_eq_placeAfter htail hstop
      (l.argumentSpan baseType).tokens_eq_typeName_append baseType
    rw [missingPropertyName, Span.missingPropertyName, ← hplace, htype]
  unfold faults Span.missing
  rw [hspacing, hgap]
  cases hd : l.directive with
  | inherits =>
      rw [hd] at hname
      simp only [hname]
  | model =>
      rw [hd] at hname
      simp only [hname]
  | inject =>
      rw [hd] at hname hproperty
      simp only [hname, hproperty]
  | route verb =>
      simp only

end Places
end DirectiveLine

/-- What a block lacks is what the line of its directive is reported to lack. -/
theorem missing_block
    {designTime : Bool} {source : Text} {mark : Token} {l : DirectiveLine}
    (h : .directive mark l ∈ Passage.ofSource designTime source) (baseType : Text) :
    ((Passage.directive mark l).block baseType).missing = l.faults := by
  obtain ⟨place, htail, hstop⟩ := exists_located_tail h
  obtain ⟨before, rest, -, -, hkeyword⟩ := exists_read_of_mem_ofSource h
  rw [Block.missing, directive?_block hkeyword,
    DirectiveLine.faults_eq_missing htail hstop baseType]
  rfl

/-- What is reported missing is what the directives lack, one after the other. -/
theorem filter_isMissing_eq_flatMap_missing
    (h : History) (designTime : Bool) (source baseType : Text) :
    (h.reports (Passage.ofSource designTime source)).filter Diagnostic.isMissing =
      (Block.directives ((Passage.ofSource designTime source).map
        (Passage.block baseType))).flatMap Block.missing := by
  rw [History.filter_isMissing_reports, Passage.directives_blocks, List.flatMap_map]
  refine List.flatMap_congr ?_
  intro p hp
  obtain ⟨hmem, hkind⟩ := List.mem_filter.mp hp
  cases p with
  | markup t ts =>
      cases hkind
  | directive mark l =>
      exact (missing_block hmem baseType).symm

/-- What is reported missing in a template is what the last spans of its directives lack, one
after the other.  Each of them lacks one name at most, and within its own directive. -/
theorem readTemplate_missing
    (settings : Settings) (source : Text) :
    ∃ results, readTemplate settings source = .ok results ∧
      results.diagnostics.filter Diagnostic.isMissing =
        (Block.directives results.blocks).flatMap Block.missing ∧
      ∀ b ∈ Block.directives results.blocks, ∃ d argument,
        b.directive? = some d ∧ b.argument? = some argument ∧
        b.missing = argument.missing d ∧ b.missing.length ≤ 1 ∧
        ∀ e ∈ b.missing, ∃ front back,
          argument.tokens = front ++ back ∧ e.location = argument.placeAfter front := by
  refine ⟨_, readTemplate_eq_passages settings source,
    filter_isMissing_eq_flatMap_missing _ _ _ _, ?_⟩
  intro b hb
  obtain ⟨mark, l, -, -, hdirective, hargument⟩ := exists_directive_of_mem_directives hb
  have hmissing : b.missing = (l.argumentSpan settings.baseType).missing l.directive := by
    rw [Block.missing, hdirective, hargument]
  refine ⟨l.directive, l.argumentSpan settings.baseType, hdirective, hargument, hmissing, ?_, ?_⟩
  · rw [hmissing]
    exact Span.length_missing_le _ _
  · intro e he
    rw [hmissing] at he
    exact Span.location_of_mem_missing he

/-! ## Types that are reported missing -/

/-- The name of the type that a directive asks for. -/
def Descriptor.typeName? (d : Descriptor) : Option Text :=
  d.names.head?

namespace Token

/-- Tokens are blank together when each of them is. -/
theorem allBlank_textOf (ts : List Token) :
    AllBlank (textOf ts) ↔ ∀ t ∈ ts, AllBlank t.content := by
  induction ts with
  | nil =>
      simp
  | cons t ts ih =>
      rw [textOf_cons, Text.allBlank_append, ih, List.forall_mem_cons]

/-- Of the tokens of a line with spacing only, the comments are those that are not blank. -/
theorem allBlank_iff_kind_ne_comment
    {l : Location} {text : Text} {t : Token} (h : t ∈ tokensFrom l text)
    (hkind : isSpacing false true t = true ∨ t.kind = .newLine) :
    AllBlank t.content ↔ t.kind ≠ .comment := by
  constructor
  · intro hblank hcomment
    rcases kind_of_allBlank h hblank with hkind | hkind | hkind <;> simp [hkind] at hcomment
  · intro hcomment
    rcases hkind with hspace | hkind
    · exact allBlank_of_whiteSpace (spelled_of_mem h)
        ((kind_of_isSpacing hspace).resolve_right hcomment)
    · exact allBlank_of_newLine h hkind

/-- Except for white space, what is left by the split stood there before. -/
theorem mem_of_mem_splitSpace_snd
    {ts : List Token} {t : Token} (h : t ∈ (splitSpace ts).2) (hkind : t.kind ≠ .whiteSpace) :
    t ∈ ts := by
  cases ts with
  | nil =>
      exact h
  | cons u ts =>
      by_cases hspace : u.kind = .whiteSpace
      · cases hsplit : u.splitFirst with
        | none =>
            simp only [splitSpace, hspace, if_true, hsplit] at h
            exact List.mem_cons_of_mem u h
        | some pair =>
            simp only [splitSpace, hspace, if_true, hsplit] at h
            rcases List.mem_cons.mp h with rfl | h
            · exact absurd ((kind_of_splitFirst hsplit).2.trans hspace) hkind
            · exact List.mem_cons_of_mem u h
      · rwa [splitSpace, if_neg hspace] at h

end Token

theorem Token.dropWhile_staysOnLine_of_atLineEnd
    {ts : List Token} (h : Token.atLineEnd ts = true) :
    ts.dropWhile staysOnLine = ts := by
  cases ts with
  | nil =>
      rfl
  | cons t ts =>
      have hkind : t.kind = .newLine := by simpa [Token.atLineEnd] using h
      exact List.dropWhile_cons_of_neg (by simp [staysOnLine, hkind])

namespace DirectiveLine

section Lacking

variable {place : Location} {text : Text} {designTime : Bool} {ts : List Token}
  {l : DirectiveLine} (htail : l.tail = line designTime ts)
  (h : ts ⊆ Token.tokensFrom place text) (hend : Token.atLineEnd l.afterSpacing = true)
include htail hend

/-- Nothing but its line end is left of such a line behind the spacing. -/
theorem kind_of_mem_afterSpacing :
    ∀ t ∈ l.afterSpacing, t.kind = .newLine := by
  intro t ht
  rw [← Token.dropWhile_staysOnLine_of_atLineEnd hend, afterSpacing, htail,
    Token.dropWhile_line Token.staysOnLine_of_isSpacing] at ht
  exact Token.kind_of_mem_dropWhile_line ht

include h

/-- What is left of such a line behind the spacing is blank. -/
theorem allBlank_afterSpacing :
    AllBlank (textOf l.afterSpacing) := by
  have hdrop := Token.dropWhile_staysOnLine_of_atLineEnd hend
  have hline : l.afterSpacing = line designTime (ts.dropWhile (isSpacing false true)) := by
    rw [afterSpacing, htail, Token.dropWhile_line Token.staysOnLine_of_isSpacing]
  have hsubset : line designTime (ts.dropWhile (isSpacing false true)) ⊆
      Token.tokensFrom place text :=
    List.Subset.trans (Token.line_subset _ _) (List.Subset.trans (List.dropWhile_subset _) h)
  rw [← hdrop, hline]
  exact Token.allBlank_dropWhile_line hsubset

/-- A line that ends behind its white space and comments is blank if it has no comment. -/
theorem trim_argument_eq_nil_iff :
    Text.trim (textOf l.argument) = [] ↔ ∀ t ∈ l.argument, t.kind ≠ .comment := by
  have hmem : ∀ t ∈ l.tail, t ∈ Token.tokensFrom place text := by
    intro t ht
    rw [htail] at ht
    exact h (Token.line_subset designTime ts ht)
  have hkinds : ∀ t ∈ l.tail, isSpacing false true t = true ∨ t.kind = .newLine := by
    intro t ht
    rw [← List.takeWhile_append_dropWhile (p := isSpacing false true) (l := l.tail)] at ht
    rcases List.mem_append.mp ht with ht | ht
    · exact Or.inl (List.all_eq_true.mp List.all_takeWhile t ht)
    · exact Or.inr (kind_of_mem_afterSpacing htail hend t ht)
  have hcomments : (∀ t ∈ l.argument, t.kind ≠ .comment) ↔ ∀ t ∈ l.tail, t.kind ≠ .comment := by
    constructor
    · intro hall t ht hcomment
      exact hall t (mem_splitSpace_snd ht (by simp [hcomment])) hcomment
    · intro hall t ht hcomment
      exact hall t (Token.mem_of_mem_splitSpace_snd ht (by simp [hcomment])) hcomment
  rw [trim_argument (spelled_of_mem_tail htail h), Text.trim_eq_nil_iff, hcomments]
  refine (Token.allBlank_textOf l.tail).trans (forall₂_congr ?_)
  intro t ht
  exact Token.allBlank_iff_kind_ne_comment (hmem t ht) (hkinds t ht)

/-- A type that is all of the argument is then made of its comments. -/
theorem typeName_of_atLineEnd
    {baseType : Text}
    (hname : (l.descriptor baseType).typeName? = some (Text.trim (textOf l.argument))) :
    (l.descriptor baseType).typeName? =
        some (Text.trim (textOf (l.argumentSpan baseType).spacing)) ∧
      ((l.descriptor baseType).typeName? = some [] ↔ ∀ t ∈ l.argument, t.kind ≠ .comment) := by
  have hcut : l.argument = (l.argumentSpan baseType).spacing ++ l.afterSpacing :=
    l.argument_eq_takeWhile_append
  have htrim : Text.trim (textOf l.argument) =
      Text.trim (textOf (l.argumentSpan baseType).spacing) := by
    rw [hcut, Token.textOf_append, Text.trim_append_right (allBlank_afterSpacing htail h hend)]
  rw [hname, Option.some.injEq, Option.some.injEq]
  exact ⟨htrim, trim_argument_eq_nil_iff htail h hend⟩

end Lacking

section Reported

variable {l : DirectiveLine} {e : Diagnostic} (he : e ∈ l.faults)
include he

/-- A base class or a model is missing only where the line is at its end. -/
theorem atLineEnd_of_mem_faults (hd : l.directive = .inherits ∨ l.directive = .model) :
    Token.atLineEnd l.afterSpacing = true := by
  rw [faults_of_baseType hd] at he
  by_contra hgo
  simp [hgo] at he

/-- Where `inject` is reported to have no type, none is read. -/
theorem typeName_eq_nil_of_mem_faults (hd : l.directive = .inject)
    (hfault : e.fault = .missingTypeName) :
    l.typeName = [] := by
  rw [faults_of_inject hd] at he
  by_contra hname
  rw [← ne_eq, typeName_ne_nil_iff] at hname
  by_cases hgap : Token.atLineEnd l.afterGap = true
  · simp only [hname, hgap, if_true, List.mem_singleton] at he
    rw [he] at hfault
    cases hfault
  · simp [hname, hgap] at he

end Reported

/-- The type of a directive that is reported to have none. -/
theorem typeName_of_missing
    {place : Location} {text : Text} {designTime : Bool} {ts : List Token} {l : DirectiveLine}
    (htail : l.tail = line designTime ts) (h : ts ⊆ Token.tokensFrom place text)
    {e : Diagnostic} (he : e ∈ l.faults) (hfault : e.fault = .missingTypeName)
    (baseType : Text) :
    (l.directive = .inject ∧ (l.descriptor baseType).typeName? = some []) ∨
      l.directive ≠ .inject ∧
        (l.descriptor baseType).typeName? =
          some (Text.trim (textOf (l.argumentSpan baseType).spacing)) ∧
        ((l.descriptor baseType).typeName? = some [] ↔ ∀ t ∈ l.argument, t.kind ≠ .comment) := by
  cases hd : l.directive with
  | inherits =>
      have hend := atLineEnd_of_mem_faults he (Or.inl hd)
      exact Or.inr ⟨nofun, typeName_of_atLineEnd htail h hend (by rw [descriptor, hd]; rfl)⟩
  | model =>
      have hend := atLineEnd_of_mem_faults he (Or.inr hd)
      exact Or.inr ⟨nofun, typeName_of_atLineEnd htail h hend (by rw [descriptor, hd]; rfl)⟩
  | inject =>
      have hnone := typeName_eq_nil_of_mem_faults he hd hfault
      refine Or.inl ⟨rfl, ?_⟩
      rw [descriptor, hd]
      simp [Descriptor.typeName?, Descriptor.names, hnone]
  | route verb =>
      rw [faults, hd] at he
      cases he

end DirectiveLine

/-- A type that is reported missing is empty, except where a comment stands on the line of a
base class or a model: then the comments are handed on as the type. -/
theorem readTemplate_missingTypeName
    (settings : Settings) (source : Text) :
    ∃ results, readTemplate settings source = .ok results ∧
      results.diagnostics.filter (·.fault = .missingTypeName) =
        (Block.directives results.blocks).flatMap
          (fun b => b.missing.filter (·.fault = .missingTypeName)) ∧
      ∀ b ∈ Block.directives results.blocks, ∀ e ∈ b.missing, e.fault = .missingTypeName →
        ∃ d argument descriptor,
          b.directive? = some d ∧ b.argument? = some argument ∧
          argument.descriptor = some descriptor ∧
          (d = .inject ∧ descriptor.typeName? = some [] ∨
            d ≠ .inject ∧
              descriptor.typeName? = some (Text.trim (textOf argument.spacing)) ∧
              (descriptor.typeName? = some [] ↔
                ∀ t ∈ argument.tokens, t.kind ≠ .comment)) := by
  refine ⟨_, readTemplate_eq_passages settings source, ?_, ?_⟩
  · have hmissing := filter_isMissing_eq_flatMap_missing (History.fresh settings.baseType)
      settings.designTime source settings.baseType
    have hboth (ds : List Diagnostic) :
        ds.filter (·.fault = .missingTypeName) =
          (ds.filter Diagnostic.isMissing).filter (·.fault = .missingTypeName) := by
      rw [List.filter_filter]
      refine List.filter_congr ?_
      intro d _
      cases hfault : d.fault <;> simp [Diagnostic.isMissing, hfault]
    rw [hboth, hmissing, List.filter_flatMap]
  · intro b hb e he hfault
    obtain ⟨mark, l, hmem, hblock, hdirective, hargument⟩ := exists_directive_of_mem_directives hb
    obtain ⟨before, rest, htokens, hread, -⟩ := exists_read_of_mem_ofSource hmem
    have htail : l.tail = line settings.designTime rest := by
      rw [hread]
      rfl
    have hrest : rest ⊆ Token.tokenize source := by
      rw [htokens]
      intro t ht
      simp [ht]
    rw [hblock, missing_block hmem] at he
    exact ⟨l.directive, l.argumentSpan settings.baseType, l.descriptor settings.baseType,
      hdirective, hargument, rfl,
      DirectiveLine.typeName_of_missing htail hrest he hfault settings.baseType⟩

/-- A comment that no type name follows is reported for want of a type, and is then the type of
the model all the same. -/
theorem readTemplate_missingTypeName_of_comment :
    ∃ results, readTemplate Settings.standard "@model /* c */\n".toList = .ok results ∧
      results.diagnostics = [⟨⟨14, 0, 14⟩, .missingTypeName, "model".toList⟩] ∧
      results.descriptors = [.model Settings.standardBaseType "/* c */".toList] := by
  obtain ⟨results, hread⟩ :=
    exists_readTemplate_eq_ok Settings.standard "@model /* c */\n".toList
  have houtcome :
      (readTemplate Settings.standard "@model /* c */\n".toList).toOption.map
        (fun results => (results.diagnostics, results.descriptors)) =
          some ([⟨⟨14, 0, 14⟩, .missingTypeName, "model".toList⟩],
            [.model Settings.standardBaseType "/* c */".toList]) := by
    decide +kernel
  rw [hread] at houtcome
  obtain ⟨hdiagnostics, hdescriptors⟩ := Prod.mk.inj (Option.some.inj houtcome)
  exact ⟨results, hread, hdiagnostics, hdescriptors⟩

end PageTemplate
