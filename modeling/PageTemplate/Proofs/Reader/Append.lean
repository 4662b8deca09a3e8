import PageTemplate.Proofs.Reader.Transcription
import PageTemplate.Proofs.Reader.DesignTime
import PageTemplate.Proofs.Reader.Conflict
import PageTemplate.Proofs.Token.Append

/-!
# Templates one behind the other

A template that is written behind another one, which ends its last line, is read as it is on
its own.  Only its places are counted from further on, markup may join across the border, and
directives of the one may conflict with directives of the other.

**Input.**  Two templates, the first of which is empty or has a line end for its last token.

**Algorithm.**  The tokens of both are cut into passages.  No directive of the first reaches
the border, since its line ends before; so the directives are those of the one and those of
the other.

**Results.**
* `read_append`: a directive whose line ends is read without regard to what follows the line.
* `filter_isMissing_reports`: what is reported missing is what the lines of directives lack.
* `directives_append`: the directives of tokens one behind the other.
* `Transcription.behind`: what the places of the second template become.
* `readTemplate_append`: what comes out of the two templates together.
-/

namespace PageTemplate

open Token (line afterLine placeOf EndsLine)

/-! ## Places behind a text -/

/-- The place with the lines of `s` before it. -/
def Location.behind (s : Text) (l : Location) : Location :=
  ⟨l.offset + Text.utf8Size s, l.line + s.count '\n', l.column⟩

/-- The token with the lines of `s` before it. -/
def Token.behind (s : Text) (t : Token) : Token :=
  { t with location := t.location.behind s }

/-- The span with the lines of `s` before it. -/
def Span.behind (s : Text) (sp : Span) : Span :=
  { sp with tokens := sp.tokens.map (Token.behind s), start := sp.start.behind s }

/-- The block with the lines of `s` before it. -/
def Block.behind (s : Text) (b : Block) : Block :=
  { b with spans := b.spans.map (Span.behind s) }

/-- The report with the lines of `s` before it. -/
def Diagnostic.behind (s : Text) (d : Diagnostic) : Diagnostic :=
  { d with location := d.location.behind s }

/-- A character moves a place in the same way behind other lines. -/
theorem Location.behind_next
    (s : Text) (l : Location) (c : Char) :
    (l.next c).behind s = (l.behind s).next c := by
  unfold next behind
  split
  · simp only [mk.injEq, and_true]
    omega
  · simp only [mk.injEq, and_true]
    omega

/-- The place where a text ends that ends a line is the start of what follows it. -/
theorem Location.behind_start
    {s : Text} (h : s ≠ [] → ∃ before, s = before ++ ['\n']) :
    start.behind s = start.advance s := by
  have hcolumn : (start.advance s).column = 0 := by
    by_cases hnil : s = []
    · rw [hnil]
      rfl
    · obtain ⟨before, rfl⟩ := h hnil
      exact column_advance_newline start before (List.not_mem_nil)
  have hoffset := offset_advance start s
  have hline := line_advance start s
  rw [behind, mk.injEq]
  exact ⟨hoffset.symm, hline.symm, hcolumn.symm⟩

namespace Transcription

/-- More lines before a document, whose line feeds stay what they are. -/
def behind (s : Text) : Transcription where
  lineEnd := ['\n']
  place := Location.behind s
  lineEnd_ne_nil := List.cons_ne_nil _ _
  lineEnd_blank := by decide
  place_next l c _ := l.behind_next s c
  place_newline l := l.behind_next s '\n'

variable (s : Text)

/-- Behind other lines a text is the same. -/
theorem text_behind (t : Text) :
    (behind s).text t = t :=
  Text.withLineEnd_lineFeed t

theorem token_behind :
    (behind s).token = Token.behind s := by
  funext t
  rw [token, text_behind]
  rfl

theorem descriptor_behind (d : Descriptor) :
    (behind s).descriptor d = d := by
  cases d <;> simp only [descriptor, text_behind]

theorem span_behind :
    (behind s).span = Span.behind s := by
  funext sp
  have hdescriptor : sp.descriptor.map (behind s).descriptor = sp.descriptor := by
    cases sp.descriptor with
    | none => rfl
    | some d => exact congrArg some (descriptor_behind s d)
  rw [span, token_behind, hdescriptor]
  rfl

theorem block_behind :
    (behind s).block = Block.behind s := by
  funext b
  rw [block, span_behind]
  rfl

end Transcription

/-! ## Directives among passages -/

namespace Passage

/-- The directives among the passages. -/
def directives (ps : List Passage) : List Passage :=
  ps.filter (·.kind = .directive)

/-- The mistakes in the line of the passage, if it is a directive. -/
def faults : Passage → List Diagnostic
  | markup _ _ => []
  | directive _ l => l.faults

theorem faults_passage
    (ρ : Transcription) (p : Passage) :
    (ρ.passage p).faults = p.faults.map ρ.diagnostic := by
  cases p with
  | markup t ts =>
      rfl
  | directive mark l =>
      exact ρ.faults_directiveLine l

@[simp] theorem directives_nil :
    directives [] = [] := rfl

@[simp] theorem directives_markup
    (t : Token) (ts : List Token) (ps : List Passage) :
    directives (markup t ts :: ps) = directives ps := rfl

@[simp] theorem directives_directive
    (mark : Token) (l : DirectiveLine) (ps : List Passage) :
    directives (directive mark l :: ps) = directive mark l :: directives ps := rfl

/-- A token of markup adds no directive. -/
theorem directives_consMarkup
    (t : Token) (ps : List Passage) :
    directives (consMarkup t ps) = directives ps := by
  unfold consMarkup
  split
  · rfl
  · rfl

/-- A passage is a directive in either form or in neither. -/
theorem directives_map
    (ρ : Transcription) (ps : List Passage) :
    directives (ps.map ρ.passage) = (directives ps).map ρ.passage := by
  induction ps with
  | nil =>
      rfl
  | cons p ps ih =>
      cases p with
      | markup t ts =>
          exact ih
      | directive mark l =>
          exact congrArg (ρ.passage (.directive mark l) :: ·) ih

/-- The blocks of directives are those of the passages that are directives. -/
theorem directives_blocks
    (baseType : Text) (ps : List Passage) :
    Block.directives (ps.map (block baseType)) = (directives ps).map (block baseType) := by
  induction ps with
  | nil =>
      rfl
  | cons p ps ih =>
      cases p with
      | markup t ts =>
          exact ih
      | directive mark l =>
          exact congrArg ((directive mark l).block baseType :: ·) ih

/-- Only directives ask the generator for anything. -/
theorem descriptors_directives
    (baseType : Text) (ps : List Passage) :
    (directives ps).filterMap (descriptor? baseType) = ps.filterMap (descriptor? baseType) := by
  induction ps with
  | nil =>
      rfl
  | cons p ps ih =>
      cases p with
      | markup t ts =>
          exact ih
      | directive mark l =>
          exact congrArg (l.descriptor baseType :: ·) ih

end Passage

/-! ## Names that are missing -/

/-- Whether the diagnostic is about a name that is missing. -/
def Diagnostic.isMissing (d : Diagnostic) : Bool :=
  d.fault = .missingTypeName ∨ d.fault = .missingPropertyName

/-- A report is about a missing name or about a conflict. -/
theorem Diagnostic.isMissing_eq (d : Diagnostic) :
    d.isMissing = !d.isConflict := by
  obtain ⟨location, fault, keyword⟩ := d
  cases fault <;> rfl

/-- What is reported missing is what the lines lack, one directive after the other. -/
theorem History.filter_isMissing_reports
    (h : History) (ps : List Passage) :
    (h.reports ps).filter Diagnostic.isMissing =
      (Passage.directives ps).flatMap Passage.faults := by
  induction ps generalizing h with
  | nil =>
      rfl
  | cons p ps ih =>
      rw [History.reports, List.filter_append, ih]
      cases p with
      | markup t ts =>
          rfl
      | directive mark l =>
          have hfaults : l.faults.filter Diagnostic.isMissing = l.faults := by
            refine List.filter_eq_self.mpr ?_
            intro d hd
            rw [Diagnostic.isMissing_eq, DirectiveLine.isConflict_of_mem_faults hd]
            rfl
          have hconflicts :
              (h.conflicts l.directive l.place).filter Diagnostic.isMissing = [] := by
            refine List.filter_eq_nil_iff.mpr ?_
            intro d hd
            rw [Diagnostic.isMissing_eq, History.isConflict_of_mem_conflicts hd]
            exact Bool.noConfusion
          rw [Passage.reports, List.filter_append, hfaults, hconflicts, List.append_nil,
            Passage.directives_directive, List.flatMap_cons]
          rfl

/-! ## Tokens one behind the other -/

/-- A directive whose line ends is read without regard to what follows the line. -/
theorem DirectiveLine.read_append
    {ts : List Token} (h : ∃ t ∈ ts, t.kind = .newLine)
    (d : Directive) (designTime : Bool) (final : Location) (k : Token) (us : List Token) :
    read d designTime final k (ts ++ us) = read d designTime (placeOf final us) k ts := by
  simp only [read, Token.line_append_of_lineEnd h, Token.afterLine_append_of_lineEnd h,
    Token.placeOf_append]

/-- A token that does not end a line is not the last one of a list that does. -/
theorem Token.EndsLine.exists_lineEnd
    {t : Token} {ts : List Token} (h : EndsLine (t :: ts)) (ht : t.kind ≠ .newLine) :
    ∃ u ∈ ts, u.kind = .newLine := by
  rcases List.eq_nil_or_concat ts with rfl | ⟨us, u, rfl⟩
  · exact absurd (h t rfl) ht
  · rw [List.concat_eq_append] at h ⊢
    exact ⟨u, by simp, h u (by rw [← List.cons_append, List.getLast?_concat])⟩

/-- Whether a directive starts at a token does not depend on what follows a list that ends
its line. -/
theorem directiveAt_append
    {t : Token} {rest : List Token} (h : EndsLine (t :: rest)) (us : List Token) :
    directiveAt (t :: rest ++ us) = directiveAt (t :: rest) := by
  cases rest with
  | nil =>
      have ht : t.kind ≠ .transition := by
        rw [h t rfl]
        exact TokenKind.noConfusion
      rw [directiveAt_of_kind_ne ht]
      exact directiveAt_of_kind_ne ht us
  | cons k ts =>
      rfl

section Passages

variable (designTime : Bool) (final : Location)

/-- A token of markup at the start has no part in the directives. -/
theorem directives_of_markup
    {t : Token} {rest : List Token} (h : directiveAt (t :: rest) = none) :
    Passage.directives (passages designTime final (t :: rest)) =
      Passage.directives (passages designTime final rest) := by
  rw [passages_cons_of_markup h, Passage.directives_consMarkup]

/-- What passes from the rest of a document to before a directive or before one token of
markup holds of every document. -/
theorem tokenwise_induction
    {motive : List Token → Prop}
    (nil : motive [])
    (directive : ∀ (d : Directive) (t k : Token) (ts : List Token),
      directiveAt (t :: k :: ts) = some d →
        motive (afterLine designTime ts) → motive (t :: k :: ts))
    (markup : ∀ (t : Token) (rest : List Token), directiveAt (t :: rest) = none →
      motive rest → motive (t :: rest)) :
    ∀ ts, motive ts
  | [] => nil
  | [t] => markup t [] rfl nil
  | t :: k :: ts =>
      match h : directiveAt (t :: k :: ts) with
      | some d => directive d t k ts h (tokenwise_induction nil directive markup _)
      | none => markup t (k :: ts) h (tokenwise_induction nil directive markup _)
termination_by ts => ts.length
decreasing_by
  · have hle := Token.length_afterLine_le designTime ts
    simp only [List.length_cons]
    omega
  · simp

/-- The directives of tokens that end a line, and of those behind them. -/
theorem directives_append
    {ts : List Token} (h : EndsLine ts) (us : List Token) :
    Passage.directives (passages designTime final (ts ++ us)) =
      Passage.directives (passages designTime (placeOf final us) ts) ++
        Passage.directives (passages designTime final us) := by
  induction ts using tokenwise_induction designTime with
  | nil =>
      simp
  | directive d t k ts hd ih =>
      have hat : directiveAt (t :: k :: (ts ++ us)) = some d :=
        (directiveAt_append h us).trans hd
      -- The keyword does not end the line, so the line ends among the tokens after it.
      have hkeyword : k.kind ≠ .newLine := by
        obtain ⟨t', k', ts', heq, -, hk⟩ := (directiveAt_eq_some_iff _ _).mp hd
        cases heq
        rw [((Token.isKeyword_iff _ _).mp hk).1]
        exact TokenKind.noConfusion
      have hline : ∃ u ∈ ts, u.kind = .newLine :=
        (EndsLine.of_append [t] h).exists_lineEnd hkeyword
      have hafter : EndsLine (afterLine designTime ts) := by
        refine EndsLine.of_append (t :: k :: line designTime ts) ?_
        rwa [List.cons_append, List.cons_append, Token.line_append_afterLine]
      rw [List.cons_append, List.cons_append, passages_of_directive hat,
        passages_of_directive hd, Passage.directives_directive, Passage.directives_directive,
        DirectiveLine.read_append hline, Token.afterLine_append_of_lineEnd hline, ih hafter,
        List.cons_append]
  | markup t rest hd ih =>
      have hat : directiveAt (t :: (rest ++ us)) = none :=
        (directiveAt_append h us).trans hd
      rw [List.cons_append, directives_of_markup _ _ hat, directives_of_markup _ _ hd,
        ih (EndsLine.of_append [t] h)]

end Passages

/-! ## Templates one behind the other -/

/-- All that a template asks for stands in the blocks of its directives. -/
theorem Passage.descriptors_eq
    (baseType : Text) (ps : List Passage) :
    ((ps.map (block baseType)).flatMap Block.spans).filterMap Span.descriptor =
      ((Block.directives (ps.map (block baseType))).flatMap Block.spans).filterMap
        Span.descriptor := by
  rw [directives_blocks, descriptors_blocks, descriptors_blocks, descriptors_directives]

/-- What the blocks ask for does not depend on their places. -/
theorem Block.descriptors_behind
    (s : Text) (bs : List Block) :
    ((bs.map (behind s)).flatMap Block.spans).filterMap Span.descriptor =
      (bs.flatMap Block.spans).filterMap Span.descriptor := by
  have hspans : (bs.map (behind s)).flatMap Block.spans =
      (bs.flatMap Block.spans).map (Span.behind s) := by
    rw [List.flatMap_map, List.map_flatMap]
    rfl
  rw [hspans, List.filterMap_map]
  rfl

namespace Token

theorem endLocation_behind
    (s : Text) (t : Token) :
    (t.behind s).endLocation = t.endLocation.behind s := by
  have hplace := (Transcription.behind s).place_advance t.location t.content
  rw [Transcription.text_behind] at hplace
  exact hplace.symm

/-- A text is cut into the same tokens behind other lines. -/
theorem tokensFrom_behind
    (s : Text) (l : Location) (text : Text) :
    tokensFrom (l.behind s) text = (tokensFrom l text).map (behind s) := by
  induction l, text using tokensFrom_induction with
  | nil l =>
      simp
  | cons l c rest ih =>
      have hfirst : first (l.behind s) c rest = (first l c rest).behind s := rfl
      rw [tokensFrom_cons, tokensFrom_cons, hfirst, endLocation_behind, ih, List.map_cons]

end Token

section Templates

variable {before : Text} (h : EndsLine (Token.tokenize before)) (after : Text)
include h

/-- What follows a template that ends its last line starts where that line ends. -/
theorem advance_eq_behind :
    Location.start.advance before = Location.start.behind before :=
  (Location.behind_start (Token.exists_append_newline h)).symm

/-- The tokens of both templates are those of the one and those of the other behind it. -/
theorem tokenize_append :
    Token.tokenize (before ++ after) =
      Token.tokenize before ++ (Token.tokenize after).map (Token.behind before) := by
  rw [Token.tokenize, Token.tokensFrom_append h, advance_eq_behind h, Token.tokensFrom_behind]
  rfl

theorem advance_append_eq_behind :
    Location.start.advance (before ++ after) =
      (Location.start.advance after).behind before := by
  have hplace := (Transcription.behind before).place_advance Location.start after
  rw [Transcription.text_behind] at hplace
  rw [Location.advance_append, advance_eq_behind h]
  exact hplace.symm

/-- The directives of the two templates, the latter at their new places. -/
theorem directives_ofSource_append (designTime : Bool) :
    Passage.directives (Passage.ofSource designTime (before ++ after)) =
      Passage.directives (Passage.ofSource designTime before) ++
        (Passage.directives (Passage.ofSource designTime after)).map
          (Transcription.behind before).passage := by
  have hstart : placeOf (Location.start.advance after) (Token.tokenize after) =
      Location.start := by
    have hlocated : Token.Located Location.start ([] ++ Token.tokenize after) :=
      Token.located_tokensFrom Location.start after
    have hplace := Token.placeOf_of_located hlocated
    rwa [List.nil_append, Token.tokenize, Token.textOf_tokensFrom] at hplace
  have hborder : placeOf ((Location.start.advance after).behind before)
      ((Token.tokenize after).map (Token.behind before)) = Location.start.advance before := by
    have hplace := (Transcription.behind before).placeOf_map (Location.start.advance after)
      (Token.tokenize after)
    rw [Transcription.token_behind, hstart] at hplace
    exact hplace.trans (advance_eq_behind h).symm
  have hpassages := (Transcription.behind before).passages_map designTime
    (Location.start.advance after) (Token.tokenize after)
  rw [Transcription.token_behind] at hpassages
  rw [Passage.ofSource, tokenize_append h, advance_append_eq_behind h, directives_append _ _ h,
    hborder, ← Passage.directives_map]
  exact congrArg (_ ++ Passage.directives ·) hpassages

/-- Behind a template that is empty or ends its last line, another one is read as it is on its
own: its tokens, its directives and what is reported missing are found again, after those of
the first and at the places that follow. -/
theorem readTemplate_append :
    Token.tokenize (before ++ after) =
        Token.tokenize before ++ (Token.tokenize after).map (Token.behind before) ∧
      ∀ settings, ∃ first second both,
        readTemplate settings before = .ok first ∧
        readTemplate settings after = .ok second ∧
        readTemplate settings (before ++ after) = .ok both ∧
        both.descriptors = first.descriptors ++ second.descriptors ∧
        Block.directives both.blocks =
          Block.directives first.blocks ++
            (Block.directives second.blocks).map (Block.behind before) ∧
        both.diagnostics.filter Diagnostic.isMissing =
          first.diagnostics.filter Diagnostic.isMissing ++
            (second.diagnostics.filter Diagnostic.isMissing).map
              (Diagnostic.behind before) := by
  refine ⟨tokenize_append h after, fun settings => ⟨_, _, _,
    readTemplate_eq_passages settings before, readTemplate_eq_passages settings after,
    readTemplate_eq_passages settings (before ++ after), ?_⟩⟩
  have hpassages := directives_ofSource_append h after settings.designTime
  have hblocks : ((Passage.directives (Passage.ofSource settings.designTime after)).map
      (Transcription.behind before).passage).map (Passage.block settings.baseType) =
        ((Passage.directives (Passage.ofSource settings.designTime after)).map
          (Passage.block settings.baseType)).map (Block.behind before) := by
    rw [List.map_map, List.map_map, ← Transcription.block_behind]
    refine List.map_congr_left ?_
    intro p hp
    exact Transcription.block_of_mem_ofSource _ (List.mem_filter.mp hp).1 settings.baseType
  have hdirectives : Block.directives
      ((Passage.ofSource settings.designTime (before ++ after)).map
        (Passage.block settings.baseType)) =
      Block.directives ((Passage.ofSource settings.designTime before).map
        (Passage.block settings.baseType)) ++
      (Block.directives ((Passage.ofSource settings.designTime after).map
        (Passage.block settings.baseType))).map (Block.behind before) := by
    rw [Passage.directives_blocks, hpassages, List.map_append, hblocks,
      Passage.directives_blocks, Passage.directives_blocks]
  refine ⟨?_, hdirectives, ?_⟩
  · simp only [Results.descriptors, Results.spans]
    rw [Passage.descriptors_eq, hdirectives, List.flatMap_append, List.filterMap_append,
      Block.descriptors_behind, ← Passage.descriptors_eq, ← Passage.descriptors_eq]
  · have hdiagnostic : (Transcription.behind before).diagnostic = Diagnostic.behind before := rfl
    rw [History.filter_isMissing_reports, History.filter_isMissing_reports,
      History.filter_isMissing_reports, hpassages, List.flatMap_append, List.flatMap_map,
      List.map_flatMap]
    simp only [Passage.faults_passage, hdiagnostic]

end Templates

/-- A directive with a line end behind it, before one that has no name. -/
theorem readTemplate_append_of_model :
    EndsLine (Token.tokenize "@model A\n".toList) ∧
      (Token.tokenize ("@model A\n".toList ++ "@inject".toList)).map Token.location =
        [⟨0, 0, 0⟩, ⟨1, 0, 1⟩, ⟨6, 0, 6⟩, ⟨7, 0, 7⟩, ⟨8, 0, 8⟩, ⟨9, 1, 0⟩, ⟨10, 1, 1⟩] ∧
      ∃ both,
        readTemplate Settings.standard ("@model A\n".toList ++ "@inject".toList) = .ok both ∧
        both.descriptors = [.model Settings.standardBaseType "A".toList, .inject [] []] ∧
        both.diagnostics.filter Diagnostic.isMissing =
          [⟨⟨16, 1, 7⟩, .missingTypeName, "inject".toList⟩] := by
  have hlast : (Token.tokenize "@model A\n".toList).getLast? =
      some ⟨.newLine, "\n".toList, ⟨8, 0, 8⟩⟩ := by
    decide +kernel
  have hends : EndsLine (Token.tokenize "@model A\n".toList) := by
    intro t ht
    rw [hlast, Option.some.injEq] at ht
    rw [← ht]
  have hmodel : (readTemplate Settings.standard "@model A\n".toList).toOption.map
      (fun results => (results.descriptors, results.diagnostics)) =
        some ([.model Settings.standardBaseType "A".toList], []) := by
    decide +kernel
  have hinject : (readTemplate Settings.standard "@inject".toList).toOption.map
      (fun results => (results.descriptors, results.diagnostics)) =
        some ([.inject [] []], [⟨⟨7, 0, 7⟩, .missingTypeName, "inject".toList⟩]) := by
    decide +kernel
  obtain ⟨htokens, hread⟩ := readTemplate_append hends "@inject".toList
  obtain ⟨first, second, both, hfirst, hsecond, hboth, hdescriptors, -, hmissing⟩ :=
    hread Settings.standard
  rw [hfirst] at hmodel
  rw [hsecond] at hinject
  obtain ⟨hmodel, hnone⟩ := Prod.mk.inj (Option.some.inj hmodel)
  obtain ⟨hinject, hone⟩ := Prod.mk.inj (Option.some.inj hinject)
  refine ⟨hends, ?_, both, hboth, ?_, ?_⟩
  · rw [htokens]
    decide +kernel
  · rw [hdescriptors, hmodel, hinject]
    rfl
  · rw [hmissing, hnone, hone]
    decide

end PageTemplate
