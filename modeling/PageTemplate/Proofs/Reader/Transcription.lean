import PageTemplate.Proofs.Reader.Reading
import PageTemplate.Proofs.Token.Spelling
import PageTemplate.Proofs.Text.LineEnds

/-!
# Documents written down differently

The same document can be written down with other line ends, and its places can be counted
from elsewhere.  If the tokens are those of the document in their new form, then all that
comes out of it is.

**Input.**  What stands for a line feed, and what becomes of a place.

**Algorithm.**  Every text, token, span, block and report is rewritten part by part.  The
kinds of the tokens stay, and reading a document decides by kinds, keywords and trimmed texts
only.

**Results.**
* `splitSpace_map`, `directiveAt_map`, `read_map`: the steps of reading, before and after.
* `block_passage`, `passages_map`, `reports_map`: the document passage by passage.
* `readTemplate_of_tokenize_eq`: what comes out of a document in its new form.
-/

namespace PageTemplate

open Token (line afterLine splitSpace isSpacing staysOnLine placeOf textOf)

/-- A way to write a document down. -/
structure Transcription where
  /-- What stands for a line feed. -/
  lineEnd : Text
  /-- What becomes of a place. -/
  place : Location → Location
  /-- Something stands for a line feed. -/
  lineEnd_ne_nil : lineEnd ≠ []
  /-- What stands for a line feed is blank. -/
  lineEnd_blank : Text.AllBlank lineEnd
  /-- Within a line a character is one column. -/
  place_next : ∀ (l : Location) (c : Char), c ≠ '\n' → place (l.next c) = (place l).next c
  /-- A line ends after what stands for its line feed. -/
  place_newline : ∀ l : Location, place (l.next '\n') = (place l).advance lineEnd

namespace Transcription

variable (ρ : Transcription)

/-! ## What is written down -/

/-- A text written down. -/
def text (t : Text) : Text :=
  Text.withLineEnd ρ.lineEnd t

/-- A token written down. -/
def token (t : Token) : Token :=
  ⟨t.kind, ρ.text t.content, ρ.place t.location⟩

/-- A descriptor with its names written down.  The base class of a model comes from the
settings and stays. -/
def descriptor : Descriptor → Descriptor
  | .setBaseType baseType => .setBaseType (ρ.text baseType)
  | .model baseType modelType => .model baseType (ρ.text modelType)
  | .inject typeName propertyName => .inject (ρ.text typeName) (ρ.text propertyName)
  | .route pattern verb => .route (ρ.text pattern) verb

/-- A span written down. -/
def span (s : Span) : Span where
  kind := s.kind
  tokens := s.tokens.map ρ.token
  start := ρ.place s.start
  edits := s.edits
  descriptor := s.descriptor.map ρ.descriptor

/-- A block written down. -/
def block (b : Block) : Block :=
  ⟨b.kind, b.spans.map ρ.span⟩

/-- A report at its new place. -/
def diagnostic (d : Diagnostic) : Diagnostic :=
  ⟨ρ.place d.location, d.fault, d.keyword⟩

/-- All that comes out of a document, written down. -/
def results (r : Results) : Results :=
  ⟨r.blocks.map ρ.block, r.diagnostics.map ρ.diagnostic⟩

/-- A directive written down. -/
def directiveLine (l : DirectiveLine) : DirectiveLine :=
  ⟨l.directive, ρ.token l.keyword, l.tail.map ρ.token, ρ.place l.stop⟩

/-- A passage written down. -/
def passage : Passage → Passage
  | .markup t ts => .markup (ρ.token t) (ts.map ρ.token)
  | .directive mark l => .directive (ρ.token mark) (ρ.directiveLine l)

/-- A history with its place written down. -/
def history (h : History) : History :=
  ⟨h.baseType, h.modelSeen, h.inheritsEnd.map ρ.place⟩

/-! ## Texts and places -/

/-- The place behind a text is written down as the place behind the text written down. -/
theorem place_advance (l : Location) (t : Text) :
    ρ.place (l.advance t) = (ρ.place l).advance (ρ.text t) := by
  induction t generalizing l with
  | nil =>
      rfl
  | cons c t ih =>
      by_cases hc : c = '\n'
      · subst hc
        rw [text, Text.withLineEnd_newline, Location.advance_append, Location.advance_cons, ih,
          ρ.place_newline, text]
      · rw [text, Text.withLineEnd_cons_of_ne _ hc, Location.advance_cons, Location.advance_cons,
          ih, ρ.place_next l c hc, text]

/-- What stands for a line feed is trimmed where the line feed is. -/
theorem trim_text (t : Text) :
    Text.trim (ρ.text t) = ρ.text (Text.trim t) :=
  Text.trim_withLineEnd ρ.lineEnd_blank t

/-- Quotes are taken off before or after a text is written down. -/
theorem unquote_text (t : Text) :
    Text.unquote (ρ.text t) = ρ.text (Text.unquote t) :=
  Text.unquote_withLineEnd ρ.lineEnd_blank ρ.lineEnd_ne_nil t

/-- A text is a keyword exactly when it is one written down. -/
theorem text_eq_keyword_iff
    (d : Directive) (t : Text) :
    d.keyword = ρ.text t ↔ d.keyword = t := by
  have hblank := d.isBlank_eq_false_of_mem_keyword
  constructor
  · intro h
    have hmem : '\n' ∉ t := by
      intro hmem
      obtain ⟨e, rest, he⟩ := List.exists_cons_of_ne_nil ρ.lineEnd_ne_nil
      have hin : e ∈ ρ.text t :=
        List.mem_flatMap.mpr ⟨'\n', hmem, by simp [Text.spell, he]⟩
      rw [← h] at hin
      have hnot := hblank e hin
      rw [ρ.lineEnd_blank e (by simp [he])] at hnot
      cases hnot
    rw [h, text, Text.withLineEnd_of_not_mem _ hmem]
  · rintro rfl
    have hmem : '\n' ∉ d.keyword := fun hin => Bool.noConfusion (hblank '\n' hin)
    rw [text, Text.withLineEnd_of_not_mem _ hmem]

/-! ## Tokens -/

theorem kind_token (t : Token) :
    (ρ.token t).kind = t.kind := rfl

theorem textOf_map (ts : List Token) :
    textOf (ts.map ρ.token) = ρ.text (textOf ts) := by
  induction ts with
  | nil =>
      rfl
  | cons t ts ih =>
      rw [List.map_cons, Token.textOf_cons, Token.textOf_cons, ih]
      exact (Text.withLineEnd_append _ _ _).symm

/-- Tokens written down start where the place of the first one is put. -/
theorem placeOf_map
    (final : Location) (ts : List Token) :
    placeOf (ρ.place final) (ts.map ρ.token) = ρ.place (placeOf final ts) := by
  cases ts with
  | nil =>
      rfl
  | cons t ts =>
      rfl

/-- A line has the same tokens in both forms. -/
theorem line_map
    (designTime : Bool) (ts : List Token) :
    line designTime (ts.map ρ.token) = (line designTime ts).map ρ.token := by
  induction ts with
  | nil =>
      rfl
  | cons t ts ih =>
      simp only [List.map_cons, line, kind_token, ih]
      split
      · split <;> rfl
      · rfl

theorem afterLine_map
    (designTime : Bool) (ts : List Token) :
    afterLine designTime (ts.map ρ.token) = (afterLine designTime ts).map ρ.token := by
  induction ts with
  | nil =>
      rfl
  | cons t ts ih =>
      simp only [List.map_cons, afterLine, kind_token, ih]
      split
      · split <;> rfl
      · rfl

theorem dropWhile_isSpacing_map (ts : List Token) :
    (ts.map ρ.token).dropWhile (isSpacing false true) =
      (ts.dropWhile (isSpacing false true)).map ρ.token :=
  List.dropWhile_map

theorem takeWhile_staysOnLine_map (ts : List Token) :
    (ts.map ρ.token).takeWhile staysOnLine = (ts.takeWhile staysOnLine).map ρ.token :=
  List.takeWhile_map

theorem atLineEnd_map (ts : List Token) :
    Token.atLineEnd (ts.map ρ.token) = Token.atLineEnd ts := by
  cases ts with
  | nil =>
      rfl
  | cons t ts =>
      rfl

theorem atIdentifier_map (ts : List Token) :
    Token.atIdentifier (ts.map ρ.token) = Token.atIdentifier ts := by
  cases ts with
  | nil =>
      rfl
  | cons t ts =>
      rfl

/-- White space has no line feed, so its characters stay what they are. -/
theorem splitFirst_token
    {t : Token} (h : t.Spelled) (hkind : t.kind = .whiteSpace) :
    (ρ.token t).splitFirst = t.splitFirst.map (Prod.map ρ.token ρ.token) := by
  have hmem : ∀ c ∈ t.content, c ≠ '\n' := by
    rintro c hc rfl
    cases h.whiteSpace hkind _ hc
  obtain ⟨kind, content, location⟩ := t
  match content, hmem with
  | [], hmem =>
      rfl
  | [c], hmem =>
      simp [token, text, Token.splitFirst, Text.withLineEnd_cons_of_ne, hmem]
  | c :: d :: rest, hmem =>
      have hplace := ρ.place_next location c (hmem c List.mem_cons_self)
      simp [token, text, Token.splitFirst, Text.withLineEnd_cons_of_ne, hmem, hplace]

/-- After a keyword the same white space is cut off in both forms. -/
theorem splitSpace_map
    {ts : List Token} (h : ∀ t ∈ ts, t.Spelled) :
    splitSpace (ts.map ρ.token) =
      ((splitSpace ts).1.map ρ.token, (splitSpace ts).2.map ρ.token) := by
  cases ts with
  | nil =>
      rfl
  | cons t ts =>
      rw [List.map_cons, splitSpace, splitSpace]
      by_cases hkind : t.kind = .whiteSpace
      · have hkind' : (ρ.token t).kind = .whiteSpace := hkind
        rw [if_pos hkind, if_pos hkind', ρ.splitFirst_token (h t List.mem_cons_self) hkind]
        cases t.splitFirst with
        | none => rfl
        | some pair => rfl
      · have hkind' : ¬ (ρ.token t).kind = .whiteSpace := hkind
        rw [if_neg hkind, if_neg hkind']
        rfl

/-- The same directives start in both forms, since a keyword has no line feed. -/
theorem directiveAt_map (ts : List Token) :
    directiveAt (ts.map ρ.token) = directiveAt ts := by
  match ts with
  | [] =>
      rfl
  | [t] =>
      rfl
  | t :: k :: ts =>
      have hkeyword : Directive.table.get? (ρ.text k.content) =
          Directive.table.get? k.content := by
        refine Option.ext ?_
        intro d
        rw [Directive.get?_table_eq_some_iff, Directive.get?_table_eq_some_iff,
          text_eq_keyword_iff]
      simp only [List.map_cons, directiveAt, kind_token]
      rw [← hkeyword]
      rfl

/-- Markup goes on equally far in both forms. -/
theorem markupRun_map :
    ∀ (ts : List Token) (n : Nat), markupRun (ts.map ρ.token) n = markupRun ts n
  | [], n => rfl
  | t :: ts, n => by
      have hdirective := ρ.directiveAt_map (t :: ts)
      rw [List.map_cons] at hdirective ⊢
      simp only [markupRun, hdirective, markupRun_map ts]

/-! ## One directive -/

/-- A directive is read in its new form as it was in the old one. -/
theorem read_map
    (d : Directive) (designTime : Bool) (final : Location) (k : Token) (ts : List Token) :
    DirectiveLine.read d designTime (ρ.place final) (ρ.token k) (ts.map ρ.token) =
      ρ.directiveLine (DirectiveLine.read d designTime final k ts) := by
  simp only [DirectiveLine.read, directiveLine, line_map, afterLine_map, placeOf_map]

theorem ofKeyword_map
    (k : Token) (space : List Token) :
    Span.ofKeyword (ρ.token k) (space.map ρ.token) = ρ.span (Span.ofKeyword k space) := by
  cases space with
  | nil =>
      rfl
  | cons t space =>
      rfl

section DirectiveLine

variable (l : DirectiveLine)

theorem place_directiveLine :
    (ρ.directiveLine l).place = ρ.place l.place :=
  ρ.placeOf_map l.stop l.tail

theorem afterSpacing_directiveLine :
    (ρ.directiveLine l).afterSpacing = l.afterSpacing.map ρ.token :=
  ρ.dropWhile_isSpacing_map l.tail

/-- The type of a directive has the same tokens in both forms, since only their kinds count. -/
theorem typeName_directiveLine :
    (ρ.directiveLine l).typeName = l.typeName.map ρ.token := by
  rw [DirectiveLine.typeName, afterSpacing_directiveLine, TypeName.length_map ρ.kind_token,
    DirectiveLine.typeName, List.map_take]

theorem afterType_directiveLine :
    (ρ.directiveLine l).afterType = l.afterType.map ρ.token := by
  rw [DirectiveLine.afterType, afterSpacing_directiveLine, TypeName.length_map ρ.kind_token,
    DirectiveLine.afterType, List.map_drop]

theorem afterGap_directiveLine :
    (ρ.directiveLine l).afterGap = l.afterGap.map ρ.token := by
  rw [DirectiveLine.afterGap, afterType_directiveLine]
  exact ρ.dropWhile_isSpacing_map l.afterType

theorem property_directiveLine :
    (ρ.directiveLine l).property = l.property.map ρ.token := by
  rw [DirectiveLine.property, afterGap_directiveLine]
  exact ρ.takeWhile_staysOnLine_map l.afterGap

/-- A line lacks the same names in both forms. -/
theorem faults_directiveLine :
    (ρ.directiveLine l).faults = l.faults.map ρ.diagnostic := by
  have htype : (ρ.directiveLine l).missingTypeName = ρ.diagnostic l.missingTypeName := by
    rw [DirectiveLine.missingTypeName, afterSpacing_directiveLine]
    exact congrArg (Diagnostic.mk · _ _) (ρ.placeOf_map l.stop l.afterSpacing)
  have hproperty : (ρ.directiveLine l).missingPropertyName =
      ρ.diagnostic l.missingPropertyName := by
    rw [DirectiveLine.missingPropertyName, afterType_directiveLine]
    exact congrArg (Diagnostic.mk · _ _) (ρ.placeOf_map l.stop l.afterType)
  have hdirective : (ρ.directiveLine l).directive = l.directive := rfl
  unfold DirectiveLine.faults
  rw [htype, hproperty, afterSpacing_directiveLine, afterGap_directiveLine, atLineEnd_map,
    atLineEnd_map, atIdentifier_map, hdirective]
  split
  · split <;> rfl
  · split <;> rfl
  · split
    · split <;> rfl
    · rfl
  · rfl

variable {l} (h : ∀ t ∈ l.tail, t.Spelled)
include h

/-- The argument of a directive is written down token by token. -/
theorem argument_directiveLine :
    (ρ.directiveLine l).argument = l.argument.map ρ.token :=
  congrArg Prod.snd (ρ.splitSpace_map h)

/-- A directive asks for the same, under the names written down. -/
theorem descriptor_directiveLine (baseType : Text) :
    (ρ.directiveLine l).descriptor baseType = ρ.descriptor (l.descriptor baseType) := by
  have hdirective : (ρ.directiveLine l).directive = l.directive := rfl
  unfold DirectiveLine.descriptor
  rw [ρ.argument_directiveLine h, typeName_directiveLine, property_directiveLine, textOf_map,
    textOf_map, textOf_map, trim_text, trim_text, trim_text, unquote_text, hdirective]
  split <;> rfl

/-- The spans of a directive are cut at the same tokens in both forms. -/
theorem spans_directiveLine (baseType : Text) :
    (ρ.directiveLine l).spans baseType = (l.spans baseType).map ρ.span := by
  have hstart := ρ.placeOf_map l.stop l.argument
  have hspace : (splitSpace (ρ.directiveLine l).tail).1 = (splitSpace l.tail).1.map ρ.token :=
    congrArg Prod.fst (ρ.splitSpace_map h)
  rw [DirectiveLine.spans, DirectiveLine.argumentSpan, ρ.descriptor_directiveLine h,
    ρ.argument_directiveLine h, hspace]
  rw [directiveLine]
  dsimp only
  rw [hstart, ofKeyword_map]
  rfl

end DirectiveLine

/-! ## Passages -/

/-- A passage written down makes the block written down. -/
theorem block_passage
    {p : Passage} (h : ∀ t ∈ p.source, t.Spelled) (baseType : Text) :
    (ρ.passage p).block baseType = ρ.block (p.block baseType) := by
  cases p with
  | markup t ts =>
      rfl
  | directive mark l =>
      have htail : ∀ t ∈ l.tail, t.Spelled := by
        intro t ht
        exact h t (by simp [Passage.source, ht])
      rw [passage, Passage.block, ρ.spans_directiveLine htail]
      rfl

/-- A document has the same passages in both forms. -/
theorem passages_map
    (designTime : Bool) (final : Location) (ts : List Token) :
    passages designTime (ρ.place final) (ts.map ρ.token) =
      (passages designTime final ts).map ρ.passage := by
  induction ts using passages_induction designTime with
  | nil =>
      simp
  | directive d t k ts hd ih =>
      have hd' : directiveAt (ρ.token t :: ρ.token k :: ts.map ρ.token) = some d :=
        (ρ.directiveAt_map (t :: k :: ts)).trans hd
      rw [List.map_cons, List.map_cons, passages_of_directive hd', passages_of_directive hd,
        List.map_cons, afterLine_map, ih, read_map]
      rfl
  | markup t rest hd ih =>
      have hd' : directiveAt (ρ.token t :: rest.map ρ.token) = none :=
        (ρ.directiveAt_map (t :: rest)).trans hd
      rw [List.map_cons, passages_of_markup hd', passages_of_markup hd, List.map_cons,
        markupRun_map, ← List.map_drop, ih, passage, List.map_take]

/-- The blocks of a document change as its passages do. -/
theorem block_of_mem_ofSource
    {designTime : Bool} {source : Text} {p : Passage} (h : p ∈ Passage.ofSource designTime source)
    (baseType : Text) :
    (ρ.passage p).block baseType = ρ.block (p.block baseType) := by
  refine ρ.block_passage ?_ baseType
  intro t ht
  have hmem : t ∈ Token.tokenize source := by
    rw [← source_passages (Token.tokenize source)]
    exact List.mem_flatMap.mpr ⟨p, h, ht⟩
  exact Token.spelled_of_mem hmem

/-- Directives that conflict do so in both forms. -/
theorem conflicts_history
    (d : Directive) (place : Location) (h : History) :
    (ρ.history h).conflicts d (ρ.place place) = (h.conflicts d place).map ρ.diagnostic := by
  obtain ⟨baseType, modelSeen, inheritsEnd⟩ := h
  cases d with
  | inherits =>
      cases modelSeen <;> rfl
  | model =>
      cases modelSeen <;> cases inheritsEnd <;> rfl
  | inject =>
      rfl
  | route verb =>
      rfl

theorem record_passage
    (h : History) (p : Passage) :
    (ρ.passage p).record (ρ.history h) = ρ.history (p.record h) := by
  cases p with
  | markup t ts =>
      rfl
  | directive mark l =>
      have hdirective : (ρ.directiveLine l).directive = l.directive := rfl
      rw [passage, Passage.record, Passage.record, place_directiveLine, hdirective]
      cases l.directive <;> rfl

/-- A passage is reported with the same mistakes, at their new places. -/
theorem reports_passage
    (h : History) (p : Passage) :
    (ρ.passage p).reports (ρ.history h) = (p.reports h).map ρ.diagnostic := by
  cases p with
  | markup t ts =>
      rfl
  | directive mark l =>
      have hdirective : (ρ.directiveLine l).directive = l.directive := rfl
      rw [passage, Passage.reports, Passage.reports, place_directiveLine, faults_directiveLine,
        hdirective, conflicts_history, List.map_append]

/-- What is reported about passages, written down one by one. -/
theorem reports_map
    (h : History) (ps : List Passage) :
    (ρ.history h).reports (ps.map ρ.passage) = (h.reports ps).map ρ.diagnostic := by
  induction ps generalizing h with
  | nil =>
      rfl
  | cons p ps ih =>
      rw [List.map_cons, History.reports, History.reports, List.map_append, record_passage,
        reports_passage, ih]

end Transcription

/-- If the tokens of a document are those of another one written down, then all that comes
out of it is. -/
theorem readTemplate_of_tokenize_eq
    (ρ : Transcription) (settings : Settings) {source source' : Text}
    (htokens : Token.tokenize source' = (Token.tokenize source).map ρ.token)
    (hfinal : Location.start.advance source' = ρ.place (Location.start.advance source)) :
    readTemplate settings source' = (readTemplate settings source).map ρ.results := by
  have hpassages : Passage.ofSource settings.designTime source' =
      (Passage.ofSource settings.designTime source).map ρ.passage := by
    rw [Passage.ofSource, htokens, hfinal, ρ.passages_map, Passage.ofSource]
  have hblocks : ((Passage.ofSource settings.designTime source).map ρ.passage).map
      (Passage.block settings.baseType) =
        ((Passage.ofSource settings.designTime source).map
          (Passage.block settings.baseType)).map ρ.block := by
    rw [List.map_map, List.map_map]
    refine List.map_congr_left ?_
    intro p hp
    exact ρ.block_of_mem_ofSource hp settings.baseType
  have hreports := ρ.reports_map (History.fresh settings.baseType)
    (Passage.ofSource settings.designTime source)
  rw [readTemplate_eq_passages, readTemplate_eq_passages, hpassages, hblocks, Except.map,
    Transcription.results, ← hreports]
  rfl

end PageTemplate
