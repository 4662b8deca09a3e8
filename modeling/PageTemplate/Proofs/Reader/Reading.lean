import PageTemplate.Proofs.Reader.Passage
import PageTemplate.Reader.Template

/-!
# Reading is taking the passages

A reader is *idle* when it has no token and no block open.  From an idle reader every
passage leads to an idle reader again, and so the whole document is read by taking its
passages one by one.

**Results.**
* `readAll_eq_foldl`: reading a document is taking its passages one by one.
* `readTemplate_eq_passages`: what comes out of a template, passage by passage.
-/

namespace PageTemplate

open Token (line afterLine placeOf)

/-- The passages of a document. -/
def Passage.ofSource (designTime : Bool) (source : Text) : List Passage :=
  passages designTime (Location.start.advance source) (Token.tokenize source)

/-- What is reported about passages that follow the given history. -/
def History.reports (h : History) : List Passage → List Diagnostic
  | [] => []
  | p :: ps => p.reports h ++ (p.record h).reports ps

namespace Slicer

/-- Whether nothing is open: no token, no block, and no completion. -/
structure Idle (s : Slicer) : Prop where
  draft : s.draft = Draft.empty
  block : s.block = none
  completing : s.completing = false

/-- Before anything is read, nothing is open. -/
theorem idle_ofTokens
    (designTime : Bool) (ts : List Token) :
    (ofTokens designTime ts).Idle :=
  ⟨rfl, rfl, rfl⟩

theorem Idle.settled
    {s : Slicer} (h : s.Idle) :
    s.Settled :=
  ⟨by rw [h.draft]; rfl, h.block, h.completing⟩

theorem endBlock_of_idle
    {s : Slicer} (h : s.Idle) :
    s.endBlock = s :=
  endBlock_of_settled h.settled

/-- A new block can be opened before or after the old one is ended. -/
theorem beginBlock_endBlock
    {s : Slicer} (h : s.endBlock.Idle) (kind : BlockKind) :
    s.endBlock.beginBlock kind = s.beginBlock kind := by
  unfold beginBlock
  rw [endBlock_of_idle h]

/-- From an idle slicer, the `@` opens a block with the mark for its only span. -/
theorem outputTransition_eq
    {s : Slicer} (h : s.Idle) {t : Token} {ts : List Token}
    (hrest : s.cursor.rest = t :: ts) :
    s.outputTransition =
      { s with
        cursor := s.cursor.move 1
        block := some ⟨.statement, [⟨.transition, [t], t.location, .any, none⟩]⟩ } := by
  have hend := endBlock_of_idle h
  obtain ⟨hdraft, hblock, hcompleting⟩ := h
  ext1
  all_goals
    simp [outputTransition, beginBlock, hend, acceptNext, output, emit, hdraft, hcompleting,
      hrest, Draft.isEmpty, Draft.empty, Draft.accept, Draft.toSpan, openBlock]

end Slicer

namespace Reader

open Slicer (Idle)

/-- The reader after a passage. -/
def take (r : Reader) (p : Passage) : Reader where
  slicer :=
    { r.slicer with
      cursor := r.slicer.cursor.move p.source.length
      blocks := r.slicer.blocks.push (p.block r.history.baseType)
      diagnostics := r.slicer.diagnostics ++ (p.reports r.history).toArray }
  history := p.record r.history

theorem rest_take
    (r : Reader) (p : Passage) :
    (r.take p).slicer.cursor.rest = r.slicer.cursor.rest.drop p.source.length :=
  rfl

theorem final_take
    (r : Reader) (p : Passage) :
    (r.take p).slicer.cursor.final = r.slicer.cursor.final :=
  Cursor.final_move p.source.length r.slicer.cursor

/-- After a passage nothing is open. -/
theorem idle_take
    {r : Reader} (h : r.slicer.Idle) (p : Passage) :
    (r.take p).slicer.Idle :=
  ⟨h.draft, h.block, h.completing⟩

/-- The line of a directive is the same from its `@` and from its keyword. -/
theorem lineOf_outputTransition
    {r : Reader} (h : r.slicer.Idle) {t k : Token} {ts : List Token}
    (hrest : r.slicer.cursor.rest = t :: k :: ts) (d : Directive) :
    (r.slicer.outputTransition.acceptNext 1).lineOf d k =
      DirectiveLine.read d r.slicer.designTime r.slicer.cursor.final k ts := by
  rw [Slicer.outputTransition_eq h hrest]
  simp [Slicer.lineOf, Slicer.acceptNext, hrest]

/-- A directive performed behind its `@` is one passage. -/
theorem perform_eq_take
    {r : Reader} (h : r.slicer.Idle) {t k : Token} {ts : List Token}
    (hrest : r.slicer.cursor.rest = t :: k :: ts) (d : Directive) :
    perform d { r with slicer := r.slicer.outputTransition } =
      r.take (.directive t
        (DirectiveLine.read d r.slicer.designTime r.slicer.cursor.final k ts)) := by
  have htransition := Slicer.outputTransition_eq h hrest
  have hkeyword : ({ r with slicer := r.slicer.outputTransition } : Reader).slicer.cursor.rest =
      k :: ts := by
    simp [htransition, hrest]
  have hdraft : (r.slicer.outputTransition.acceptNext 1).draft = ⟨[k], .any, none⟩ := by
    simp [htransition, hrest, h.draft, Draft.empty, Draft.accept]
  have hopen : (r.slicer.outputTransition.acceptNext 1).completing = false := by
    simp [htransition, Slicer.acceptNext, h.completing]
  have htake := Slicer.takeLine_eq hdraft hopen r.history.baseType d
  rw [perform_eq hkeyword, lineOf]
  dsimp only
  rw [htake, lineOf_outputTransition h hrest, htransition]
  have hmoves : (t :: k :: line r.slicer.designTime ts).length =
      2 + (line r.slicer.designTime ts).length := by
    simp only [List.length_cons]
    omega
  ext1
  · ext1
    all_goals
      simp [take, Slicer.reportAll, Slicer.acceptNext, Slicer.openBlock, Passage.source,
        Passage.block, Passage.reports, DirectiveLine.read, Cursor.move_move, h.draft,
        h.block, h.completing, hmoves, -List.length_cons]
  · rfl

/-- A directive read by an idle reader is one passage. -/
theorem readDirective_eq_take
    {r : Reader} (h : r.slicer.Idle) {t k : Token} {ts : List Token}
    (hrest : r.slicer.cursor.rest = t :: k :: ts) (d : Directive) :
    r.readDirective d =
      r.take (.directive t
        (DirectiveLine.read d r.slicer.designTime r.slicer.cursor.final k ts)) := by
  rw [readDirective, perform_eq_take h hrest, Slicer.endBlock_of_idle (idle_take h _)]

/-- Markup read by an idle reader is one passage as soon as its block is ended. -/
theorem endBlock_readMarkup
    {r : Reader} (h : r.slicer.Idle) {t : Token} {rest : List Token}
    (hrest : r.slicer.cursor.rest = t :: rest)
    (hd : directiveAt (t :: rest) = none) :
    { r.readMarkup with slicer := r.readMarkup.slicer.endBlock } =
      r.take (.markup t (rest.take (markupRun rest 0))) := by
  have hrun := markupRun_of_markup hd
  have hle := markupRun_le rest
  obtain ⟨hdraft, hblock, hcompleting⟩ := h
  ext1
  · ext1
    all_goals
      simp [readMarkup, take, Slicer.ensureMarkup, Slicer.beginBlock, Slicer.acceptNext,
        Slicer.endBlock, Slicer.output, Slicer.emit, Slicer.closeBlock, Slicer.leftoverKind,
        Slicer.openBlock, hdraft, hblock, hcompleting, hrest, hrun, hle, Draft.isEmpty,
        Draft.empty, Draft.accept, Draft.toSpan, Passage.block, Passage.source, Passage.reports]
  · rfl

/-- Where a passage starts or the document ends, it does not matter whether the block
before was ended. -/
theorem readAll_endBlock
    {r : Reader} (h : r.slicer.endBlock.Idle)
    (hnext : r.slicer.cursor.rest = [] ∨ ∃ d, directiveAt r.slicer.cursor.rest = some d) :
    ({ r with slicer := r.slicer.endBlock } : Reader).readAll = r.readAll := by
  rcases hnext with hrest | ⟨d, hd⟩
  · have hrest' : ({ r with slicer := r.slicer.endBlock } : Reader).slicer.cursor.rest = [] := by
      simp [hrest]
    rw [readAll_of_end hrest, readAll_of_end hrest', Slicer.endBlock_of_idle h]
  · have hd' : directiveAt
        ({ r with slicer := r.slicer.endBlock } : Reader).slicer.cursor.rest = some d := by
      simp [hd]
    have htransition : r.slicer.endBlock.outputTransition = r.slicer.outputTransition := by
      rw [Slicer.outputTransition, Slicer.beginBlock_endBlock h]
      rfl
    rw [readAll_of_directive hd, readAll_of_directive hd', readDirective, readDirective]
    dsimp only
    rw [htransition]

/-- Reading a document is taking its passages one by one. -/
theorem readAll_eq_foldl
    {r : Reader} (h : r.slicer.Idle) {ts : List Token}
    (hrest : r.slicer.cursor.rest = ts) :
    r.readAll =
      .ok ((passages r.slicer.designTime r.slicer.cursor.final ts).foldl take r) := by
  obtain ⟨designTime, hmode⟩ : ∃ designTime, r.slicer.designTime = designTime := ⟨_, rfl⟩
  rw [hmode]
  induction ts using passages_induction designTime generalizing r with
  | nil =>
      rw [readAll_of_end hrest, Slicer.endBlock_of_idle h, passages_nil, List.foldl_nil]
  | directive d t k ts hd ih =>
      have htake := readDirective_eq_take h hrest d
      rw [hmode] at htake
      have hrest' : (r.readDirective d).slicer.cursor.rest = afterLine designTime ts := by
        simp [htake, rest_take, hrest, Passage.source, DirectiveLine.read,
          Token.drop_length_line]
      have hread := ih (by rw [htake]; exact idle_take h _) hrest' (by rw [htake]; exact hmode)
      rw [readAll_of_directive (by rw [hrest]; exact hd), hread, htake, final_take,
        passages_of_directive hd, List.foldl_cons]
  | markup t rest hd ih =>
      -- The block of markup stays open until the next passage begins, so the induction goes
      -- through the reader whose block is already ended.
      have htake := endBlock_readMarkup h hrest hd
      have hidle := idle_take h (.markup t (rest.take (markupRun rest 0)))
      have hended : r.readMarkup.slicer.endBlock = (r.take _).slicer :=
        congrArg Reader.slicer htake
      have hrest' : r.readMarkup.slicer.cursor.rest = rest.drop (markupRun rest 0) := by
        rw [← Slicer.cursor_endBlock, hended, rest_take, hrest]
        simp [Passage.source, Nat.min_eq_left (markupRun_le rest)]
      have hsame := readAll_endBlock (r := r.readMarkup) (by rw [hended]; exact hidle)
        (by rw [hrest']; exact directiveAt_drop_markupRun rest)
      have hread := ih hidle (by rw [← hended, Slicer.cursor_endBlock, hrest']) hmode
      rw [readAll_of_markup (by simp [hrest]) (by rw [hrest]; exact hd), ← hsame, htake, hread,
        final_take, passages_of_markup hd, List.foldl_cons]

/-! ## What comes out -/

theorem idle_foldl_take
    (ps : List Passage) {r : Reader} (h : r.slicer.Idle) :
    (ps.foldl take r).slicer.Idle := by
  induction ps generalizing r with
  | nil =>
      exact h
  | cons p ps ih =>
      exact ih (idle_take h p)

/-- Each passage that is taken makes one block. -/
theorem blocks_foldl_take
    (ps : List Passage) (r : Reader) :
    (ps.foldl take r).slicer.blocks.toList =
      r.slicer.blocks.toList ++ ps.map (Passage.block r.history.baseType) := by
  induction ps generalizing r with
  | nil =>
      simp
  | cons p ps ih =>
      rw [List.foldl_cons, ih, List.map_cons]
      simp [take]

/-- What is reported about passages is reported one after the other. -/
theorem diagnostics_foldl_take
    (ps : List Passage) (r : Reader) :
    (ps.foldl take r).slicer.diagnostics.toList =
      r.slicer.diagnostics.toList ++ r.history.reports ps := by
  induction ps generalizing r with
  | nil =>
      simp [History.reports]
  | cons p ps ih =>
      rw [List.foldl_cons, ih, History.reports]
      simp [take]

/-- The end of the document is where its text leads. -/
theorem final_ofSource
    (settings : Settings) (source : Text) :
    (Reader.ofSource settings source).slicer.cursor.final = Location.start.advance source := by
  have hend := Token.endOf?_of_located (Token.located_tokensFrom Location.start source)
  rwa [Token.textOf_tokensFrom] at hend

end Reader

/-- What comes out of a template, passage by passage. -/
theorem readTemplate_eq_passages
    (settings : Settings) (source : Text) :
    readTemplate settings source =
      .ok ⟨(Passage.ofSource settings.designTime source).map (Passage.block settings.baseType),
        (History.fresh settings.baseType).reports
          (Passage.ofSource settings.designTime source)⟩ := by
  have hstart : (Reader.ofSource settings source).slicer.Idle :=
    Slicer.idle_ofTokens _ _
  have hread := Reader.readAll_eq_foldl hstart rfl
  rw [Reader.final_ofSource] at hread
  rw [readTemplate_eq, hread, Except.map, Reader.results, Slicer.results,
    Slicer.endBlock_of_idle (Reader.idle_foldl_take _ hstart), Reader.blocks_foldl_take,
    Reader.diagnostics_foldl_take]
  rfl

end PageTemplate
