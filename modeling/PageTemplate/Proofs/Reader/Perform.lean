import PageTemplate.Proofs.Reader.DirectiveLine
import PageTemplate.Reader.Basic

/-!
# What performing a directive does

Every directive is performed in the same four steps, in whatever state the slicer is: its
keyword becomes a span, the mistakes of its line are reported, the rest of the line is
accepted, and the argument ends the block.  The directives differ in what they read off
the line, and the history adds its conflicts.

**Results.**
* `perform_eq`: the four steps, and the history afterwards.
* `cursor_perform`: a directive takes its keyword and its line.
* `diagnostics_perform`: it reports the mistakes of its line and its conflicts.
-/

namespace PageTemplate

attribute [ext] Reader

open Token (line splitSpace isSpacing staysOnLine placeOf)

namespace Slicer

/-- Several mistakes reported. -/
def reportAll (ds : List Diagnostic) (s : Slicer) : Slicer :=
  { s with diagnostics := s.diagnostics ++ ds.toArray }

@[simp] theorem reportAll_nil (s : Slicer) :
    s.reportAll [] = s := by
  simp [reportAll]

theorem reportAll_append
    (ds es : List Diagnostic) (s : Slicer) :
    s.reportAll (ds ++ es) = (s.reportAll ds).reportAll es := by
  simp [reportAll]

@[simp] theorem cursor_reportAll
    (ds : List Diagnostic) (s : Slicer) :
    (s.reportAll ds).cursor = s.cursor :=
  rfl

/-- What is reported and what is accepted do not touch each other. -/
theorem reportAll_acceptNext
    (ds : List Diagnostic) (n : Nat) (s : Slicer) :
    (s.acceptNext n).reportAll ds = (s.reportAll ds).acceptNext n :=
  rfl

theorem report_eq
    (location : Location) (fault : Fault) (keyword : Text) (s : Slicer) :
    s.report location fault keyword = s.reportAll [⟨location, fault, keyword⟩] := by
  simp [report, reportAll]

/-- A mistake that is reported on a condition is a list with one report or none. -/
theorem report_if
    (b : Bool) (location : Location) (fault : Fault) (keyword : Text) (s : Slicer) :
    (if b then s.report location fault keyword else s) =
      s.reportAll (if b then [⟨location, fault, keyword⟩] else []) := by
  cases b with
  | false =>
      simp
  | true =>
      simp [report_eq]

/-- The directive whose keyword was accepted last. -/
def lineOf (d : Directive) (k : Token) (s : Slicer) : DirectiveLine :=
  DirectiveLine.read d s.designTime s.cursor.final k s.cursor.rest

/-- The line of a directive taken after its keyword was accepted. -/
def takeLine (baseType : Text) (l : DirectiveLine) (s : Slicer) : Slicer :=
  ((s.outputKeyword.reportAll l.faults).acceptNext
    (line s.designTime s.outputKeyword.cursor.rest).length).finishDirective
      l.directive.argumentKind (l.descriptor baseType)

theorem rest_outputKeyword (s : Slicer) :
    s.outputKeyword.cursor.rest = s.cursor.rest.dropWhile (isSpacing false true) := by
  rw [cursor_outputKeyword]
  exact Cursor.rest_moveWhile _ _

/-- After the span of a keyword the slicer is where the spacing behind the keyword ends. -/
theorem location_outputKeyword (s : Slicer) :
    s.outputKeyword.location =
      placeOf s.cursor.final (s.cursor.rest.dropWhile (isSpacing false true)) := by
  rw [location, Cursor.location_eq_placeOf, rest_outputKeyword, cursor_outputKeyword]
  simp [Cursor.moveWhile]

theorem atLineEnd_eq (s : Slicer) :
    s.atLineEnd = Token.atLineEnd s.cursor.rest := by
  unfold atLineEnd atEnd isAt Cursor.atEnd Cursor.isAt Cursor.current? Token.atLineEnd
  cases s.cursor.rest <;> simp

section LineOf

variable (d : Directive) (k : Token) (s : Slicer)

/-- What stands on the line behind the spacing is what the slicer has yet to accept of it. -/
theorem afterSpacing_lineOf :
    (s.lineOf d k).afterSpacing = line s.designTime s.outputKeyword.cursor.rest := by
  rw [rest_outputKeyword]
  exact DirectiveLine.afterSpacing_read d s.designTime s.cursor.final k s.cursor.rest

/-- The slicer is at the line end exactly when nothing but spacing is left of the line. -/
theorem atLineEnd_outputKeyword :
    s.outputKeyword.atLineEnd = Token.atLineEnd (s.lineOf d k).afterSpacing := by
  rw [atLineEnd_eq, afterSpacing_lineOf, Token.atLineEnd_line]

/-- The slicer stands where the line would be reported to lack a type. -/
theorem location_eq_missingTypeName :
    s.outputKeyword.location = (s.lineOf d k).missingTypeName.location := by
  rw [location_outputKeyword, lineOf, DirectiveLine.missingTypeName_read]

/-- With the rest of the line, the draft holds the argument. -/
theorem tokens_argument
    (h : s.draft.tokens ≠ []) (ds : List Diagnostic) :
    ((s.outputKeyword.reportAll ds).acceptNext
      (line s.designTime s.outputKeyword.cursor.rest).length).draft =
        ⟨(s.lineOf d k).argument, .any, none⟩ := by
  have hsplit : (s.lineOf d k).argument =
      (splitSpace s.spacing).2 ++ line s.designTime s.outputKeyword.cursor.rest := by
    rw [rest_outputKeyword]
    exact congrArg Prod.snd (Token.splitSpace_line s.designTime s.cursor.rest)
  rw [hsplit]
  simp [reportAll, draft_outputKeyword h, Draft.accept, Token.take_length_line]

/-- The rest of the line is the argument of a base class or a model; a type is missing if nothing
is left of it. -/
theorem baseTypeArgument_eq
    (h : s.draft.tokens ≠ []) (describe : Text → Descriptor) :
    (s.baseTypeArgument d.keyword describe).2 =
      ((s.outputKeyword.reportAll
          (if Token.atLineEnd (s.lineOf d k).afterSpacing
            then [(s.lineOf d k).missingTypeName] else [])).acceptNext
        (line s.designTime s.outputKeyword.cursor.rest).length).finishDirective
          .code (describe (Text.trim (Token.textOf (s.lineOf d k).argument))) := by
  have hloc := location_eq_missingTypeName d k s
  have hdraft := tokens_argument d k s h
    (if Token.atLineEnd (s.lineOf d k).afterSpacing then [(s.lineOf d k).missingTypeName] else [])
  simp only [baseTypeArgument, report_if, acceptLine_eq, atLineEnd_outputKeyword d k, hloc]
  have hfault : (⟨(s.lineOf d k).missingTypeName.location, .missingTypeName, d.keyword⟩ :
      Diagnostic) = (s.lineOf d k).missingTypeName := rfl
  rw [hfault]
  simp only [reportAll, designTime_outputKeyword] at hdraft ⊢
  rw [Draft.text, hdraft]

/-- The argument of `inherits` is its line. -/
theorem inheritsArgument_eq
    (h : s.draft.tokens ≠ []) (baseType : Text) :
    s.inheritsArgument = s.takeLine baseType (s.lineOf .inherits k) :=
  baseTypeArgument_eq .inherits k s h .setBaseType

/-- The argument of `model` is its line. -/
theorem modelArgument_eq
    (h : s.draft.tokens ≠ []) (baseType : Text) :
    (s.baseTypeArgument Directive.model.keyword (.model baseType)).2 =
      s.takeLine baseType (s.lineOf .model k) :=
  baseTypeArgument_eq .model k s h (.model baseType)

/-- The argument of a route is its line, which never lacks anything. -/
theorem routeArgument_eq
    (h : s.draft.tokens ≠ []) (baseType : Text) (verb : Option Verb) :
    s.routeArgument verb = s.takeLine baseType (s.lineOf (.route verb) k) := by
  have hdraft := tokens_argument (.route verb) k s h []
  rw [reportAll_nil] at hdraft
  have hfaults : (s.lineOf (.route verb) k).faults = [] := rfl
  simp only [routeArgument, takeLine, acceptLine_eq, designTime_outputKeyword, hfaults,
    reportAll_nil]
  rw [Draft.text, hdraft]
  rfl

/-! ### The property -/

/-- The type name of the line is the one that the slicer stands at. -/
theorem typeName_lineOf :
    (s.lineOf d k).typeName =
      s.outputKeyword.cursor.rest.take (TypeName.length s.outputKeyword.cursor.rest) := by
  rw [rest_outputKeyword]
  exact DirectiveLine.typeName_read d s.designTime s.cursor.final k s.cursor.rest

/-- What follows the type name in the document. -/
def afterType : List Token :=
  s.outputKeyword.cursor.rest.drop (TypeName.length s.outputKeyword.cursor.rest)

/-- What follows the white space and comments after the type name in the document. -/
def afterGap : List Token :=
  s.afterType.dropWhile (isSpacing false true)

/-- Behind the type name and its gap the line goes on as the document does. -/
theorem afterGap_lineOf :
    (s.lineOf d k).afterGap = line s.designTime s.afterGap := by
  rw [afterGap, afterType, rest_outputKeyword]
  exact DirectiveLine.afterGap_read d s.designTime s.cursor.final k s.cursor.rest

theorem property_lineOf :
    (s.lineOf d k).property = s.afterGap.takeWhile staysOnLine := by
  rw [afterGap, afterType, rest_outputKeyword]
  exact DirectiveLine.property_read d s.designTime s.cursor.final k s.cursor.rest

theorem placeOf_afterType :
    placeOf s.cursor.final s.afterType = (s.lineOf d k).missingPropertyName.location := by
  rw [afterType, rest_outputKeyword, lineOf, DirectiveLine.missingPropertyName_read]

/-- The type name, the gap and the property make up the line. -/
theorem length_line_outputKeyword :
    (line s.designTime s.outputKeyword.cursor.rest).length =
      TypeName.length s.outputKeyword.cursor.rest +
        ((s.afterType.takeWhile (isSpacing false true)).length +
          (line s.designTime s.afterGap).length) := by
  have hle := TypeName.length_le s.outputKeyword.cursor.rest
  rw [TypeName.line_eq_take_length_append, List.length_append, List.length_take_of_le hle,
    Token.line_eq_takeWhile_append Token.staysOnLine_of_isSpacing, List.length_append]
  rfl

/-- The slicer before the property name. -/
def beforeProperty (ds : List Diagnostic) : Slicer :=
  (s.outputKeyword.reportAll ds).acceptNext
    (TypeName.length s.outputKeyword.cursor.rest +
      (s.afterType.takeWhile (isSpacing false true)).length)

/-- Before the property, the type name and the gap behind it are passed. -/
theorem rest_beforeProperty (ds : List Diagnostic) :
    (s.beforeProperty ds).cursor.rest = s.afterGap := by
  have hgap : (s.afterType.takeWhile (isSpacing false true) ++
      s.afterType.dropWhile (isSpacing false true)).drop
        (s.afterType.takeWhile (isSpacing false true)).length =
          s.afterType.dropWhile (isSpacing false true) :=
    List.drop_left
  rw [List.takeWhile_append_dropWhile] at hgap
  rw [beforeProperty, rest_acceptNext, cursor_reportAll, ← List.drop_drop]
  exact hgap

/-- With the property, all of the line is accepted. -/
theorem acceptLine_beforeProperty (ds : List Diagnostic) :
    ((s.beforeProperty ds).acceptUntil .newLine).acceptLineEnd =
      (s.outputKeyword.reportAll ds).acceptNext
        (line s.designTime s.outputKeyword.cursor.rest).length := by
  have hdesign : (s.beforeProperty ds).designTime = s.designTime := by
    simp [beforeProperty, acceptNext, reportAll]
  calc
    ((s.beforeProperty ds).acceptUntil .newLine).acceptLineEnd
        = (s.beforeProperty ds).acceptLine := rfl
    _ = (s.beforeProperty ds).acceptNext (line s.designTime s.afterGap).length := by
        rw [acceptLine_eq, rest_beforeProperty, hdesign]
    _ = (s.outputKeyword.reportAll ds).acceptNext
          (line s.designTime s.outputKeyword.cursor.rest).length := by
        rw [beforeProperty, acceptNext_acceptNext, length_line_outputKeyword, Nat.add_assoc]

/-- What is accepted from there up to the line end is the property. -/
theorem textFrom_beforeProperty (ds : List Diagnostic) :
    ((s.beforeProperty ds).acceptUntil .newLine).draft.textFrom
        (s.beforeProperty ds).draft.tokens.length =
      Token.textOf (s.lineOf d k).property := by
  have htake := List.prefix_iff_eq_take.mp
    (List.takeWhile_prefix staysOnLine (l := s.afterGap))
  rw [acceptUntil_newLine, draft_acceptNext, Draft.textFrom_accept, rest_beforeProperty,
    ← htake, property_lineOf]

/-- Reading up to the property name reports exactly the mistakes of the line. -/
theorem injectArgument_eq_beforeProperty :
    s.injectArgument =
      (((s.beforeProperty (s.lineOf .inject k).faults).acceptUntil .newLine).acceptLineEnd
        ).finishDirective .code (.inject
          (Text.trim (Token.textOf (s.lineOf .inject k).typeName))
          (Text.trim (((s.beforeProperty (s.lineOf .inject k).faults).acceptUntil
            .newLine).draft.textFrom
              (s.beforeProperty (s.lineOf .inject k).faults).draft.tokens.length))) := by
  have hnamed : s.outputKeyword.isAt .identifier =
      Token.atIdentifier (s.lineOf .inject k).afterSpacing := by
    rw [afterSpacing_lineOf, Token.atIdentifier_line]
    rfl
  have hgap (ds : List Diagnostic) :
      (((s.outputKeyword.reportAll ds).acceptTypeName).2).acceptSpacing =
        s.beforeProperty ds :=
    acceptNext_acceptNext _ _ _
  have hend (ds : List Diagnostic) :
      (s.beforeProperty ds).atLineEnd = Token.atLineEnd (s.lineOf .inject k).afterGap := by
    rw [atLineEnd_eq, rest_beforeProperty, afterGap_lineOf, Token.atLineEnd_line]
  have hplace (ds : List Diagnostic) :
      ((s.outputKeyword.reportAll ds).acceptTypeName).2.location =
        (s.lineOf .inject k).missingPropertyName.location := by
    rw [← placeOf_afterType, location, Cursor.location_eq_placeOf]
    simp [acceptTypeName, acceptNext, reportAll, afterType, cursor_outputKeyword,
      Cursor.moveWhile]
  have hname (ds : List Diagnostic) :
      ((s.outputKeyword.reportAll ds).acceptTypeName).1 =
        Token.textOf (s.lineOf .inject k).typeName := by
    rw [typeName_lineOf]
    rfl
  -- The property is looked for only behind a type, so one name is missing at most.
  cases hid : Token.atIdentifier (s.lineOf .inject k).afterSpacing with
  | false =>
      have hfaults : (s.lineOf .inject k).faults = [(s.lineOf .inject k).missingTypeName] := by
        simp [DirectiveLine.faults, lineOf, DirectiveLine.read] at hid ⊢
        simp [hid]
      have hreport : s.outputKeyword.report s.outputKeyword.location .missingTypeName
          Directive.inject.keyword =
            s.outputKeyword.reportAll (s.lineOf .inject k).faults := by
        rw [report_eq, hfaults, location_eq_missingTypeName .inject k s]
        rfl
      simp only [injectArgument, hnamed, hid, Bool.false_eq_true, if_false, Bool.false_and,
        hreport, hgap, hname]
  | true =>
      have hfaults : (s.lineOf .inject k).faults =
          if Token.atLineEnd (s.lineOf .inject k).afterGap
            then [(s.lineOf .inject k).missingPropertyName] else [] := by
        simp [DirectiveLine.faults, lineOf, DirectiveLine.read] at hid ⊢
        simp [hid]
      have hgap := hgap []
      have hend := hend []
      have hplace := hplace []
      have hname := hname []
      rw [reportAll_nil] at hgap hplace hname
      have hreport : (if Token.atLineEnd (s.lineOf .inject k).afterGap then
            (s.beforeProperty []).report (s.lineOf .inject k).missingPropertyName.location
              .missingPropertyName Directive.inject.keyword
          else s.beforeProperty []) =
            s.beforeProperty (s.lineOf .inject k).faults := by
        rw [report_if, hfaults, beforeProperty, reportAll_nil, reportAll_acceptNext]
        rfl
      simp only [injectArgument, hnamed, hid, if_true, Bool.true_and, hgap, hend, hplace,
        hreport, hname]

/-- The argument of `inject` is its line. -/
theorem injectArgument_eq (baseType : Text) :
    s.injectArgument = s.takeLine baseType (s.lineOf .inject k) := by
  rw [injectArgument_eq_beforeProperty k s, acceptLine_beforeProperty,
    textFrom_beforeProperty .inject k s]
  rfl

end LineOf

/-- Taking a line passes the tokens of the line and no others. -/
theorem cursor_takeLine
    (s : Slicer) (k : Token) (baseType : Text) (d : Directive) :
    (s.takeLine baseType (s.lineOf d k)).cursor =
      s.cursor.move (s.lineOf d k).tail.length := by
  have hline : (s.lineOf d k).tail =
      s.spacing ++ line s.designTime (s.cursor.rest.dropWhile (isSpacing false true)) :=
    Token.line_eq_takeWhile_append Token.staysOnLine_of_isSpacing s.designTime s.cursor.rest
  rw [takeLine, cursor_finishDirective, hline, List.length_append, ← Cursor.move_move,
    rest_outputKeyword]
  simp only [acceptNext, reportAll, cursor_outputKeyword]
  rfl

/-- Taking a line reports its mistakes, after those reported before. -/
theorem diagnostics_takeLine
    (s : Slicer) (baseType : Text) (l : DirectiveLine) :
    (s.takeLine baseType l).diagnostics = s.diagnostics ++ l.faults.toArray := by
  rw [takeLine, finishDirective_eq]
  simp [acceptNext, reportAll]

/-- The slicer stands where the directive stops when its argument is made a span. -/
theorem location_argument
    (s : Slicer) (k : Token) (d : Directive) (ds : List Diagnostic) :
    ((s.outputKeyword.reportAll ds).acceptNext
      (line s.designTime s.outputKeyword.cursor.rest).length).location =
        (s.lineOf d k).stop := by
  have hafter := Token.afterLine_dropWhile Token.staysOnLine_of_isSpacing
    s.designTime s.cursor.rest
  rw [location, Cursor.location_eq_placeOf, rest_acceptNext]
  simp only [acceptNext, reportAll, Cursor.final_move, cursor_outputKeyword, Cursor.moveWhile]
  rw [← Cursor.moveWhile, Cursor.rest_moveWhile, Token.drop_length_line, hafter]
  rfl

/-- A directive in a block that goes on adds its spans to the block and leaves nothing
open. -/
theorem takeLine_eq
    {s : Slicer} {k : Token}
    (hdraft : s.draft = ⟨[k], .any, none⟩) (hopen : s.completing = false)
    (baseType : Text) (d : Directive) :
    s.takeLine baseType (s.lineOf d k) =
      { s with
        cursor := s.cursor.move (s.lineOf d k).tail.length
        draft := Draft.empty
        block := none
        blocks := s.blocks.push
          ⟨.directive, s.openBlock.spans ++ (s.lineOf d k).spans baseType⟩
        diagnostics := s.diagnostics ++ (s.lineOf d k).faults.toArray } := by
  have htokens := tokens_argument d k s (by simp [hdraft]) (s.lineOf d k).faults
  have hplace := location_argument s k d (s.lineOf d k).faults
  ext1
  case cursor => exact cursor_takeLine s k baseType d
  case diagnostics => exact diagnostics_takeLine s baseType (s.lineOf d k)
  case blocks =>
    rw [takeLine, finishDirective_eq]
    simp only [htokens, hplace]
    simp only [outputKeyword_eq hdraft hopen, acceptNext, reportAll, openBlock]
    simp [DirectiveLine.spans, DirectiveLine.argumentSpan, Draft.toSpan, placeOf,
      DirectiveLine.argument, lineOf, DirectiveLine.read, Token.splitSpace_line, spacing]
  all_goals
    simp [takeLine, finishDirective_eq, acceptNext, reportAll, hopen]

end Slicer

/-! ## Directives and their history -/

namespace History

/-- The conflicts of a directive with those before it.  The place is the one after its
keyword. -/
def conflicts (d : Directive) (place : Location) (h : History) : List Diagnostic :=
  match d with
  | .inherits =>
      if h.modelSeen then [⟨place, .modelAndInherits, Directive.model.keyword⟩] else []
  | .model =>
      (if h.modelSeen then [⟨place, .duplicateModel, Directive.model.keyword⟩] else []) ++
        (h.inheritsEnd.map
          (fun p => ⟨p, .modelAndInherits, Directive.model.keyword⟩)).toList
  | _ => []

/-- The history after a directive. -/
def record (d : Directive) (place : Location) (h : History) : History :=
  match d with
  | .inherits => { h with inheritsEnd := some place }
  | .model => { h with modelSeen := true }
  | _ => h

end History

namespace Reader

open Slicer

/-- The directive whose keyword stands at the reader. -/
def lineOf (d : Directive) (k : Token) (r : Reader) : DirectiveLine :=
  (r.slicer.acceptNext 1).lineOf d k

/-- A conflict of the directive is reported where its keyword ends. -/
theorem place_lineOf (d : Directive) (k : Token) (r : Reader) :
    (r.lineOf d k).place = (r.slicer.acceptNext 1).location := by
  rw [Slicer.location, Cursor.location_eq_placeOf]
  exact Token.placeOf_line r.slicer.designTime _ _

/-- A conflict with `inherits` is reported if both directives were seen, where the `inherits`
ended. -/
theorem reportConflict_eq (r : Reader) :
    r.reportConflict.slicer =
      r.slicer.reportAll (if r.history.modelSeen then
        (r.history.inheritsEnd.map
          (fun p => (⟨p, .modelAndInherits, Directive.model.keyword⟩ : Diagnostic))).toList
        else []) := by
  unfold reportConflict
  cases hseen : r.history.modelSeen with
  | false =>
      simp
  | true =>
      cases hplace : r.history.inheritsEnd with
      | none =>
          simp
      | some place =>
          simp [report_eq]

theorem history_reportConflict (r : Reader) :
    r.reportConflict.history = r.history := by
  unfold reportConflict
  split <;> rfl

theorem draft_acceptNext_ne_nil
    {r : Reader} {k : Token} {ts : List Token}
    (h : r.slicer.cursor.rest = k :: ts) :
    (r.slicer.acceptNext 1).draft.tokens ≠ [] := by
  simp [h]

/-- A directive takes its line, and its history adds the conflicts. -/
theorem perform_eq
    {r : Reader} {k : Token} {ts : List Token}
    (h : r.slicer.cursor.rest = k :: ts) (d : Directive) :
    r.perform d =
      ⟨((r.slicer.acceptNext 1).takeLine r.history.baseType (r.lineOf d k)).reportAll
          (r.history.conflicts d (r.lineOf d k).place),
        r.history.record d (r.lineOf d k).place⟩ := by
  have hdraft := draft_acceptNext_ne_nil h
  have hplace := place_lineOf d k r
  cases d with
  | inherits =>
      have hargument := inheritsArgument_eq k (r.slicer.acceptNext 1) hdraft r.history.baseType
      ext1
      · rw [perform, performInherits, reportConflict_eq, hargument, hplace]
        rfl
      · rw [perform, performInherits, history_reportConflict, hplace]
        rfl
  | model =>
      have hargument := modelArgument_eq k (r.slicer.acceptNext 1) hdraft r.history.baseType
      ext1
      · rw [perform, performModel, reportConflict_eq, hargument, report_if, hplace,
          History.conflicts, reportAll_append]
        rfl
      · rw [perform, performModel, history_reportConflict]
        rfl
  | inject =>
      have hargument := injectArgument_eq k (r.slicer.acceptNext 1) r.history.baseType
      simp only [perform, hargument, History.conflicts, History.record, reportAll_nil, lineOf]
  | route verb =>
      have hargument :=
        routeArgument_eq k (r.slicer.acceptNext 1) hdraft r.history.baseType verb
      simp only [perform, hargument, History.conflicts, History.record, reportAll_nil, lineOf]

/-- A directive takes its keyword and its line. -/
theorem cursor_perform
    {r : Reader} {k : Token} {ts : List Token}
    (h : r.slicer.cursor.rest = k :: ts) (d : Directive) :
    (r.perform d).slicer.cursor =
      r.slicer.cursor.move (1 + (line r.slicer.designTime ts).length) := by
  have hmove := cursor_takeLine (r.slicer.acceptNext 1) k r.history.baseType d
  rw [perform_eq h]
  simp only [reportAll, lineOf, hmove]
  simp [acceptNext, Cursor.move_move, Slicer.lineOf, DirectiveLine.read, h]

/-- A directive reports the mistakes of its line and its conflicts with those before it. -/
theorem diagnostics_perform
    {r : Reader} {k : Token} {ts : List Token}
    (h : r.slicer.cursor.rest = k :: ts) (d : Directive) :
    (r.perform d).slicer.diagnostics.toList =
      r.slicer.diagnostics.toList ++
        ((r.lineOf d k).faults ++ r.history.conflicts d (r.lineOf d k).place) := by
  rw [perform_eq h]
  simp [reportAll, diagnostics_takeLine, acceptNext]

end Reader
end PageTemplate
