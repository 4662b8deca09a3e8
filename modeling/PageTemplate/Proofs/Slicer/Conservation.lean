import PageTemplate.Proofs.Slicer.Onward

/-!
# No text is gained or lost

**Input.**  A list of tokens, and a sequence of operations on the slicer that starts before
the first of them.

A token waits at the cursor, goes into the draft of a span, and with it into the open block
and among the complete ones.  Only when white space is cut after its first character, the
rest of it is in the hands of the caller, who has to give it back before anything else is
accepted.  The text in all of these places, in this order, is the *account* of the slicer.

**Results.**
* `account_acceptNext`, `account_acceptOneSpace`, `account_accept`: what moves tokens keeps
  the account.
* `account_apply`, `account_run`: so does every operation, and every run that gives back what
  it was handed.
* `results_run`: what such a run makes of the tokens it passed is all of their text.
-/

namespace PageTemplate

theorem Cursor.move_one_ne
    {c : Cursor} {t : Token} (h : c.current? = some t) :
    c.move 1 ≠ c := by
  obtain ⟨ts, hrest⟩ := List.head?_eq_some_iff.mp h
  intro hsame
  have hlength := congrArg (fun d : Cursor => d.rest.length) hsame
  simp [hrest] at hlength

namespace Slicer

open Token (textOf)

/-- The text of everything accepted, in the complete blocks, the open one and the draft. -/
def text (s : Slicer) : Text :=
  s.blocks.toList.flatMap Block.text ++ s.openBlock.text ++ s.draft.text

/-- The text of everything accepted, then of what the caller holds, and then of the tokens
at the cursor. -/
def account (held : List Token) (s : Slicer) : Text :=
  s.text ++ textOf held ++ textOf s.cursor.rest

/-- What an operation hands to the caller. -/
def Operation.handed (s : Slicer) : Operation → Option Token
  | acceptOneSpace => s.acceptOneSpace.1
  | _ => none

/-- Whether the operation accepts a token of the caller. -/
def Operation.isAccept : Operation → Bool
  | accept _ => true
  | _ => false

/-- Whether a run gives back exactly what it was handed, each piece before another token is
accepted and before the run ends, where at first the caller may hold one piece. -/
inductive GivesBack : Option Token → Slicer → List Operation → Prop
  | done {s : Slicer} :
      GivesBack none s []
  | step {s : Slicer} {op : Operation} {ops : List Operation} :
      op.isAccept = false → GivesBack (op.handed s) (op.apply s) ops →
        GivesBack none s (op :: ops)
  | wait {t : Token} {s : Slicer} {op : Operation} {ops : List Operation} :
      op.isAccept = false → (op.apply s).cursor = s.cursor → GivesBack (some t) (op.apply s) ops →
        GivesBack (some t) s (op :: ops)
  | giveBack {t : Token} {s : Slicer} {ops : List Operation} :
      GivesBack none (s.accept [t]) ops → GivesBack (some t) s (.accept t :: ops)

/-! ## Spans and blocks -/

@[simp] theorem text_emit (kind : SpanKind) (s : Slicer) :
    (s.emit kind).text = s.text := by
  unfold emit
  split
  · rfl
  · have hspan : (s.draft.toSpan kind s.location).text = s.draft.text := rfl
    simp [text, openBlock, Block.text, Draft.empty, Draft.text, hspan]

@[simp] theorem text_closeBlock (s : Slicer) :
    s.closeBlock.text = s.text := by
  unfold closeBlock
  split
  · rfl
  · next b hblock =>
      have hnew : Block.text ⟨.statement, []⟩ = [] := rfl
      simp [text, openBlock, hblock, hnew]

@[simp] theorem text_output (kind : SpanKind) (s : Slicer) :
    (s.output kind).text = s.text := by
  unfold output
  split
  · exact (text_closeBlock _).trans (text_emit kind s)
  · exact text_emit kind s

@[simp] theorem text_finishDirective
    (kind : SpanKind) (descriptor : Descriptor) (s : Slicer) :
    (s.finishDirective kind descriptor).text = s.text :=
  text_output kind _

@[simp] theorem text_endBlock (s : Slicer) :
    s.endBlock.text = s.text := by
  unfold endBlock
  split
  · exact text_closeBlock s
  · exact (text_closeBlock _).trans (text_output _ s)

/-- All text that was accepted comes out. -/
theorem text_results (s : Slicer) :
    s.results.text = s.text := by
  obtain ⟨hdraft, hblock, -⟩ := s.settled_endBlock
  have htokens : s.endBlock.draft.tokens = [] := ((Draft.isEmpty_iff _).mp hdraft).1
  have hnew : Block.text ⟨.statement, []⟩ = [] := rfl
  rw [← text_endBlock, text, openBlock, hblock, Draft.text, htokens]
  simp [hnew, Results.text, results]

/-! ## Accepting -/

section Accepting

variable (s : Slicer)

/-- What leaves the cursor and the text alone keeps the account. -/
theorem account_congr
    {s s' : Slicer} (hcursor : s'.cursor = s.cursor) (htext : s'.text = s.text)
    (held : List Token) :
    s'.account held = s.account held := by
  rw [account, account, hcursor, htext]

theorem account_report
    (location : Location) (fault : Fault) (keyword : Text) (held : List Token) :
    (s.report location fault keyword).account held = s.account held := rfl

/-- What is accepted was to come, and stands in the draft from then on. -/
theorem account_acceptNext (n : Nat) :
    (s.acceptNext n).account [] = s.account [] := by
  have hcut : textOf (s.cursor.rest.take n) ++ textOf (s.cursor.rest.drop n) =
      textOf s.cursor.rest := by
    rw [← Token.textOf_append, List.take_append_drop]
  have htext : (s.acceptNext n).text = s.text ++ textOf (s.cursor.rest.take n) := by
    simp [text, openBlock, acceptNext]
  rw [account, account, htext, rest_acceptNext, Token.textOf_nil, List.append_nil,
    List.append_nil, List.append_assoc, hcut]

/-- What the caller holds is in place as soon as it is accepted. -/
theorem account_accept (held : List Token) :
    (s.accept held).account [] = s.account held := by
  have htext : (s.accept held).text = s.text ++ textOf held := by
    simp [text, openBlock, accept]
  rw [account, account, htext, cursor_accept, Token.textOf_nil, List.append_nil]

/-- Of a longer white space the first character is accepted and the rest handed over. -/
theorem account_acceptOneSpace :
    s.acceptOneSpace.2.account s.acceptOneSpace.1.toList = s.account [] := by
  unfold acceptOneSpace
  split
  · rfl
  · next t hspace =>
      split
      · exact s.account_acceptNext 1
      · next first rest hsplit =>
          have hcut := (Token.content_of_splitFirst hsplit).2
          obtain ⟨ts, hrest⟩ : ∃ ts, s.cursor.rest = t :: ts :=
            List.head?_eq_some_iff.mp (Option.eq_some_of_filter_eq_some hspace)
          simp [account, text, openBlock, hrest, ← hcut]

/-- The span of a keyword and the spacing behind it leave the account as it was. -/
theorem account_outputKeyword :
    s.outputKeyword.account [] = s.account [] := by
  have hspace : s.claimBlock.acceptOneSpace.2.account s.claimBlock.acceptOneSpace.1.toList =
      s.account [] :=
    account_acceptOneSpace s.claimBlock
  have hafter (marked : Slicer) (held : List Token) :
      (((marked.output .metaCode).accept held).acceptSpacing).account [] =
        marked.account held := by
    rw [acceptSpacing, acceptWhile, account_acceptNext, account_accept]
    exact account_congr (cursor_output _ _) (text_output _ _) held
  unfold outputKeyword
  dsimp only
  rw [hafter]
  split
  · exact hspace
  · exact hspace

theorem account_acceptIf (kind : TokenKind) :
    (s.acceptIf kind).account [] = s.account [] := by
  unfold acceptIf
  split
  · exact s.account_acceptNext 1
  · rfl

/-- The rest of a line leaves the account as it was, too. -/
theorem account_acceptLine :
    s.acceptLine.account [] = s.account [] := by
  rw [acceptLine_eq]
  exact s.account_acceptNext _

theorem account_baseTypeArgument
    (keyword : Text) (describe : Text → Descriptor) :
    (s.baseTypeArgument keyword describe).2.account [] = s.account [] := by
  have hline (checked : Slicer) (descriptor : Descriptor) :
      (checked.acceptLine.finishDirective .code descriptor).account [] =
        checked.account [] :=
    (account_congr (cursor_finishDirective _ _ _) (text_finishDirective _ _ _) []).trans
      checked.account_acceptLine
  unfold baseTypeArgument
  dsimp only
  rw [hline]
  split
  · rw [account_report, account_outputKeyword]
  · rw [account_outputKeyword]

end Accepting

/-! ## Runs -/

/-- Every operation keeps the account, with what it hands over. -/
theorem account_apply
    {op : Operation} (hop : op.isAccept = false) (s : Slicer) :
    (op.apply s).account (op.handed s).toList = s.account [] := by
  cases op with
  | accept t => cases hop
  | acceptNext => exact s.account_acceptNext 1
  | acceptWhile p => exact s.account_acceptNext _
  | acceptUntil kind => exact s.account_acceptNext _
  | acceptIf kind => exact s.account_acceptIf kind
  | acceptOneSpace => exact s.account_acceptOneSpace
  | acceptTypeName => exact s.account_acceptNext _
  | setEdits edits => rfl
  | setDescriptor descriptor => rfl
  | claimBlock => rfl
  | completeBlock => rfl
  | output kind => exact account_congr (cursor_output kind s) (text_output kind s) []
  | outputKeyword => exact s.account_outputKeyword
  | baseTypeArgument keyword describe => exact s.account_baseTypeArgument keyword describe
  | inheritsArgument => exact s.account_baseTypeArgument _ _
  | report location fault keyword => rfl

/-- Nothing is handed over where the cursor stays. -/
theorem handed_eq_none
    {op : Operation} {s : Slicer} (h : (op.apply s).cursor = s.cursor) :
    op.handed s = none := by
  cases op with
  | acceptOneSpace =>
      rw [Operation.apply] at h
      rw [Operation.handed]
      unfold acceptOneSpace at h ⊢
      split at h
      · rfl
      · next t hspace =>
          -- The token that is cut has been passed.
          split at h
          · rfl
          · exact absurd h (Cursor.move_one_ne (Option.eq_some_of_filter_eq_some hspace))
  | _ => rfl

/-- An operation that leaves the cursor alone accepts nothing but what it is given. -/
theorem text_apply
    {op : Operation} (hop : op.isAccept = false) {s : Slicer} (h : (op.apply s).cursor = s.cursor) :
    (op.apply s).text = s.text := by
  have haccount := account_apply hop s
  rw [handed_eq_none h, account, account, h] at haccount
  simpa using haccount

/-- Every run that gives back what it is handed keeps the account. -/
theorem account_run
    {held : Option Token} {s : Slicer} {ops : List Operation}
    (h : GivesBack held s ops) :
    (s.run ops).account [] = s.account held.toList := by
  induction h with
  | done => rfl
  | step hop _ ih => exact ih.trans (account_apply hop _)
  | wait hop hcursor _ ih => exact ih.trans (account_congr hcursor (text_apply hop hcursor) _)
  | giveBack _ ih => exact ih.trans (account_accept _ _)

/-- Where the account is the text of all tokens, that of the passed ones was accepted. -/
theorem text_of_account
    {s : Slicer} (h : s.account [] = textOf s.cursor.tokens) :
    s.text = textOf (s.cursor.tokens.take s.cursor.position) := by
  have hcut : textOf s.cursor.tokens =
      textOf (s.cursor.tokens.take s.cursor.position) ++ textOf s.cursor.rest := by
    rw [s.cursor.rest_eq_drop, ← Token.textOf_append, List.take_append_drop]
  rw [account, Token.textOf_nil, List.append_nil, hcut] at h
  exact List.append_cancel_right h

/-- After any operations that give back what they hold, the text of all results is that of the
tokens passed. -/
theorem text_run
    (designTime : Bool) (ts : List Token) {ops : List Operation}
    (h : GivesBack none (ofTokens designTime ts) ops) :
    ((ofTokens designTime ts).run ops).text =
      textOf (ts.take ((ofTokens designTime ts).run ops).cursor.position) := by
  have htokens : ((ofTokens designTime ts).run ops).cursor.tokens = ts :=
    (onward_run _ ops).cursor.tokens_eq
  have haccount : ((ofTokens designTime ts).run ops).account [] = textOf ts :=
    account_run h
  rw [text_of_account (haccount.trans (congrArg textOf htokens.symm)), htokens]

/-- A run that gives back what it is handed makes blocks of all text of the tokens it passed,
and of no more; and no step of it takes back a block or a diagnostic, or changes one. -/
theorem results_run
    (designTime : Bool) (ts : List Token) (ops : List Operation)
    (h : GivesBack none (ofTokens designTime ts) ops) :
    ((ofTokens designTime ts).run ops).results.text =
        textOf (ts.take ((ofTokens designTime ts).run ops).cursor.position) ∧
      ∀ before between after, ops = before ++ between ++ after →
        let earlier := (ofTokens designTime ts).run before
        let later := (ofTokens designTime ts).run (before ++ between)
        let results := ((ofTokens designTime ts).run ops).results
        later.cursor.position ≤ ts.length ∧
          earlier.blocks.toList <+: later.blocks.toList ∧
          later.blocks.toList <+: results.blocks ∧
          earlier.diagnostics.toList <+: later.diagnostics.toList ∧
          later.diagnostics.toList <+: results.diagnostics ∧
          ∀ (i : Nat) (b : Block), earlier.blocks[i]? = some b →
            later.blocks[i]? = some b ∧ results.blocks[i]? = some b := by
  refine ⟨(text_results _).trans (text_run designTime ts h), ?_⟩
  rintro before between after rfl
  dsimp only
  have hlater : ((ofTokens designTime ts).run before).Onward
      ((ofTokens designTime ts).run (before ++ between)) := by
    rw [run_append]
    exact onward_run _ _
  have hall : ((ofTokens designTime ts).run (before ++ between)).Onward
      ((ofTokens designTime ts).run (before ++ between ++ after)) := by
    rw [run_append _ (before ++ between)]
    exact onward_run _ _
  have hposition := ((ofTokens designTime ts).run (before ++ between)).cursor.position_le
  rw [(onward_run (ofTokens designTime ts) _).cursor.tokens_eq] at hposition
  have hend := hall.trans (onward_endBlock _)
  refine ⟨hposition, hlater.blocks, hend.blocks, hlater.diagnostics, hend.diagnostics, ?_⟩
  intro i b hb
  have hkept := hlater.getElem?_blocks hb
  refine ⟨hkept, ?_⟩
  rw [results, Array.getElem?_toList]
  exact hend.getElem?_blocks hkept

/-- The white space after a keyword is cut, and its rest is given back after the span of the
keyword. -/
theorem results_run_of_model :
    let ts : List Token :=
      [⟨.identifier, "model".toList, ⟨0, 0, 0⟩⟩, ⟨.whiteSpace, "  ".toList, ⟨5, 0, 5⟩⟩,
        ⟨.identifier, "P".toList, ⟨7, 0, 7⟩⟩, ⟨.newLine, "\n".toList, ⟨8, 0, 8⟩⟩]
    let ops : List Operation :=
      [.acceptNext, .acceptOneSpace, .claimBlock, .output .metaCode,
        .accept ⟨.whiteSpace, " ".toList, ⟨6, 0, 6⟩⟩, .acceptUntil .newLine, .completeBlock,
        .output .code]
    GivesBack none (ofTokens false ts) ops ∧
      ((ofTokens false ts).run ops).results.text = "model  P".toList := by
  intro ts ops
  have hback : GivesBack none (ofTokens false ts) ops :=
    .step rfl (.step rfl (.wait rfl rfl (.wait rfl rfl (.giveBack
      (.step rfl (.step rfl (.step rfl .done)))))))
  exact ⟨hback, (results_run false ts ops hback).1.trans (by decide)⟩

end Slicer
end PageTemplate
