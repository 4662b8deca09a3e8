import PageTemplate.Token.Stream
import PageTemplate.Proofs.Text.LineEnds
import PageTemplate.Proofs.Text.Lines
import PageTemplate.Proofs.Token.Spelling
import PageTemplate.Proofs.Token.Counters

/-!
# Tokens of a text with carriage returns

A text without carriage returns is read again with one before each of its line feeds.  Every
token is found again, with the same change in its text.  The exception is a string literal that
goes over the end of a line behind a backslash: the backslash then protects the carriage return
only, and the literal stops between the two.

**Input.**  A character and the text after it, with and without carriage returns.

**Algorithm.**  The counters of the lexeme go over both texts side by side.

**Results.**
* `runLength_crlf`, `lineLength_crlf`, `throughClose_crlf`, `literalLength_crlf`: each counter
  takes the same characters.
* `lexeme_crlf`: so does the lexeme.
* `not_infix_of_stringLiteral`: no string literal goes over a carriage return and a line feed.
-/

namespace PageTemplate

/-- The text with a carriage return before every line feed. -/
def Text.crlf (t : Text) : Text :=
  Text.withLineEnd ['\r', '\n'] t

namespace Text

theorem crlf_cons_of_ne
    {c : Char} (h : c ≠ '\n') (t : Text) :
    crlf (c :: t) = c :: crlf t :=
  withLineEnd_cons_of_ne _ h t

@[simp] theorem crlf_newline (t : Text) :
    crlf ('\n' :: t) = '\r' :: '\n' :: crlf t := rfl

theorem crlf_append (s t : Text) :
    crlf (s ++ t) = crlf s ++ crlf t :=
  withLineEnd_append _ s t

theorem crlf_of_not_mem
    {t : Text} (h : '\n' ∉ t) :
    crlf t = t :=
  withLineEnd_of_not_mem _ h

/-- The first character stays if it is not blank. -/
theorem head?_crlf
    {c : Char} (hc : isBlank c = false) (t : Text) :
    (crlf t).head? = some c ↔ t.head? = some c :=
  head?_withLineEnd (by decide) (by decide) hc t

end Text

namespace Token

open Text (crlf firstLine laterLines)

/-! ## Counters -/

/-- A run that no line end is part of ends at the same character. -/
theorem runLength_crlf
    {p : Char → Bool} (hfeed : p '\n' = false) (hreturn : p '\r' = false) (t : Text) :
    runLength p (crlf t) = (crlf (t.take (runLength p t))).length := by
  have hmem : '\n' ∉ t.take (runLength p t) := by
    intro h
    rw [mem_take_runLength h] at hfeed
    cases hfeed
  have hsame : (crlf t).takeWhile p = t.takeWhile p :=
    Text.takeWhile_withLineEnd hfeed hreturn ['\n'] t
  have hle := runLength_le p t
  rw [Text.crlf_of_not_mem hmem, List.length_take_of_le hle, runLength, hsame, runLength]

/-- Without carriage returns a line is as long as it is. -/
theorem lineLength_of_not_mem
    {t : Text} (h : '\r' ∉ t) :
    lineLength t = (firstLine t).length := by
  have hlast : (firstLine t).getLast? ≠ some '\r' := by
    intro hlast
    exact h (List.takeWhile_subset _ (List.mem_of_getLast? hlast))
  exact if_neg hlast

theorem lineLength_crlf
    {t : Text} (h : '\r' ∉ t) :
    lineLength (crlf t) = (crlf (t.take (lineLength t))).length := by
  have hsplit := Text.firstLine_append_laterLines t
  have htake : t.take (firstLine t).length = firstLine t :=
    (List.prefix_iff_eq_take.mp ⟨laterLines t, hsplit⟩).symm
  rw [lineLength_of_not_mem h, htake, Text.crlf_of_not_mem (Text.newline_not_mem_firstLine t)]
  by_cases hmem : '\n' ∈ t
  · obtain ⟨rest, hrest⟩ := Text.laterLines_of_mem hmem
    have hfirst := Text.newline_not_mem_firstLine t
    have hline : firstLine (crlf t) = firstLine t ++ ['\r'] := by
      conv => lhs; rw [← hsplit, hrest, Text.crlf_append, Text.crlf_of_not_mem hfirst]
      rw [Text.firstLine_append_of_not_mem hfirst]
      rfl
    have hlast : (firstLine (crlf t)).getLast? = some '\r' := by
      rw [hline, List.getLast?_concat]
    have hreturn : lineLength (crlf t) = (firstLine (crlf t)).length - 1 := if_pos hlast
    rw [hreturn, hline, List.length_append, List.length_singleton, Nat.add_sub_cancel]
  · rw [Text.crlf_of_not_mem hmem, lineLength_of_not_mem h]

/-- A comment is closed at the same place, however many lines it has. -/
theorem throughClose_crlf (t : Text) :
    throughClose (crlf t) 0 = (crlf (t.take (throughClose t 0))).length := by
  induction t with
  | nil =>
      rfl
  | cons c t ih =>
      by_cases hclose : c = '*' ∧ t.head? = some '/'
      · obtain ⟨rest, rfl⟩ := List.head?_eq_some_iff.mp hclose.2
        obtain ⟨rfl, -⟩ := hclose
        rw [Text.crlf_cons_of_ne (by decide), Text.crlf_cons_of_ne (by decide),
          throughClose_cons, throughClose_cons]
        rfl
      · rw [throughClose_cons, if_neg hclose, List.take_succ_cons]
        by_cases hc : c = '\n'
        · subst hc
          rw [Text.crlf_newline, Text.crlf_newline, throughClose_cons, if_neg (by simp),
            throughClose_cons, if_neg (by simp), ih]
          rfl
        · have hclose' : ¬ (c = '*' ∧ (crlf t).head? = some '/') := by
            rwa [Text.head?_crlf (by decide)]
          rw [Text.crlf_cons_of_ne hc, Text.crlf_cons_of_ne hc, throughClose_cons,
            if_neg hclose', ih]
          rfl

/-- A string literal that stays on its line takes the same characters. -/
theorem literalLength_crlf
    (escaped : Bool) {t : Text} (hreturn : '\r' ∉ t)
    (hstay : '\n' ∉ t.take (literalLength escaped t 0)) :
    literalLength escaped (crlf t) 0 = literalLength escaped t 0 := by
  induction t generalizing escaped with
  | nil =>
      rfl
  | cons c t ih =>
      rw [List.mem_cons, not_or] at hreturn
      cases escaped with
      | true =>
          rw [literalLength_cons_true, List.take_succ_cons, List.mem_cons, not_or] at hstay
          rw [Text.crlf_cons_of_ne (Ne.symm hstay.1), literalLength_cons_true,
            literalLength_cons_true, ih false hreturn.2 hstay.2]
      | false =>
          by_cases hc : c = '\n'
          · subst hc
            rfl
          · rw [Text.crlf_cons_of_ne hc, literalLength_cons_false, literalLength_cons_false]
            rw [literalLength_cons_false] at hstay
            split
            · rfl
            · next hquote =>
                have hgo : ¬ (c = '\n' ∨ c = '\r') := by
                  simp [hc, Ne.symm hreturn.1]
                rw [if_neg hgo, if_neg hgo]
                rw [if_neg hquote, if_neg hgo, List.take_succ_cons, List.mem_cons, not_or] at hstay
                rw [ih (c = '\\') hreturn.2 hstay.2]

/-! ## Lexemes -/

/-- The lexeme takes the same characters, unless it is a string literal over a line end. -/
theorem lexeme_crlf
    {c : Char} {rest : Text} (hc : c ≠ '\n') (hreturn : '\r' ∉ c :: rest)
    (hstay : (lexeme c rest).1 = .stringLiteral → '\n' ∉ rest.take (lexeme c rest).2) :
    lexeme c (crlf rest) =
      ((lexeme c rest).1, (crlf (rest.take (lexeme c rest).2)).length) := by
  have hslash := Text.head?_crlf (c := '/') (by decide) rest
  have hstar := Text.head?_crlf (c := '*') (by decide) rest
  rw [List.mem_cons, not_or] at hreturn
  obtain ⟨hcr, hrest⟩ := hreturn
  cases hspace : isSpaceOrTab c with
  | true =>
      rw [lexeme_of_space hspace, lexeme_of_space hspace,
        runLength_crlf (by decide) (by decide)]
  | false =>
      by_cases hline : c = '/' ∧ rest.head? = some '/'
      · obtain ⟨rfl, hhead⟩ := hline
        have hlength := lineLength_crlf hrest
        obtain ⟨rest, rfl⟩ := List.head?_eq_some_iff.mp hhead
        rw [Text.crlf_cons_of_ne (by decide)] at hlength ⊢
        rw [lexeme_of_lineComment, lexeme_of_lineComment, hlength]
      by_cases hblock : c = '/' ∧ rest.head? = some '*'
      · obtain ⟨rfl, hhead⟩ := hblock
        obtain ⟨rest, rfl⟩ := List.head?_eq_some_iff.mp hhead
        rw [Text.crlf_cons_of_ne (by decide), lexeme_of_blockComment, lexeme_of_blockComment,
          throughClose_crlf]
        rfl
      by_cases hquote : c = '"'
      · subst hquote
        rw [lexeme_of_quote] at hstay ⊢
        have hstay := hstay rfl
        rw [lexeme_of_quote, literalLength_crlf false hrest hstay, Text.crlf_of_not_mem hstay,
          List.length_take_of_le]
        simpa using literalLength_le false rest 0
      rw [lexeme_of_plain hc (Ne.symm hcr) hspace hquote hline hblock,
        lexeme_of_plain hc (Ne.symm hcr) hspace hquote (by rwa [hslash]) (by rwa [hstar])]
      split
      · rfl
      · split
        · rw [runLength_crlf (by decide +kernel) (by decide +kernel)]
        · rfl

/-! ## String literals -/

theorem not_infix_cons
    {c : Char} {u : Text} (hc : c = '\r' → u.head? ≠ some '\n')
    (hu : ¬ ['\r', '\n'] <:+: u) :
    ¬ ['\r', '\n'] <:+: c :: u := by
  intro h
  rcases List.infix_cons_iff.mp h with hstart | hpair
  · obtain ⟨hhead, hrest⟩ := List.cons_prefix_cons.mp hstart
    obtain ⟨rest, rfl⟩ := hrest
    exact hc hhead.symm rfl
  · exact hu hpair

/-- A literal takes a line feed only behind a backslash, and so none behind a carriage
return. -/
theorem not_infix_literalLength
    (escaped : Bool) (t : Text) :
    ¬ ['\r', '\n'] <:+: t.take (literalLength escaped t 0) ∧
      (escaped = false → (t.take (literalLength escaped t 0)).head? ≠ some '\n') := by
  induction t generalizing escaped with
  | nil =>
      simp
  | cons c t ih =>
      cases escaped with
      | true =>
          obtain ⟨hpair, hhead⟩ := ih false
          rw [literalLength_cons_true, List.take_succ_cons]
          exact ⟨not_infix_cons (fun _ => hhead rfl) hpair, Bool.noConfusion⟩
      | false =>
          rw [literalLength_cons_false]
          split
          · next hquote =>
              subst hquote
              refine ⟨not_infix_cons (fun h => absurd h (by decide)) (by simp), ?_⟩
              simp
          split
          · simp
          · next hgo =>
              rw [not_or] at hgo
              obtain ⟨hpair, -⟩ := ih (c = '\\')
              rw [List.take_succ_cons]
              refine ⟨not_infix_cons (fun h => absurd h hgo.2) hpair, ?_⟩
              simp [hgo.1]

theorem not_infix_of_stringLiteral
    {l : Location} {text : Text} {t : Token}
    (h : t ∈ tokensFrom l text) (hkind : t.kind = .stringLiteral) :
    ¬ ['\r', '\n'] <:+: t.content := by
  obtain ⟨c, rest, n, hlexes, hcontent⟩ := exists_lexes_of_mem h
  rw [hkind] at hlexes
  rw [hcontent]
  cases hlexes with
  | literal hc =>
      subst hc
      exact not_infix_cons (fun h => absurd h (by decide)) (not_infix_literalLength false rest).1
  | mark hmark =>
      simp [punctuation] at hmark

/-- Every line feed gets a carriage return before it. -/
theorem infix_crlf
    {t : Text} (h : '\n' ∈ t) :
    ['\r', '\n'] <:+: crlf t := by
  obtain ⟨before, after, rfl⟩ := List.append_of_mem h
  exact ⟨crlf before, crlf after, by simp [Text.crlf_append]⟩

end Token
end PageTemplate
