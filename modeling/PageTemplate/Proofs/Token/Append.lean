import PageTemplate.Proofs.Token.Counters
import PageTemplate.Proofs.Token.Spelling
import PageTemplate.Proofs.Text.Lines

/-!
# Tokens of a text with more text behind it

A text whose last token is a line end has no token that could go on.  Whatever is written
behind it is cut into tokens on its own, at the places that follow.

**Input.**  A text that is empty or whose last token is a line end, and any other text.

**Algorithm.**  The lexeme at the start of the text is the same with and without the other
text behind it: either it is the line end at the end, or it stops before a line feed that is
still to come.

**Results.**
* `runLength_append`, `lineLength_append`, `throughClose_append`, `literalLength_append`: a
  counter that stops inside a text stops there with more text behind it.
* `lexeme_append`: so does a lexeme.
* `tokensFrom_append`: the tokens of the two texts are those of the one and those of the other.
-/

namespace PageTemplate
namespace Token

open Text (firstLine)

/-! ## Counters -/

theorem runLength_append
    {p : Char → Bool} {t : Text} (h : runLength p t < t.length) (more : Text) :
    runLength p (t ++ more) = runLength p t := by
  have hstop : (t.takeWhile p).length ≠ t.length := Nat.ne_of_lt h
  rw [runLength, List.takeWhile_append, if_neg hstop, runLength]

theorem lineLength_append
    {t : Text} (h : '\n' ∈ t) (more : Text) :
    lineLength (t ++ more) = lineLength t := by
  have hline : (t ++ more).takeWhile (· ≠ '\n') = t.takeWhile (· ≠ '\n') :=
    Text.firstLine_append_of_mem h more
  rw [lineLength, hline, lineLength]

/-- A comment that is closed is not changed by what follows. -/
theorem throughClose_append
    {t : Text} (h : throughClose t 0 < t.length) (more : Text) :
    throughClose (t ++ more) 0 = throughClose t 0 := by
  induction t with
  | nil =>
      cases h
  | cons c t ih =>
      rw [throughClose_cons] at h
      rw [List.cons_append, throughClose_cons, throughClose_cons]
      cases t with
      | nil =>
          simp [throughClose] at h
      | cons d t =>
          by_cases hclose : c = '*' ∧ d = '/'
          · simp [hclose]
          · have hgo : ¬ (c = '*' ∧ (d :: t).head? = some '/') := by simpa using hclose
            have hgo' : ¬ (c = '*' ∧ (d :: t ++ more).head? = some '/') := by simpa using hclose
            rw [if_neg hgo] at h
            rw [if_neg hgo, if_neg hgo', ih (by simpa using h)]

/-- A literal that stops within a text is not changed by what follows. -/
theorem literalLength_append
    {escaped : Bool} {t : Text} (h : literalLength escaped t 0 < t.length) (more : Text) :
    literalLength escaped (t ++ more) 0 = literalLength escaped t 0 := by
  induction t generalizing escaped with
  | nil =>
      cases h
  | cons c t ih =>
      rw [List.cons_append]
      cases escaped with
      | true =>
          rw [literalLength_cons_true] at h
          rw [literalLength_cons_true, literalLength_cons_true, ih (by simpa using h)]
      | false =>
          rw [literalLength_cons_false] at h
          rw [literalLength_cons_false, literalLength_cons_false]
          split
          · rfl
          · next hquote =>
              split
              · rfl
              · next hgo =>
                  rw [if_neg hquote, if_neg hgo] at h
                  rw [ih (by simpa using h)]

/-! ## Lexemes -/

/-- A lexeme that stops before the end of the text, with a line feed still to come, does not
depend on what stands behind the text. -/
theorem lexeme_append
    {c : Char} {rest : Text} (hmem : '\n' ∈ rest) (h : (lexeme c rest).2 < rest.length)
    (more : Text) :
    lexeme c (rest ++ more) = lexeme c rest := by
  obtain ⟨d, tail, rfl⟩ := List.exists_cons_of_ne_nil (List.ne_nil_of_mem hmem)
  have hhead : (d :: tail ++ more).head? = (d :: tail).head? := rfl
  have htail : (d :: tail ++ more).tail = tail ++ more := rfl
  unfold lexeme at h ⊢
  simp only [hhead, htail, List.tail_cons] at h ⊢
  split
  · rfl
  split
  · rfl
  split
  · next hfeed hpair hspace =>
      rw [if_neg hfeed, if_neg hpair, if_pos hspace] at h
      rw [runLength_append h]
  split
  · next hline =>
      rw [lineLength_append hmem]
  split
  · next hfeed hpair hspace hline hblock =>
      rw [if_neg hfeed, if_neg hpair, if_neg hspace, if_neg hline, if_pos hblock,
        throughClose_eq, List.length_cons] at h
      rw [throughClose_eq, throughClose_append (by omega), ← throughClose_eq]
  split
  · next hfeed hpair hspace hline hblock hquote =>
      rw [if_neg hfeed, if_neg hpair, if_neg hspace, if_neg hline, if_neg hblock,
        if_pos hquote] at h
      rw [literalLength_append h]
  split
  · rfl
  · next hfeed hpair hspace hline hblock hquote _ hmark =>
      split
      · next hword =>
          rw [if_neg hfeed, if_neg hpair, if_neg hspace, if_neg hline, if_neg hblock,
            if_neg hquote, hmark] at h
          simp only [hword, if_true] at h
          rw [runLength_append h]
      · rfl

/-- A line end is found whatever follows it. -/
theorem lexeme_append_of_newLine
    {c : Char} {rest : Text} (h : (lexeme c rest).1 = .newLine) (more : Text) :
    lexeme c (rest ++ more) = lexeme c rest := by
  have hlexes := lexes_lexeme c rest
  obtain ⟨n, hn⟩ : ∃ n, (lexeme c rest).2 = n := ⟨_, rfl⟩
  rw [h, hn] at hlexes
  cases hlexes with
  | lineFeed hc =>
      subst hc
      rfl
  | carriageReturn hc hnext =>
      obtain ⟨rest, rfl⟩ := List.head?_eq_some_iff.mp hnext
      subst hc
      rfl
  | mark hmark =>
      simp [punctuation] at hmark

/-! ## Tokens -/

/-- Whether no line is open at the end: there is no token, or the last one is a line end. -/
def EndsLine (ts : List Token) : Prop :=
  ∀ t, ts.getLast? = some t → t.kind = .newLine

theorem EndsLine.of_append
    (ts : List Token) {us : List Token} (h : EndsLine (ts ++ us)) :
    EndsLine us := by
  intro t ht
  refine h t ?_
  rw [List.getLast?_append, ht, Option.some_or]

/-- A text with tokens that end a line ends with a line feed. -/
theorem exists_append_newline
    {l : Location} {text : Text} (h : EndsLine (tokensFrom l text)) (hne : text ≠ []) :
    ∃ before, text = before ++ ['\n'] := by
  have htext := textOf_tokensFrom l text
  rcases List.eq_nil_or_concat (tokensFrom l text) with hnil | ⟨ts, t, hlast⟩
  · rw [hnil] at htext
    exact absurd htext.symm hne
  · rw [List.concat_eq_append] at hlast
    have hkind : t.kind = .newLine := h t (by rw [hlast, List.getLast?_concat])
    have hmem : t ∈ tokensFrom l text := by
      rw [hlast]
      simp
    rw [hlast, textOf_append, textOf_cons, textOf_nil, List.append_nil] at htext
    rcases content_of_newLine hmem hkind with hcontent | hcontent
    · exact ⟨textOf ts, by rw [← htext, hcontent]⟩
    · exact ⟨textOf ts ++ ['\r'], by rw [← htext, hcontent, List.append_assoc]; rfl⟩

/-- The first token of a text that ends a line is the same with more text behind it. -/
theorem lexeme_append_of_endsLine
    {l : Location} {c : Char} {rest : Text} (h : EndsLine (tokensFrom l (c :: rest)))
    (more : Text) :
    lexeme c (rest ++ more) = lexeme c rest := by
  rw [tokensFrom_cons] at h
  by_cases hnil : rest.drop (lexeme c rest).2 = []
  · refine lexeme_append_of_newLine ?_ more
    rw [hnil, tokensFrom_nil] at h
    exact h (first l c rest) rfl
  · obtain ⟨before, hbefore⟩ :=
      exists_append_newline (EndsLine.of_append [first l c rest] h) hnil
    have hmem : '\n' ∈ rest := List.mem_of_mem_drop (by rw [hbefore]; simp)
    have hlt : (lexeme c rest).2 < rest.length := by simpa using hnil
    exact lexeme_append hmem hlt more

/-- Behind a text that ends a line, another one is cut into tokens on its own. -/
theorem tokensFrom_append
    {l : Location} {text : Text} (h : EndsLine (tokensFrom l text)) (more : Text) :
    tokensFrom l (text ++ more) =
      tokensFrom l text ++ tokensFrom (l.advance text) more := by
  induction l, text using tokensFrom_induction with
  | nil l =>
      simp
  | cons l c rest ih =>
      have hlexeme := lexeme_append_of_endsLine h more
      have hle := lexeme_snd_le c rest
      have hfirst : first l c (rest ++ more) = first l c rest := by
        rw [first, hlexeme, List.take_append_of_le_length hle, first]
      have hplace : (first l c rest).endLocation.advance (rest.drop (lexeme c rest).2) =
          l.advance (c :: rest) := by
        rw [endLocation, first, ← Location.advance_append, List.cons_append,
          List.take_append_drop]
      rw [tokensFrom_cons] at h
      rw [List.cons_append, tokensFrom_cons, hfirst, hlexeme, List.drop_append_of_le_length hle,
        ih (EndsLine.of_append [first l c rest] h), hplace, tokensFrom_cons,
        List.cons_append]

end Token
end PageTemplate
