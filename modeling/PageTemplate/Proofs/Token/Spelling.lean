import PageTemplate.Token.Stream
import PageTemplate.Proofs.Token.Counters
import PageTemplate.Proofs.Text.Trimming

/-!
# How tokens are spelled

What the kind of a token says about its text.

**Results.**
* `lexes_lexeme`: the ways in which a lexeme comes about.
* `spelled_of_mem`: the tokens of a text are spelled as their kinds say.
* `content_of_newLine`: a line end is a line feed, perhaps behind a carriage return.
* `kind_of_newline_mem`: what goes over the end of a line is a comment or a string literal.
* `kind_of_allBlank`: what is blank is white space, a line end, or a character of its own.
-/

namespace PageTemplate
namespace Token

/-- The kinds of lexeme that start with `c`, with the number of characters of `rest` that
belong to them. -/
inductive Lexes (c : Char) (rest : Text) : TokenKind → Nat → Prop
  | lineFeed :
      c = '\n' → Lexes c rest .newLine 0
  | carriageReturn :
      c = '\r' → rest.head? = some '\n' → Lexes c rest .newLine 1
  | space :
      isSpaceOrTab c = true → Lexes c rest .whiteSpace (runLength isSpaceOrTab rest)
  | lineComment :
      c = '/' → rest.head? = some '/' → Lexes c rest .comment (lineLength rest)
  | blockComment :
      c = '/' → rest.head? = some '*' → Lexes c rest .comment (throughClose rest.tail 1)
  | literal :
      c = '"' → Lexes c rest .stringLiteral (literalLength false rest 0)
  | mark {kind : TokenKind} :
      (c, kind) ∈ punctuation → Lexes c rest kind 0
  | word :
      isIdentifierStart c = true → Lexes c rest .identifier (runLength isIdentifierPart rest)
  | other :
      Lexes c rest .other 0

theorem lexes_lexeme
    (c : Char) (rest : Text) :
    Lexes c rest (lexeme c rest).1 (lexeme c rest).2 := by
  unfold lexeme
  split
  · next h => exact .lineFeed h
  split
  · next h => exact .carriageReturn h.1 h.2
  split
  · next h => exact .space h
  split
  · next h => exact .lineComment h.1 h.2
  split
  · next h => exact .blockComment h.1 h.2
  split
  · next h => exact .literal h
  split
  · next kind h =>
      obtain ⟨before, after, heq, -⟩ := List.lookup_eq_some_iff.mp h
      exact .mark (by rw [heq]; simp)
  split
  · next h => exact .word h
  · exact .other

/-- The text of a token as far as the kinds of `@` and of white space say it. -/
structure Spelled (t : Token) : Prop where
  content_ne_nil : t.content ≠ []
  transition : t.kind = .transition → t.content = ['@']
  whiteSpace : t.kind = .whiteSpace → ∀ c ∈ t.content, isSpaceOrTab c = true

/-- Every token of a text is a lexeme that was cut off somewhere in the text. -/
theorem exists_lexeme_of_mem
    {l : Location} {text : Text} {t : Token}
    (h : t ∈ tokensFrom l text) :
    ∃ c rest n, lexeme c rest = (t.kind, n) ∧ t.content = c :: rest.take n := by
  induction l, text using tokensFrom_induction with
  | nil l =>
      simp at h
  | cons l c rest ih =>
      rw [tokensFrom_cons] at h
      rcases List.mem_cons.mp h with rfl | h
      · exact ⟨c, rest, (lexeme c rest).2, rfl, rfl⟩
      · exact ih h

/-- Of the ways in which a token's text comes about, the kind leaves those that lead to it. -/
theorem exists_lexes_of_mem
    {l : Location} {text : Text} {t : Token}
    (h : t ∈ tokensFrom l text) :
    ∃ c rest n, Lexes c rest t.kind n ∧ t.content = c :: rest.take n := by
  obtain ⟨c, rest, n, hlexeme, hcontent⟩ := exists_lexeme_of_mem h
  have hlexes := lexes_lexeme c rest
  rw [hlexeme] at hlexes
  exact ⟨c, rest, n, hlexes, hcontent⟩

theorem mem_take_runLength
    {p : Char → Bool} {t : Text} {c : Char}
    (h : c ∈ t.take (runLength p t)) :
    p c = true := by
  rw [take_runLength] at h
  exact List.all_eq_true.mp List.all_takeWhile c h

theorem spelled_first
    (l : Location) (c : Char) (rest : Text) :
    (first l c rest).Spelled := by
  obtain ⟨kind, hkind⟩ : ∃ kind, (lexeme c rest).1 = kind := ⟨_, rfl⟩
  obtain ⟨n, hn⟩ : ∃ n, (lexeme c rest).2 = n := ⟨_, rfl⟩
  have hlexes := lexes_lexeme c rest
  rw [hkind, hn] at hlexes
  have hfirst : first l c rest = ⟨kind, c :: rest.take n, l⟩ := by
    rw [first, hkind, hn]
  rw [hfirst]
  refine ⟨List.cons_ne_nil _ _, ?_, ?_⟩
  · rintro rfl
    cases hlexes with
    | mark h =>
        have hc : c = '@' := by simpa [punctuation] using h
        rw [hc, List.take_zero]
  · rintro rfl d hd
    cases hlexes with
    | space h =>
        rcases List.mem_cons.mp hd with rfl | hd
        · exact h
        · exact mem_take_runLength hd
    | mark h =>
        simp [punctuation] at h

/-- The tokens of a text are spelled as their kinds say. -/
theorem spelled_of_mem
    {l : Location} {text : Text} {t : Token}
    (h : t ∈ tokensFrom l text) :
    t.Spelled := by
  induction l, text using tokensFrom_induction with
  | nil l =>
      simp at h
  | cons l c rest ih =>
      rw [tokensFrom_cons] at h
      rcases List.mem_cons.mp h with rfl | h
      · exact spelled_first l c rest
      · exact ih h

/-! ## Line ends and blanks -/

/-- A line end is a line feed, or a carriage return with one. -/
theorem content_of_newLine
    {l : Location} {text : Text} {t : Token}
    (h : t ∈ tokensFrom l text) (hkind : t.kind = .newLine) :
    t.content = ['\n'] ∨ t.content = ['\r', '\n'] := by
  obtain ⟨c, rest, n, hlexes, hcontent⟩ := exists_lexes_of_mem h
  rw [hkind] at hlexes
  rw [hcontent]
  cases hlexes with
  | lineFeed hc =>
      left
      rw [hc, List.take_zero]
  | carriageReturn hc hnext =>
      right
      obtain ⟨rest', rfl⟩ := List.head?_eq_some_iff.mp hnext
      rw [hc, List.take_succ_cons, List.take_zero]
  | mark hmark =>
      simp [punctuation] at hmark

theorem allBlank_of_newLine
    {l : Location} {text : Text} {t : Token}
    (h : t ∈ tokensFrom l text) (hkind : t.kind = .newLine) :
    Text.AllBlank t.content := by
  rcases content_of_newLine h hkind with hcontent | hcontent
  · rw [hcontent]
    decide
  · rw [hcontent]
    decide

theorem allBlank_of_whiteSpace
    {t : Token} (h : t.Spelled) (hkind : t.kind = .whiteSpace) :
    Text.AllBlank t.content := by
  intro c hc
  have hspace : c = ' ' ∨ c = '\t' := by
    simpa [isSpaceOrTab] using h.whiteSpace hkind c hc
  rcases hspace with rfl | rfl
  · decide
  · decide

theorem isBlank_eq_false_of_isIdentifierPart
    {c : Char} (h : isIdentifierPart c = true) :
    Text.isBlank c = false := by
  simp only [isIdentifierPart, Text.isLetterOrNumeral, Bool.or_eq_true, decide_eq_true_eq] at h
  rcases h with rfl | hletter | hnumeral
  · decide
  · exact Text.isBlank_eq_false_of_isLetter c hletter
  · exact Text.isBlank_eq_false_of_isNumeral c hnumeral

theorem isIdentifierPart_of_isIdentifierStart
    {c : Char} (h : isIdentifierStart c = true) :
    isIdentifierPart c = true := by
  simp only [isIdentifierStart, Bool.or_eq_true, decide_eq_true_eq] at h
  rcases h with rfl | hletter
  · rfl
  · simp [isIdentifierPart, Text.isLetterOrNumeral, hletter]

theorem isBlank_eq_false_of_punctuation
    {c : Char} {kind : TokenKind} (h : (c, kind) ∈ punctuation) :
    Text.isBlank c = false := by
  have key : ∀ e ∈ punctuation, Text.isBlank e.1 = false := by decide
  exact key (c, kind) h

/-- Comments and string literals start with a mark that is not blank. -/
theorem exists_cons_of_comment_or_literal
    {l : Location} {text : Text} {t : Token}
    (h : t ∈ tokensFrom l text) (hkind : t.kind = .comment ∨ t.kind = .stringLiteral) :
    ∃ c rest, t.content = c :: rest ∧ Text.isBlank c = false := by
  obtain ⟨c, rest, n, hlexes, hcontent⟩ := exists_lexes_of_mem h
  refine ⟨c, rest.take n, hcontent, ?_⟩
  rcases hkind with hkind | hkind
  · rw [hkind] at hlexes
    cases hlexes with
    | lineComment hc hnext =>
        subst hc
        decide
    | blockComment hc hnext =>
        subst hc
        decide
    | mark hmark =>
        exact isBlank_eq_false_of_punctuation hmark
  · rw [hkind] at hlexes
    cases hlexes with
    | literal hc =>
        subst hc
        decide
    | mark hmark =>
        exact isBlank_eq_false_of_punctuation hmark

/-- The only tokens that go over the end of a line are comments and string literals. -/
theorem kind_of_newline_mem
    {l : Location} {text : Text} {t : Token}
    (h : t ∈ tokensFrom l text) (hmem : '\n' ∈ t.content) :
    t.kind = .newLine ∨ t.kind = .comment ∨ t.kind = .stringLiteral := by
  have hblank : Text.isBlank '\n' = true := by decide
  obtain ⟨c, rest, n, hlexeme, hcontent⟩ := exists_lexeme_of_mem h
  obtain ⟨kind, hkind⟩ : ∃ kind, t.kind = kind := ⟨_, rfl⟩
  have hlexes := lexes_lexeme c rest
  rw [hcontent] at hmem
  rw [hlexeme] at hlexes
  rw [hkind] at hlexes hlexeme ⊢
  cases hlexes with
  | lineFeed hc => exact Or.inl rfl
  | carriageReturn hc hnext => exact Or.inl rfl
  | lineComment hc hnext => exact Or.inr (Or.inl rfl)
  | blockComment hc hnext => exact Or.inr (Or.inl rfl)
  | literal hc => exact Or.inr (Or.inr rfl)
  | space hc =>
      rcases List.mem_cons.mp hmem with rfl | hmem
      · cases hc
      · cases mem_take_runLength hmem
  | mark hmark =>
      rw [List.take_zero, List.mem_singleton] at hmem
      rw [← hmem] at hmark
      rw [isBlank_eq_false_of_punctuation hmark] at hblank
      cases hblank
  | word hc =>
      have hpart : isIdentifierPart '\n' = true := by
        rcases List.mem_cons.mp hmem with rfl | hmem
        · exact isIdentifierPart_of_isIdentifierStart hc
        · exact mem_take_runLength hmem
      rw [isBlank_eq_false_of_isIdentifierPart hpart] at hblank
      cases hblank
  | other =>
      rw [List.take_zero, List.mem_singleton] at hmem
      simp [← hmem, lexeme] at hlexeme

/-- A token that has nothing but blanks is white space, a line end, or a blank that is
neither. -/
theorem kind_of_allBlank
    {l : Location} {text : Text} {t : Token}
    (h : t ∈ tokensFrom l text) (hblank : Text.AllBlank t.content) :
    t.kind = .whiteSpace ∨ t.kind = .newLine ∨ t.kind = .other := by
  obtain ⟨c, rest, n, hlexes, hcontent⟩ := exists_lexes_of_mem h
  obtain ⟨kind, hkind⟩ : ∃ kind, t.kind = kind := ⟨_, rfl⟩
  rw [hcontent, Text.allBlank_cons] at hblank
  obtain ⟨hhead, -⟩ := hblank
  rw [hkind] at hlexes ⊢
  cases hlexes with
  | lineFeed hc => exact Or.inr (Or.inl rfl)
  | carriageReturn hc hnext => exact Or.inr (Or.inl rfl)
  | space hc => exact Or.inl rfl
  | other => exact Or.inr (Or.inr rfl)
  | lineComment hc hnext =>
      subst hc
      cases hhead
  | blockComment hc hnext =>
      subst hc
      cases hhead
  | literal hc =>
      subst hc
      cases hhead
  | mark hmark =>
      rw [isBlank_eq_false_of_punctuation hmark] at hhead
      cases hhead
  | word hc =>
      have hpart := isIdentifierPart_of_isIdentifierStart hc
      rw [isBlank_eq_false_of_isIdentifierPart hpart] at hhead
      cases hhead

end Token
end PageTemplate
