import PageTemplate.Proofs.Token.Bytes
import PageTemplate.Proofs.Token.Located

/-!
# The longest match

What fits its kind in front of a text is the lexeme at the start of the two.  So the tokens of
a text are the only way to cut it into pieces that fit, and none of them could have been
shorter or longer.

**Input.**  A text.

**Results.**
* `lexeme_of_fits`: what fits in front of a text is cut off it.
* `startsNothing_iff`: nothing else fits where a character has no kind of its own.
* `tokensFrom_append_of_fits`: what fits is a token.
* `tokensFrom_textOf`: tokens that fit their kinds are the tokens of their text.
* `Fits.isSpaceOrTab_of_getLast?`: white space is not divided between two tokens.
* `tokenize_longest`: what holds of the tokens of every text.
-/

namespace PageTemplate
namespace Token

open Text (protects)

/-! ## What fits is a lexeme -/

theorem runLength_append_of_stop
    {p : Char → Bool} {t rest : Text} (h : ∀ c ∈ t, p c = true)
    (hstop : ∀ c, rest.head? = some c → p c = false) :
    runLength p (t ++ rest) = t.length := by
  have hnone : rest.takeWhile p = [] := by
    cases rest with
    | nil => rfl
    | cons c rest => exact List.takeWhile_cons_of_neg (by simp [hstop c rfl])
  rw [runLength, List.takeWhile_append_of_pos h, hnone, List.append_nil]

theorem lineLength_of_stopsLine
    {t rest : Text} (hline : '\n' ∉ t) (h : StopsLine t rest) :
    lineLength (t ++ rest) = t.length := by
  have hall (u : Text) (hu : '\n' ∉ u) : ∀ c ∈ u, (decide (c ≠ '\n')) = true := by
    intro c hc
    have hne : c ≠ '\n' := fun heq => hu (heq ▸ hc)
    simpa using hne
  have hnone {u : Text} (hu : u = [] ∨ u.head? = some '\n') : u.takeWhile (· ≠ '\n') = [] := by
    rcases hu with rfl | hu
    · rfl
    · obtain ⟨u, rfl⟩ := List.head?_eq_some_iff.mp hu
      rfl
  cases h with
  | plain hlast hrest =>
      have htake : (t ++ rest).takeWhile (· ≠ '\n') = t := by
        rw [List.takeWhile_append_of_pos (hall t hline), hnone hrest, List.append_nil]
      rw [lineLength, htake, if_neg hlast]
  | carriageReturn hrest =>
      rename_i rest
      have htake : (t ++ '\r' :: rest).takeWhile (· ≠ '\n') = t ++ ['\r'] := by
        rw [List.append_cons, List.takeWhile_append_of_pos (hall _ (by simp [hline])),
          hnone hrest, List.append_nil]
      rw [lineLength, htake, if_pos (by simp)]
      simp

/-- A block comment is counted through its first end. -/
theorem throughClose_of_close
    {t : Text} (h : ¬ commentEnd <:+: t ++ ['*']) (rest : Text) :
    throughClose (t ++ commentEnd ++ rest) 0 = t.length + 2 := by
  induction t with
  | nil =>
      simp [commentEnd, throughClose]
  | cons c t ih =>
      have hrest : ¬ commentEnd <:+: t ++ ['*'] := fun hin => h (List.infix_cons hin)
      have hgo : ¬ (c = '*' ∧ (t ++ commentEnd ++ rest).head? = some '/') := by
        rintro ⟨rfl, hslash⟩
        cases t with
        | nil =>
            cases hslash
        | cons d t =>
            cases hslash
            exact h ⟨[], t ++ ['*'], rfl⟩
      rw [List.cons_append, List.cons_append, throughClose_cons, if_neg hgo, ih hrest,
        List.length_cons]

/-- A block comment without an end is counted to the end of the text. -/
theorem throughClose_of_open
    {t : Text} (h : ¬ commentEnd <:+: t) :
    throughClose t 0 = t.length := by
  induction t with
  | nil =>
      rfl
  | cons c t ih =>
      have hrest : ¬ commentEnd <:+: t := fun hin => h (List.infix_cons hin)
      have hgo : ¬ (c = '*' ∧ t.head? = some '/') := by
        rintro ⟨rfl, hslash⟩
        obtain ⟨t, rfl⟩ := List.head?_eq_some_iff.mp hslash
        exact h ⟨[], t, rfl⟩
      rw [throughClose_cons, if_neg hgo, ih hrest, List.length_cons]

/-- A literal that is kept open is counted on. -/
theorem literalLength_append_of_keepsOpen
    {before t : Text} (h : KeepsOpen (before ++ t)) (rest : Text) :
    literalLength (protects before) (t ++ rest) 0 =
      literalLength (protects (before ++ t)) rest 0 + t.length := by
  induction t generalizing before with
  | nil =>
      simp
  | cons c t ih =>
      rw [List.append_cons] at h
      have hnext := ih h
      rw [Text.protects_concat, ← List.append_cons] at hnext
      rw [List.cons_append, List.length_cons, ← Nat.add_assoc, ← hnext]
      cases hflag : protects before with
      | true =>
          rw [literalLength_cons_true, Bool.not_true, Bool.and_false]
      | false =>
          have hplain : ¬ (c = '"' ∨ c = '\n' ∨ c = '\r') := by
            intro hc
            have hkept := h before c t (by rw [List.append_assoc, List.singleton_append]) hc
            rw [hflag] at hkept
            cases hkept
          obtain ⟨hquote, hend⟩ := not_or.mp hplain
          rw [literalLength_cons_false, if_neg hquote, if_neg hend, Bool.not_false,
            Bool.and_true]

theorem exists_cons_of_fits
    {kind : TokenKind} {t rest : Text} (h : Fits kind t rest) :
    ∃ c piece, t = c :: piece := by
  cases h
  all_goals exact ⟨_, _, rfl⟩

theorem ne_of_eq_true
    {p : Char → Bool} {c d : Char} (hc : p c = true) (hd : p d = false) :
    c ≠ d := by
  rintro rfl
  rw [hc] at hd
  cases hd

/-- A character that starts an identifier takes all that goes on with it. -/
theorem lexeme_of_word
    {c : Char} (h : isIdentifierStart c = true) (rest : Text) :
    lexeme c rest = (.identifier, runLength isIdentifierPart rest) := by
  have hne {d : Char} (hd : isIdentifierStart d = false) : c ≠ d := ne_of_eq_true h hd
  have hspace : isSpaceOrTab c = false := by
    simp [isSpaceOrTab, hne (d := ' ') rfl, hne (d := '\t') rfl]
  have hmark : punctuation.lookup c = none := by
    have key : ∀ e ∈ punctuation, isIdentifierStart e.1 = false := by decide
    refine List.lookup_eq_none_iff.mpr ?_
    intro e he
    simpa using hne (key e he)
  have hslash : c ≠ '/' := hne rfl
  rw [lexeme_of_plain (hne rfl) (hne rfl) hspace (hne rfl) (fun hc => hslash hc.1)
    (fun hc => hslash hc.1), hmark]
  exact if_pos h

theorem lexeme_of_mark
    {c : Char} {kind : TokenKind} (h : (c, kind) ∈ punctuation) (rest : Text) :
    lexeme c rest = (kind, 0) := by
  simp only [punctuation, List.mem_cons, Prod.mk.injEq, List.not_mem_nil, or_false] at h
  rcases h with ⟨rfl, rfl⟩ | ⟨rfl, rfl⟩ | ⟨rfl, rfl⟩ | ⟨rfl, rfl⟩ | ⟨rfl, rfl⟩ | ⟨rfl, rfl⟩ |
    ⟨rfl, rfl⟩ | ⟨rfl, rfl⟩
  all_goals rfl

/-- What starts nothing is a token of one character. -/
theorem lexeme_of_startsNothing
    {c : Char} {rest : Text} (h : StartsNothing c rest) :
    lexeme c rest = (.other, 0) := by
  have hmark : punctuation.lookup c = none := by
    refine List.lookup_eq_none_iff.mpr ?_
    rintro ⟨d, kind⟩ hmem
    have hne : c ≠ d := fun heq => h.mark kind (heq ▸ hmem)
    simpa using hne
  unfold lexeme
  rw [if_neg h.lineFeed, if_neg (fun hc => h.carriageReturn hc.1 hc.2), if_neg (by simp [h.space]),
    if_neg (fun hc => (h.comment hc.1).1 hc.2), if_neg (fun hc => (h.comment hc.1).2 hc.2),
    if_neg h.literal, hmark]
  exact if_neg (by simp [h.word])

/-- What fits in front of a text is cut off it. -/
theorem lexeme_of_fits
    {kind : TokenKind} {c : Char} {t rest : Text} (h : Fits kind (c :: t) rest) :
    lexeme c (t ++ rest) = (kind, t.length) := by
  cases h with
  | word hc hpart hstop =>
      rw [lexeme_of_word hc, runLength_append_of_stop hpart hstop]
  | space hspace hstop =>
      rw [lexeme_of_space (hspace c List.mem_cons_self),
        runLength_append_of_stop (fun d hd => hspace d (List.mem_cons_of_mem c hd)) hstop]
  | lineFeed => rfl
  | carriageReturn => rfl
  | lineComment hline hstop =>
      rw [List.cons_append, lexeme_of_lineComment, lineLength_cons (by decide) (by decide),
        lineLength_of_stopsLine hline hstop]
      rfl
  | blockComment hclose =>
      rw [List.cons_append, lexeme_of_blockComment, throughClose_of_close hclose]
      simp [commentEnd]
  | openComment hopen =>
      rw [List.append_nil, lexeme_of_blockComment, throughClose_of_open hopen]
      rfl
  | literal hopen hquote =>
      rename_i t
      have hkept : KeepsOpen ([] ++ t) := hopen
      have hcount := literalLength_append_of_keepsOpen hkept ('"' :: rest)
      rw [List.nil_append, hquote, Text.protects_nil, literalLength_cons_false] at hcount
      rw [lexeme_of_quote, List.append_assoc, List.singleton_append, hcount, List.length_append,
        Nat.add_comm]
      rfl
  | openLiteral hopen hend =>
      have hkept : KeepsOpen ([] ++ t) := hopen
      have hcount := literalLength_append_of_keepsOpen hkept rest
      have hstop : literalLength (protects t) rest 0 = 0 := by
        rcases hend with rfl | ⟨hplain, hend | hend⟩
        · rw [literalLength]
        · obtain ⟨rest, rfl⟩ := List.head?_eq_some_iff.mp hend
          rw [hplain]
          rfl
        · obtain ⟨rest, rfl⟩ := List.head?_eq_some_iff.mp hend
          rw [hplain]
          rfl
      rw [List.nil_append, Text.protects_nil, hstop, Nat.zero_add] at hcount
      rw [lexeme_of_quote, hcount]
  | mark hmark => exact lexeme_of_mark hmark rest
  | other hnone => exact lexeme_of_startsNothing hnone

theorem Fits.of_other
    {t rest : Text} (h : Fits .other t rest) :
    ∃ c, t = [c] ∧ StartsNothing c rest := by
  cases h with
  | mark hmark => simp [punctuation] at hmark
  | other hnone => exact ⟨_, rfl, hnone⟩

/-- Nothing that has a kind of its own starts where nothing but a single character fits. -/
theorem startsNothing_iff
    (c : Char) (rest : Text) :
    StartsNothing c rest ↔
      ∀ kind t after, c :: rest = t ++ after → Fits kind t after → kind = .other := by
  constructor
  · intro h kind t after hcut hfit
    obtain ⟨d, piece, rfl⟩ := exists_cons_of_fits hfit
    obtain ⟨rfl, rfl⟩ : c = d ∧ rest = piece ++ after := List.cons.inj hcut
    have hlexeme := lexeme_of_fits hfit
    rw [lexeme_of_startsNothing h] at hlexeme
    exact (congrArg Prod.fst hlexeme).symm
  · intro h
    obtain ⟨kind, n, hlexeme⟩ : ∃ kind n, lexeme c rest = (kind, n) := ⟨_, _, rfl⟩
    have hfit := fits_of_lexeme hlexeme
    obtain rfl := h kind _ _ (by rw [List.cons_append, List.take_append_drop]) hfit
    obtain ⟨d, hone, hnone⟩ := hfit.of_other
    obtain ⟨rfl, hempty⟩ := List.cons.inj hone
    have hrest := List.take_append_drop n rest
    rw [hempty, List.nil_append] at hrest
    rwa [hrest] at hnone

/-! ## Tokens that fit -/

/-- What fits its kind in front of a text is the first token of the two. -/
theorem tokensFrom_append_of_fits
    {kind : TokenKind} {piece rest : Text} (h : Fits kind piece rest) (l : Location) :
    tokensFrom l (piece ++ rest) =
      ⟨kind, piece, l⟩ :: tokensFrom (l.advance piece) rest := by
  obtain ⟨c, piece, rfl⟩ := exists_cons_of_fits h
  have hlexeme := lexeme_of_fits h
  have hfirst : first l c (piece ++ rest) = ⟨kind, c :: piece, l⟩ := by
    rw [first, hlexeme, List.take_left]
  rw [List.cons_append, tokensFrom_cons, hfirst, hlexeme, List.drop_left]
  rfl

/-- Tokens that stand where they say and fit their kinds are those of their text. -/
theorem tokensFrom_textOf
    {l : Location} {ts : List Token} (hplaces : Located l ts)
    (hfits : ∀ before t after, ts = before ++ t :: after →
      Fits t.kind t.content (textOf after)) :
    tokensFrom l (textOf ts) = ts := by
  induction ts generalizing l with
  | nil =>
      exact tokensFrom_nil l
  | cons t ts ih =>
      obtain ⟨rfl, hplaces⟩ := hplaces
      have hrest := ih hplaces (fun before u after h => hfits (t :: before) u after (by rw [h]; rfl))
      rw [textOf_cons, tokensFrom_append_of_fits (hfits [] t ts rfl)]
      exact congrArg (t :: ·) hrest

/-! ## Neighbours -/

theorem Fits.of_identifier
    {t rest : Text} (h : Fits .identifier t rest) :
    (∃ c, t.head? = some c ∧ isIdentifierPart c = true) ∧
      ∀ c, rest.head? = some c → isIdentifierPart c = false := by
  cases h with
  | word hc hpart hstop => exact ⟨⟨_, rfl, isIdentifierPart_of_isIdentifierStart hc⟩, hstop⟩
  | mark hmark => simp [punctuation] at hmark

theorem Fits.of_whiteSpace
    {t rest : Text} (h : Fits .whiteSpace t rest) :
    (∃ c, t.head? = some c ∧ isSpaceOrTab c = true) ∧
      ∀ c, rest.head? = some c → isSpaceOrTab c = false := by
  cases h with
  | space hspace hstop => exact ⟨⟨_, rfl, hspace _ List.mem_cons_self⟩, hstop⟩
  | mark hmark => simp [punctuation] at hmark

theorem isSpaceOrTab_eq_false_of_isIdentifierPart
    {c : Char} (h : isIdentifierPart c = true) :
    isSpaceOrTab c = false := by
  have hne {d : Char} (hd : isIdentifierPart d = false) : c ≠ d := ne_of_eq_true h hd
  simp [isSpaceOrTab, hne (d := ' ') rfl, hne (d := '\t') rfl]

/-- A token in front of white space does not end with white space. -/
theorem Fits.isSpaceOrTab_of_getLast?
    {kind : TokenKind} {t rest : Text} {c d : Char} (h : Fits kind t rest)
    (hnext : rest.head? = some d) (hspace : isSpaceOrTab d = true) (hlast : t.getLast? = some c) :
    isSpaceOrTab c = false := by
  have hne {e : Char} (he : isSpaceOrTab e = false) : rest.head? ≠ some e := by
    rw [hnext]
    exact fun heq => ne_of_eq_true hspace he (Option.some.inj heq)
  have hrest : rest ≠ [] := by
    rintro rfl
    cases hnext
  cases h with
  | word hc hpart hstop =>
      refine isSpaceOrTab_eq_false_of_isIdentifierPart ?_
      rcases List.mem_cons.mp (List.mem_of_getLast? hlast) with rfl | hmem
      · exact isIdentifierPart_of_isIdentifierStart hc
      · exact hpart c hmem
  | space _ hstop =>
      rw [hstop d hnext] at hspace
      cases hspace
  | lineFeed =>
      cases hlast
      rfl
  | carriageReturn =>
      cases hlast
      rfl
  | lineComment _ hstop =>
      cases hstop with
      | plain _ hend => exact absurd hend (not_or.mpr ⟨hrest, hne rfl⟩)
      | carriageReturn => exact absurd rfl (hne (e := '\r') rfl)
  | blockComment hclose =>
      rename_i t
      have hsplit : '/' :: '*' :: (t ++ commentEnd) = ('/' :: '*' :: t ++ ['*']) ++ ['/'] := by
        simp [commentEnd]
      rw [hsplit, List.getLast?_concat] at hlast
      cases hlast
      rfl
  | openComment => exact absurd rfl hrest
  | literal =>
      rw [← List.cons_append, List.getLast?_concat] at hlast
      cases hlast
      rfl
  | openLiteral _ hend =>
      rcases hend with hend | ⟨-, hend | hend⟩
      · exact absurd hend hrest
      · exact absurd hend (hne rfl)
      · exact absurd hend (hne rfl)
  | mark hmark =>
      have key : ∀ e ∈ punctuation, isSpaceOrTab e.1 = false := by decide
      cases hlast
      exact key _ hmark
  | other hnone =>
      cases hlast
      exact hnone.space

theorem head?_textOf_cons
    {t : Token} {c : Char} (h : t.content.head? = some c) (ts : List Token) :
    (textOf (t :: ts)).head? = some c := by
  rw [textOf_cons, List.head?_append, h, Option.some_or]

theorem getLast?_textOf_concat
    {t : Token} (h : t.content ≠ []) (ts : List Token) :
    (textOf (ts ++ [t])).getLast? = t.content.getLast? := by
  rw [textOf_append, textOf_cons, textOf_nil, List.append_nil, List.getLast?_append,
    List.getLast?_eq_some_getLast h, Option.some_or]

section Neighbours

variable {l : Location} {text : Text} {before after : List Token}

/-- White space is all of the white space at its place. -/
theorem isSpaceOrTab_of_before
    {t : Token} (h : tokensFrom l text = before ++ t :: after) (hkind : t.kind = .whiteSpace)
    {c : Char} (hc : (textOf before).getLast? = some c) :
    isSpaceOrTab c = false := by
  have hfit := fits_of_tokensFrom h
  rw [hkind] at hfit
  obtain ⟨⟨d, hhead, hspace⟩, -⟩ := hfit.of_whiteSpace
  rcases List.eq_nil_or_concat before with rfl | ⟨before, u, rfl⟩
  · cases hc
  · rw [List.concat_eq_append] at h hc
    have hne : u.content ≠ [] := content_ne_nil_of_mem (l := l) (t := text) (by rw [h]; simp)
    rw [List.append_assoc, List.singleton_append] at h
    rw [getLast?_textOf_concat hne] at hc
    exact (fits_of_tokensFrom h).isSpaceOrTab_of_getLast? (head?_textOf_cons hhead after) hspace hc

/-- Two tokens of a kind are no neighbours where the characters that such a token starts with
are those it goes on over. -/
theorem not_neighbours
    {kind : TokenKind} {p : Char → Bool}
    (hkind : ∀ {piece rest : Text}, Fits kind piece rest →
      (∃ c, piece.head? = some c ∧ p c = true) ∧ ∀ c, rest.head? = some c → p c = false)
    {t u : Token} (h : tokensFrom l text = before ++ t :: u :: after) :
    ¬ (t.kind = kind ∧ u.kind = kind) := by
  rintro ⟨ht, hu⟩
  have hfit := fits_of_tokensFrom h
  rw [List.append_cons] at h
  have hnext := fits_of_tokensFrom h
  rw [ht] at hfit
  rw [hu] at hnext
  obtain ⟨⟨c, hhead, hstart⟩, -⟩ := hkind hnext
  rw [(hkind hfit).2 c (head?_textOf_cons hhead after)] at hstart
  cases hstart

end Neighbours

/-- The tokens of every text can be read by byte positions, keep all of the text, and say
where they stand; each fits its kind in front of what follows, and white space behind what
comes before it.  So neither two pieces of white space nor two identifiers are neighbours. -/
theorem tokenize_longest (source : Text) :
    tokensAt? Location.start source = some (tokenize source) ∧
      textOf (tokenize source) = source ∧
      (∀ before t after, tokenize source = before ++ t :: after →
        t.content ≠ [] ∧
          t.location = Location.start.advance (textOf before) ∧
          Fits t.kind t.content (textOf after) ∧
          (t.kind = .whiteSpace →
            ∀ c, (textOf before).getLast? = some c → isSpaceOrTab c = false)) ∧
      ∀ before t u after, tokenize source = before ++ t :: u :: after →
        ¬ (t.kind = .whiteSpace ∧ u.kind = .whiteSpace) ∧
          ¬ (t.kind = .identifier ∧ u.kind = .identifier) := by
  refine ⟨tokensAt?_eq _ _, textOf_tokensFrom _ _, ?_, ?_⟩
  · intro before t after h
    have hmem : t ∈ tokenize source := by
      rw [h]
      simp
    exact ⟨content_ne_nil_of_mem hmem, location_of_tokensFrom h, fits_of_tokensFrom h,
      fun hkind c => isSpaceOrTab_of_before h hkind⟩
  · intro before t u after h
    exact ⟨not_neighbours Fits.of_whiteSpace h, not_neighbours Fits.of_identifier h⟩

end Token
end PageTemplate
