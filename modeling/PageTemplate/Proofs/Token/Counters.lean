import PageTemplate.Token.Lexeme

/-!
# Counters of a lexeme

The counters of a lexeme go over a text character by character.  Here is what each of them
does with one more character in front, and which counter a lexeme uses.

**Results.**
* `take_runLength`, `drop_runLength`, `lineLength_eq`: what the counters of runs and lines count.
* `runLength_cons`, `lineLength_cons`, `throughClose_cons`, `literalLength_cons_true`,
  `literalLength_cons_false`: the counters step by step.
* `lexeme_of_space`, `lexeme_of_lineComment`, `lexeme_of_blockComment`, `lexeme_of_quote`,
  `lexeme_of_plain`: the lexemes by their first characters.
-/

namespace PageTemplate
namespace Token

theorem take_runLength (p : Char → Bool) (t : Text) :
    t.take (runLength p t) = t.takeWhile p :=
  (List.prefix_iff_eq_take.mp (List.takeWhile_prefix p)).symm

theorem drop_runLength (p : Char → Bool) (t : Text) :
    t.drop (runLength p t) = t.dropWhile p := by
  have h : (t.takeWhile p ++ t.dropWhile p).drop (t.takeWhile p).length = t.dropWhile p :=
    List.drop_left
  rwa [List.takeWhile_append_dropWhile] at h

theorem runLength_cons
    {p : Char → Bool} {c : Char} (h : p c = true) (t : Text) :
    runLength p (c :: t) = runLength p t + 1 := by
  rw [runLength, List.takeWhile_cons_of_pos h, List.length_cons, runLength]

theorem lineLength_cons
    {c : Char} (hfeed : c ≠ '\n') (hreturn : c ≠ '\r') (t : Text) :
    lineLength (c :: t) = lineLength t + 1 := by
  have hline : (c :: t).takeWhile (· ≠ '\n') = c :: t.takeWhile (· ≠ '\n') :=
    List.takeWhile_cons_of_pos (by simpa using hfeed)
  rw [lineLength, hline, lineLength]
  rcases List.eq_nil_or_concat (t.takeWhile (· ≠ '\n')) with hnil | ⟨line, d, hlast⟩
  · rw [hnil]
    simp [hreturn]
  · rw [hlast, List.concat_eq_append, ← List.cons_append]
    simp only [List.getLast?_concat, List.length_append, List.length_cons, List.length_nil]
    split
    · rfl
    · rfl

/-- A carriage return at the end of a line is not counted. -/
theorem lineLength_eq
    {t line : Text} (h : t.takeWhile (· ≠ '\n') = line) :
    (line.getLast? ≠ some '\r' ∧ lineLength t = line.length) ∨
      ∃ body, line = body ++ ['\r'] ∧ lineLength t = body.length := by
  rw [lineLength, h]
  split
  · next hreturn =>
      obtain ⟨body, rfl⟩ := List.getLast?_eq_some_iff.mp hreturn
      exact Or.inr ⟨body, rfl, by simp⟩
  · next hplain =>
      exact Or.inl ⟨hplain, rfl⟩

/-- A block comment goes on by one character unless it is closed there. -/
theorem throughClose_cons
    (c : Char) (t : Text) :
    throughClose (c :: t) 0 =
      if c = '*' ∧ t.head? = some '/' then 2 else throughClose t 0 + 1 := by
  cases t with
  | nil =>
      simp [throughClose]
  | cons d t =>
      have hrest := throughClose_eq (d :: t) (0 + 1)
      simp only [throughClose, List.head?_cons, Option.some.injEq, hrest]
      rw [Nat.zero_add, Nat.zero_add, Nat.add_comm 1]

/-- A character behind a backslash is part of the literal, whatever it is. -/
theorem literalLength_cons_true
    (c : Char) (t : Text) :
    literalLength true (c :: t) 0 = literalLength false t 0 + 1 := by
  rw [literalLength, literalLength_eq, Nat.zero_add, Nat.add_comm]

/-- Other characters are part of the literal except for a quote, which ends it, and a line end,
which is left out. -/
theorem literalLength_cons_false
    (c : Char) (t : Text) :
    literalLength false (c :: t) 0 =
      if c = '"' then 1
      else if c = '\n' ∨ c = '\r' then 0
      else literalLength (c = '\\') t 0 + 1 := by
  rw [literalLength, literalLength_eq, Nat.zero_add, Nat.add_comm 1]

theorem lexeme_of_space
    {c : Char} (h : isSpaceOrTab c = true) (rest : Text) :
    lexeme c rest = (.whiteSpace, runLength isSpaceOrTab rest) := by
  have hc : c = ' ' ∨ c = '\t' := by simpa [isSpaceOrTab] using h
  rcases hc with rfl | rfl
  · rfl
  · rfl

theorem lexeme_of_lineComment (rest : Text) :
    lexeme '/' ('/' :: rest) = (.comment, lineLength ('/' :: rest)) := rfl

theorem lexeme_of_blockComment (rest : Text) :
    lexeme '/' ('*' :: rest) = (.comment, throughClose rest 0 + 1) := by
  have hclose := throughClose_eq rest 1
  rw [Nat.add_comm] at hclose
  rw [← hclose]
  rfl

theorem lexeme_of_quote (rest : Text) :
    lexeme '"' rest = (.stringLiteral, literalLength false rest 0) := rfl

/-- What starts no line end, spacing, comment or literal is read without regard to what
follows, except for the length of identifiers. -/
theorem lexeme_of_plain
    {c : Char} {rest : Text} (hfeed : c ≠ '\n') (hreturn : c ≠ '\r')
    (hspace : isSpaceOrTab c = false) (hquote : c ≠ '"')
    (hline : ¬ (c = '/' ∧ rest.head? = some '/')) (hblock : ¬ (c = '/' ∧ rest.head? = some '*')) :
    lexeme c rest =
      match punctuation.lookup c with
      | some kind => (kind, 0)
      | none =>
          if isIdentifierStart c then (.identifier, runLength isIdentifierPart rest)
          else (.other, 0) := by
  have hpair : ¬ (c = '\r' ∧ rest.head? = some '\n') := fun h => hreturn h.1
  have hspace : ¬ isSpaceOrTab c = true := by simp [hspace]
  unfold lexeme
  refine (if_neg hfeed).trans ((if_neg hpair).trans ((if_neg hspace).trans ?_))
  exact (if_neg hline).trans ((if_neg hblock).trans (if_neg hquote))

end Token
end PageTemplate
