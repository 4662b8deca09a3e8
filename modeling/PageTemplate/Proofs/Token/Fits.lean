import PageTemplate.Proofs.Token.Counters
import PageTemplate.Proofs.Token.Spelling

/-!
# What a token may be

The kinds of token are described without regard to how their characters are counted.  A piece
of text *fits* a kind in front of another text if it has one of the forms of the kind and the
other text does not go on with it.

**Input.**  The first character of a text and the characters after it.

**Algorithm.**  The lexeme at the start of the text is cut off.  Its counter goes on until a
character, or the end of the text, that no form of the kind goes over.

**Results.**
* `protects_concat`: a backslash protects the next character unless it is protected itself.
* `stopsLine_lineLength`, `closes_throughClose`, `literalStops_literalLength`: where the counters
  of comments and string literals stop.
* `fits_of_lexeme`: the lexeme at the start of a text fits its kind.
* `fits_of_tokensFrom`: every token fits its kind in front of the tokens that follow it.
-/

namespace PageTemplate

namespace Text

/-- Whether the last character is a backslash that protects the one after it: of several
backslashes each second one is protected itself. -/
def protects (t : Text) : Bool :=
  (t.reverse.takeWhile (· = '\\')).length % 2 = 1

@[simp] theorem protects_nil : protects [] = false := rfl

/-- A backslash protects the next character unless it is protected itself. -/
theorem protects_concat
    (t : Text) (c : Char) :
    protects (t ++ [c]) = (decide (c = '\\') && !protects t) := by
  have hparity (n : Nat) : decide ((n + 1) % 2 = 1) = !decide (n % 2 = 1) := by
    rcases Nat.mod_two_eq_zero_or_one n with h | h
    · simp [Nat.add_mod, h]
    · simp [Nat.add_mod, h]
  by_cases hc : c = '\\'
  · simp [protects, hc, hparity]
  · simp [protects, hc]

end Text

namespace Token

open Text (protects)

/-- The end of a block comment. -/
def commentEnd : Text :=
  ['*', '/']

/-- Whether every quote and every line end of the text is protected by a backslash. -/
def KeepsOpen (t : Text) : Prop :=
  ∀ before c after, t = before ++ c :: after → c = '"' ∨ c = '\n' ∨ c = '\r' →
    protects before = true

/-- Whether a line stops between the texts: at the end, or at a line feed, or at a carriage
return that stands before one of these. -/
inductive StopsLine : Text → Text → Prop
  | plain {t rest : Text} :
      t.getLast? ≠ some '\r' → rest = [] ∨ rest.head? = some '\n' → StopsLine t rest
  | carriageReturn {t rest : Text} :
      rest = [] ∨ rest.head? = some '\n' → StopsLine t ('\r' :: rest)

/-- Whether `c` in front of `rest` is the start of nothing that has a kind of its own. -/
structure StartsNothing (c : Char) (rest : Text) : Prop where
  lineFeed : c ≠ '\n'
  carriageReturn : c = '\r' → rest.head? ≠ some '\n'
  space : isSpaceOrTab c = false
  comment : c = '/' → rest.head? ≠ some '/' ∧ rest.head? ≠ some '*'
  literal : c ≠ '"'
  mark : ∀ kind, (c, kind) ∉ punctuation
  word : isIdentifierStart c = false

/-- The forms of each kind of token, each with the texts in front of which it stops. -/
inductive Fits : TokenKind → Text → Text → Prop
  | word {c : Char} {t rest : Text} :
      isIdentifierStart c = true → (∀ d ∈ t, isIdentifierPart d = true) →
        (∀ d, rest.head? = some d → isIdentifierPart d = false) →
        Fits .identifier (c :: t) rest
  | space {c : Char} {t rest : Text} :
      (∀ d ∈ c :: t, isSpaceOrTab d = true) →
        (∀ d, rest.head? = some d → isSpaceOrTab d = false) →
        Fits .whiteSpace (c :: t) rest
  | lineFeed {rest : Text} :
      Fits .newLine ['\n'] rest
  | carriageReturn {rest : Text} :
      Fits .newLine ['\r', '\n'] rest
  | lineComment {t rest : Text} :
      '\n' ∉ t → StopsLine t rest → Fits .comment ('/' :: '/' :: t) rest
  | blockComment {t rest : Text} :
      ¬ commentEnd <:+: t ++ ['*'] → Fits .comment ('/' :: '*' :: (t ++ commentEnd)) rest
  | openComment {t : Text} :
      ¬ commentEnd <:+: t → Fits .comment ('/' :: '*' :: t) []
  | literal {t rest : Text} :
      KeepsOpen t → protects t = false → Fits .stringLiteral ('"' :: (t ++ ['"'])) rest
  | openLiteral {t rest : Text} :
      KeepsOpen t →
        rest = [] ∨ protects t = false ∧ (rest.head? = some '\n' ∨ rest.head? = some '\r') →
        Fits .stringLiteral ('"' :: t) rest
  | mark {c : Char} {kind : TokenKind} {rest : Text} :
      (c, kind) ∈ punctuation → Fits kind [c] rest
  | other {c : Char} {rest : Text} :
      StartsNothing c rest → Fits .other [c] rest

/-! ## Counters -/

theorem eq_false_of_head?_drop_runLength
    {p : Char → Bool} {t : Text} {c : Char} (h : (t.drop (runLength p t)).head? = some c) :
    p c = false := by
  have hstop := List.head?_dropWhile_not p t
  rw [← drop_runLength, h] at hstop
  simpa using hstop

theorem eq_nil_or_head?_dropWhile_newline (t : Text) :
    t.dropWhile (· ≠ '\n') = [] ∨ (t.dropWhile (· ≠ '\n')).head? = some '\n' := by
  have hstop := List.head?_dropWhile_not (· ≠ '\n') t
  cases hrest : t.dropWhile (· ≠ '\n') with
  | nil =>
      exact Or.inl rfl
  | cons c rest =>
      rw [hrest] at hstop
      right
      simpa using hstop

/-- A line comment stops at the end of its line. -/
theorem stopsLine_lineLength (t : Text) :
    '\n' ∉ t.take (lineLength t) ∧ StopsLine (t.take (lineLength t)) (t.drop (lineLength t)) := by
  have hrest := eq_nil_or_head?_dropWhile_newline t
  have hline : '\n' ∉ t.takeWhile (· ≠ '\n') := by
    intro hmem
    simpa using List.all_eq_true.mp List.all_takeWhile _ hmem
  obtain ⟨line, hdef⟩ : ∃ line, t.takeWhile (· ≠ '\n') = line := ⟨_, rfl⟩
  obtain ⟨rest, hafter⟩ : ∃ rest, t.dropWhile (· ≠ '\n') = rest := ⟨_, rfl⟩
  have hcut : t = line ++ rest := by
    rw [← hdef, ← hafter, List.takeWhile_append_dropWhile]
  rw [hafter] at hrest
  rw [hdef] at hline
  rcases lineLength_eq hdef with ⟨hplain, hlength⟩ | ⟨body, rfl, hlength⟩
  · rw [hlength, hcut, List.take_left, List.drop_left]
    exact ⟨hline, .plain hplain hrest⟩
  · rw [List.append_assoc, List.singleton_append] at hcut
    rw [hlength, hcut, List.take_left, List.drop_left]
    exact ⟨fun hmem => hline (List.mem_append_left _ hmem), .carriageReturn hrest⟩

theorem not_commentEnd_infix_cons
    {c : Char} {t : Text} (hhead : ¬ (c = '*' ∧ t.head? = some '/')) (h : ¬ commentEnd <:+: t) :
    ¬ commentEnd <:+: c :: t := by
  intro hinfix
  rcases List.infix_cons_iff.mp hinfix with hprefix | hinfix
  · cases t with
    | nil =>
        simp [commentEnd] at hprefix
    | cons d t =>
        obtain ⟨hc, hd, -⟩ : '*' = c ∧ '/' = d ∧ [] <+: t := by
          simpa [commentEnd, List.cons_prefix_cons] using hprefix
        exact hhead ⟨hc.symm, by rw [← hd]; rfl⟩
  · exact h hinfix

/-- A block comment stops at the first end mark, or else goes on to the end of the text. -/
theorem closes_throughClose (t : Text) :
    (∃ inner, t.take (throughClose t 0) = inner ++ commentEnd ∧
        ¬ commentEnd <:+: inner ++ ['*']) ∨
      t.drop (throughClose t 0) = [] ∧ ¬ commentEnd <:+: t.take (throughClose t 0) := by
  induction t with
  | nil =>
      right
      simp [throughClose, commentEnd]
  | cons c t ih =>
      rw [throughClose_cons]
      split
      · next hclose =>
          obtain ⟨rfl, hslash⟩ := hclose
          obtain ⟨t, rfl⟩ := List.head?_eq_some_iff.mp hslash
          left
          exact ⟨[], rfl, by decide⟩
      · next hgo =>
          have htake (d : Char) (hd : (t.take (throughClose t 0)).head? = some d) :
              t.head? = some d := by
            rw [List.head?_take] at hd
            split at hd
            · cases hd
            · exact hd
          rw [List.take_succ_cons, List.drop_succ_cons]
          rcases ih with ⟨inner, hinner, hnone⟩ | ⟨hall, hnone⟩
          · left
            refine ⟨c :: inner, by rw [hinner, List.cons_append], ?_⟩
            refine not_commentEnd_infix_cons ?_ hnone
            rintro ⟨hc, hslash⟩
            refine hgo ⟨hc, htake '/' ?_⟩
            rw [hinner]
            cases inner with
            | nil => cases hslash
            | cons d inner => exact hslash
          · right
            refine ⟨hall, not_commentEnd_infix_cons ?_ hnone⟩
            rintro ⟨hc, hslash⟩
            exact hgo ⟨hc, htake '/' hslash⟩

theorem keepsOpen_nil :
    KeepsOpen [] := by
  intro before c after heq
  simp at heq

/-- A literal stays open over a character that does not end it or is protected. -/
theorem keepsOpen_concat
    {t : Text} {c : Char} (h : KeepsOpen t)
    (hc : c = '"' ∨ c = '\n' ∨ c = '\r' → protects t = true) :
    KeepsOpen (t ++ [c]) := by
  intro before d after heq hd
  rcases List.eq_nil_or_concat after with rfl | ⟨after, e, rfl⟩
  · obtain ⟨rfl, hlast⟩ := List.append_inj' heq rfl
    cases hlast
    exact hc hd
  · rw [List.concat_eq_append, ← List.cons_append, ← List.append_assoc] at heq
    exact h before d after (List.append_inj' heq rfl).1 hd

/-- Whether a literal that goes on behind `before` stops between the texts: behind a quote that
is not protected, or else at the end or before a line end that is not. -/
inductive LiteralStops (before : Text) : Text → Text → Prop
  | closed {t rest : Text} :
      KeepsOpen (before ++ t) → protects (before ++ t) = false →
        LiteralStops before (t ++ ['"']) rest
  | opened {t rest : Text} :
      KeepsOpen (before ++ t) →
        rest = [] ∨ protects (before ++ t) = false ∧
          (rest.head? = some '\n' ∨ rest.head? = some '\r') →
        LiteralStops before t rest

theorem LiteralStops.cons
    {before t rest : Text} {c : Char} (h : LiteralStops (before ++ [c]) t rest) :
    LiteralStops before (c :: t) rest := by
  cases h with
  | @closed t _ hopen hquote =>
      rw [List.append_assoc, List.singleton_append] at hopen hquote
      rw [← List.cons_append]
      exact .closed hopen hquote
  | opened hopen hend =>
      rw [List.append_assoc, List.singleton_append] at hopen hend
      exact .opened hopen hend

/-- A literal that stops where it should is a token. -/
theorem LiteralStops.fits
    {t rest : Text} (h : LiteralStops [] t rest) :
    Fits .stringLiteral ('"' :: t) rest := by
  cases h with
  | closed hopen hquote => exact .literal hopen hquote
  | opened hopen hend => exact .openLiteral hopen hend

/-- A string literal is counted up to where it stops. -/
theorem literalStops_literalLength
    {before : Text} (h : KeepsOpen before) (t : Text) :
    LiteralStops before (t.take (literalLength (protects before) t 0))
      (t.drop (literalLength (protects before) t 0)) := by
  induction t generalizing before with
  | nil =>
      exact .opened (by simpa [literalLength] using h) (Or.inl rfl)
  | cons c t ih =>
      cases hflag : protects before with
      | true =>
          have hnext := ih (keepsOpen_concat h (c := c) (fun _ => hflag))
          rw [Text.protects_concat, hflag, Bool.not_true, Bool.and_false] at hnext
          rw [literalLength_cons_true]
          exact hnext.cons
      | false =>
          rw [literalLength_cons_false]
          split
          · next hquote =>
              rw [hquote]
              exact .closed (t := []) (by simpa using h) (by simpa using hflag)
          split
          · next hend =>
              refine .opened (by simpa using h) (Or.inr ⟨by simpa using hflag, ?_⟩)
              rcases hend with rfl | rfl
              · exact Or.inl rfl
              · exact Or.inr rfl
          · next hquote hend =>
              have hplain : ¬ (c = '"' ∨ c = '\n' ∨ c = '\r') := fun hc => hc.elim hquote hend
              have hnext := ih (keepsOpen_concat h (fun hc => absurd hc hplain))
              rw [Text.protects_concat, hflag, Bool.not_false, Bool.and_true] at hnext
              exact hnext.cons

/-! ## Tokens -/

/-- The lexeme at the start of a text fits its kind. -/
theorem fits_of_lexeme
    {c : Char} {rest : Text} {kind : TokenKind} {n : Nat} (h : lexeme c rest = (kind, n)) :
    Fits kind (c :: rest.take n) (rest.drop n) := by
  unfold lexeme at h
  split at h
  · next hc =>
      cases h
      subst hc
      exact .lineFeed
  split at h
  · next hc =>
      cases h
      obtain ⟨rfl, hnext⟩ := hc
      obtain ⟨rest, rfl⟩ := List.head?_eq_some_iff.mp hnext
      exact .carriageReturn
  split at h
  · next hc =>
      cases h
      refine .space ?_ (fun d => eq_false_of_head?_drop_runLength)
      intro d hd
      rcases List.mem_cons.mp hd with rfl | hd
      · exact hc
      · exact mem_take_runLength hd
  split at h
  · next hc =>
      cases h
      obtain ⟨rfl, hnext⟩ := hc
      obtain ⟨rest, rfl⟩ := List.head?_eq_some_iff.mp hnext
      obtain ⟨hline, hstop⟩ := stopsLine_lineLength rest
      rw [lineLength_cons (by decide) (by decide)]
      exact .lineComment hline hstop
  split at h
  · next hc =>
      cases h
      obtain ⟨rfl, hnext⟩ := hc
      obtain ⟨rest, rfl⟩ := List.head?_eq_some_iff.mp hnext
      rw [List.tail_cons, throughClose_eq, Nat.add_comm, List.take_succ_cons, List.drop_succ_cons]
      rcases closes_throughClose rest with ⟨inner, hinner, hnone⟩ | ⟨hall, hnone⟩
      · rw [hinner]
        exact .blockComment hnone
      · rw [hall]
        exact .openComment hnone
  split at h
  · next hc =>
      cases h
      subst hc
      have hstop := literalStops_literalLength keepsOpen_nil rest
      exact hstop.fits
  split at h
  · next kind' hmark =>
      cases h
      obtain ⟨before, after, heq, -⟩ := List.lookup_eq_some_iff.mp hmark
      exact .mark (by rw [heq]; simp)
  split at h
  · next hc =>
      cases h
      exact .word hc (fun d hd => mem_take_runLength hd)
        (fun d => eq_false_of_head?_drop_runLength)
  · next hfeed hreturn hspace hline hblock hquote _ hmark hword =>
      cases h
      refine .other ⟨hfeed, ?_, ?_, ?_, hquote, ?_, ?_⟩
      · exact fun hc hnext => hreturn ⟨hc, hnext⟩
      · simpa using hspace
      · exact fun hc => ⟨fun hnext => hline ⟨hc, hnext⟩, fun hnext => hblock ⟨hc, hnext⟩⟩
      · intro kind hmem
        have hnone := List.lookup_eq_none_iff.mp hmark (c, kind) hmem
        simp at hnone
      · simpa using hword

/-- Every token fits its kind in front of those that follow it. -/
theorem fits_of_tokensFrom
    {l : Location} {text : Text} {before after : List Token} {t : Token}
    (h : tokensFrom l text = before ++ t :: after) :
    Fits t.kind t.content (textOf after) := by
  induction l, text using tokensFrom_induction generalizing before with
  | nil l =>
      simp at h
  | cons l c rest ih =>
      rw [tokensFrom_cons] at h
      cases before with
      | nil =>
          rw [List.nil_append, List.cons.injEq] at h
          rw [← h.1, ← h.2, textOf_tokensFrom]
          exact fits_of_lexeme rfl
      | cons b before =>
          rw [List.cons_append, List.cons.injEq] at h
          exact ih h.2

end Token
end PageTemplate
