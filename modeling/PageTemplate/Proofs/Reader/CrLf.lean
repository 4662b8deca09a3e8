import PageTemplate.Proofs.Reader.Transcription
import PageTemplate.Proofs.Token.CrLf

/-!
# Templates with carriage returns

A template without carriage returns and the same template with one before each line feed are
read alike, as long as no string literal goes over the end of a line.

**Input.**  A template without carriage returns.

**Algorithm.**  The tokens of the two are cut off side by side.  A place moves by the carriage
returns before it, which are as many as there are lines before it.

**Results.**
* `tokensFrom_crlf`: the tokens with carriage returns are those without, written down.
* `literalsOnLine_of_tokenize_crlf`: a literal over the end of a line is not found again.
* `readTemplate_crlf`: what comes out of a template with carriage returns.
* `tokenize_crlf_of_escaped_newline`: a literal that is cut in three.
-/

namespace PageTemplate

open Text (crlf)

namespace Location

/-- The place with one more character before it for every line before it. -/
def withReturns (l : Location) : Location :=
  ⟨l.offset + l.line, l.line, l.column⟩

theorem withReturns_next
    (l : Location) {c : Char} (hc : c ≠ '\n') :
    (l.next c).withReturns = l.withReturns.next c := by
  simp only [next, if_neg hc, withReturns, mk.injEq, and_true]
  omega

theorem withReturns_next_newline (l : Location) :
    (l.next '\n').withReturns = l.withReturns.advance ['\r', '\n'] := by
  have hfeed : Char.utf8Size '\n' = 1 := by decide
  have hreturn : Char.utf8Size '\r' = 1 := by decide
  simp only [advance_cons, advance_nil, next, if_true, if_neg (by decide : ¬ '\r' = '\n'), hfeed,
    hreturn, withReturns, mk.injEq, and_true]
  omega

end Location

/-- Carriage returns before the line feeds. -/
def Transcription.crlf : Transcription where
  lineEnd := ['\r', '\n']
  place := Location.withReturns
  lineEnd_ne_nil := List.cons_ne_nil _ _
  lineEnd_blank := by decide
  place_next l _ hc := l.withReturns_next hc
  place_newline := Location.withReturns_next_newline

/-- Whether no string literal among the tokens goes over the end of a line. -/
def Token.LiteralsOnLine (ts : List Token) : Prop :=
  ∀ t ∈ ts, t.kind = .stringLiteral → '\n' ∉ t.content

instance (ts : List Token) : Decidable (Token.LiteralsOnLine ts) :=
  inferInstanceAs (Decidable (∀ t ∈ ts, t.kind = .stringLiteral → '\n' ∉ t.content))

namespace Transcription

theorem endLocation_token
    (ρ : Transcription) (t : Token) :
    (ρ.token t).endLocation = ρ.place t.endLocation :=
  (ρ.place_advance t.location t.content).symm

/-- The next token, with and without carriage returns, and what follows it. -/
theorem first_crlf
    {l : Location} {c : Char} {rest : Text} (hc : c ≠ '\n') (hreturn : '\r' ∉ c :: rest)
    (hstay : (Token.first l c rest).kind = .stringLiteral →
      '\n' ∉ (Token.first l c rest).content) :
    Token.first (crlf.place l) c (Text.crlf rest) = crlf.token (Token.first l c rest) ∧
      (Text.crlf rest).drop (Token.lexeme c (Text.crlf rest)).2 =
        Text.crlf (rest.drop (Token.lexeme c rest).2) := by
  obtain ⟨n, hn⟩ : ∃ n, (Token.lexeme c rest).2 = n := ⟨_, rfl⟩
  have hlexeme := Token.lexeme_crlf hc hreturn
    (fun hkind hmem => hstay hkind (List.mem_cons_of_mem c hmem))
  rw [hn] at hlexeme
  have hsplit : Text.crlf rest = Text.crlf (rest.take n) ++ Text.crlf (rest.drop n) := by
    rw [← Text.crlf_append, List.take_append_drop]
  constructor
  · rw [Token.first, Token.first, hlexeme, hn, token]
    dsimp only
    rw [hsplit, List.take_left]
    exact congrArg (Token.mk _ · _) (Text.crlf_cons_of_ne hc _).symm
  · rw [hlexeme, hn]
    dsimp only
    conv => lhs; rw [hsplit]
    rw [List.drop_left]

/-- A line feed is one token in both forms. -/
theorem first_crlf_newline
    (l : Location) (rest : Text) :
    Token.first (crlf.place l) '\r' ('\n' :: Text.crlf rest) =
      crlf.token (Token.first l '\n' rest) := rfl

/-- Without carriage returns before, and with literals that stay on their lines, the tokens are
those written down. -/
theorem tokensFrom_crlf
    {l : Location} {t : Text} (hreturn : '\r' ∉ t)
    (hstay : Token.LiteralsOnLine (Token.tokensFrom l t)) :
    Token.tokensFrom (crlf.place l) (Text.crlf t) = (Token.tokensFrom l t).map crlf.token := by
  induction l, t using Token.tokensFrom_induction with
  | nil l =>
      simp [Text.crlf]
  | cons l c rest ih =>
      rw [Token.tokensFrom_cons] at hstay ⊢
      have hnext := ih (fun h => hreturn (List.mem_cons_of_mem c (List.mem_of_mem_drop h)))
        (fun t ht => hstay t (List.mem_cons_of_mem _ ht))
      by_cases hc : c = '\n'
      · subst hc
        rw [Text.crlf_newline, Token.tokensFrom_cons, first_crlf_newline, endLocation_token,
          List.map_cons, ← hnext]
        rfl
      · obtain ⟨hfirst, hrest⟩ := first_crlf hc hreturn (hstay _ List.mem_cons_self)
        rw [Text.crlf_cons_of_ne hc, Token.tokensFrom_cons, hfirst, hrest, endLocation_token,
          hnext, List.map_cons]

theorem tokenize_crlf
    {source : Text} (hreturn : '\r' ∉ source)
    (hstay : Token.LiteralsOnLine (Token.tokenize source)) :
    Token.tokenize (Text.crlf source) = (Token.tokenize source).map crlf.token :=
  tokensFrom_crlf hreturn hstay

end Transcription

/-- A literal over the end of a line is not found again. -/
theorem Token.literalsOnLine_of_tokenize_crlf
    {source : Text}
    (h : (tokenize (crlf source)).map (fun t => (t.kind, t.content)) =
      (tokenize source).map (fun t => (t.kind, crlf t.content))) :
    LiteralsOnLine (tokenize source) := by
  intro t ht hkind hmem
  have hfound : (t.kind, crlf t.content) ∈
      (tokenize (crlf source)).map (fun t => (t.kind, t.content)) := by
    rw [h]
    exact List.mem_map.mpr ⟨t, ht, rfl⟩
  obtain ⟨u, hu, hsame⟩ := List.mem_map.mp hfound
  obtain ⟨hkinds, hcontents⟩ := Prod.mk.inj hsame
  have hpair := infix_crlf hmem
  rw [← hcontents] at hpair
  exact not_infix_of_stringLiteral hu (hkinds.trans hkind) hpair

/-- A template with carriage returns has the tokens of the template without, with the same
change in their texts, exactly when no string literal goes over the end of a line.  Then all
that comes out of it is the same but for the change: a token keeps its line and its column. -/
theorem readTemplate_crlf
    {source : Text} (hreturn : '\r' ∉ source) :
    ((Token.tokenize (crlf source)).map (fun t => (t.kind, t.content)) =
        (Token.tokenize source).map (fun t => (t.kind, crlf t.content)) ↔
      Token.LiteralsOnLine (Token.tokenize source)) ∧
    (Token.LiteralsOnLine (Token.tokenize source) →
      Token.tokenize (crlf source) = (Token.tokenize source).map Transcription.crlf.token ∧
      ∀ settings, readTemplate settings (crlf source) =
        (readTemplate settings source).map Transcription.crlf.results) := by
  refine ⟨⟨Token.literalsOnLine_of_tokenize_crlf, ?_⟩, ?_⟩
  · intro hstay
    rw [Transcription.tokenize_crlf hreturn hstay, List.map_map]
    rfl
  · intro hstay
    have htokens := Transcription.tokenize_crlf hreturn hstay
    have hfinal : Location.start.advance (crlf source) =
        Transcription.crlf.place (Location.start.advance source) :=
      (Transcription.crlf.place_advance Location.start source).symm
    exact ⟨htokens, fun settings => readTemplate_of_tokenize_eq _ settings htokens hfinal⟩

/-- A directive with a carriage return behind it is the directive without. -/
theorem readTemplate_crlf_of_model :
    '\r' ∉ "@model A\nb".toList ∧
      readTemplate Settings.standard "@model A\r\nb".toList =
        (readTemplate Settings.standard "@model A\nb".toList).map
          Transcription.crlf.results := by
  have hreturn : '\r' ∉ "@model A\nb".toList := by decide
  obtain ⟨-, hread⟩ := readTemplate_crlf hreturn
  obtain ⟨-, hsettings⟩ := hread (by decide +kernel)
  exact ⟨hreturn, hsettings Settings.standard⟩

/-- A backslash protects the line feed of a literal, but of a carriage return and a line feed
only the first, and so the literal is cut in three. -/
theorem tokenize_crlf_of_escaped_newline :
    '\r' ∉ "\"\\\n\"".toList ∧
      (Token.tokenize "\"\\\n\"".toList).map Token.kind = [.stringLiteral] ∧
      (Token.tokenize (crlf "\"\\\n\"".toList)).map Token.kind =
        [.stringLiteral, .newLine, .stringLiteral] := by
  refine ⟨by decide, ?_, ?_⟩
  · decide +kernel
  · decide +kernel

end PageTemplate
