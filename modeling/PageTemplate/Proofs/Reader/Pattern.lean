import PageTemplate.Proofs.Reader.Origin
import PageTemplate.Proofs.Text.Lines

/-!
# The pattern of a route

The pattern of a route is meant to be the rest of its line, and it is, as long as no comment
and no string literal goes over the end of the line.  One that does carries the directive on
to where it ends, and the pattern with it.

**Input.**  The tokens after the keyword of a route.

**Algorithm.**  The tokens up to the first line end are joined, trimmed and unquoted.

**Results.**
* `allBlank_laterLines_line`: only comments and string literals carry a line on.
* `firstLine_source`: the line of the tokens starts with the line of the text.
* `readTemplate_pattern`: when a pattern is the rest of its line.
* `readTemplate_pattern_of_open_comment`: a pattern that is not.
-/

namespace PageTemplate

open Token (line afterLine splitSpace textOf)
open Text (AllBlank firstLine laterLines)

/-! ## Lines of tokens and lines of text -/

section Line

variable {l : Location} {text : Text} {ts : List Token}

/-- A token goes over the end of a line only behind a mark that is not blank. -/
theorem Token.not_allBlank_firstLine
    {t : Token} (h : t ∈ Token.tokensFrom l text) (hkind : t.kind ≠ .newLine)
    (hmem : '\n' ∈ t.content) :
    ¬ AllBlank (firstLine t.content) := by
  have hkinds := (Token.kind_of_newline_mem h hmem).resolve_left hkind
  obtain ⟨c, rest, hcontent, hc⟩ := Token.exists_cons_of_comment_or_literal h hkinds
  have hne : c ≠ '\n' := by
    rintro rfl
    cases hc
  intro hall
  have hhead : firstLine (c :: rest) = c :: firstLine rest :=
    List.takeWhile_cons_of_pos (decide_eq_true hne)
  rw [hcontent, hhead, Text.allBlank_cons, hc] at hall
  cases hall.1

/-- A line end is blank before and behind its line feed. -/
theorem Token.firstLine_newLine
    {t : Token} (h : t ∈ Token.tokensFrom l text) (hkind : t.kind = .newLine) :
    AllBlank (firstLine t.content) ∧ AllBlank (laterLines t.content) ∧ '\n' ∈ t.content := by
  rcases Token.content_of_newLine h hkind with hcontent | hcontent
  · rw [hcontent]
    decide
  · rw [hcontent]
    decide

/-- A line that starts with blanks only has nothing but blanks. -/
theorem allBlank_laterLines_of_firstLine
    (designTime : Bool) (h : ts ⊆ Token.tokensFrom l text)
    (hfirst : AllBlank (firstLine (textOf (line designTime ts)))) :
    AllBlank (laterLines (textOf (line designTime ts))) := by
  induction ts with
  | nil =>
      exact Text.allBlank_nil
  | cons t ts ih =>
      have ht : t ∈ Token.tokensFrom l text := h List.mem_cons_self
      unfold line at hfirst ⊢
      split
      · next hkind =>
          split
          · exact Text.allBlank_nil
          · rw [Token.textOf_cons, Token.textOf_nil, List.append_nil]
            exact (Token.firstLine_newLine ht hkind).2.1
      · next hkind =>
          rw [if_neg hkind, Token.textOf_cons] at hfirst
          rw [Token.textOf_cons]
          by_cases hmem : '\n' ∈ t.content
          · rw [Text.firstLine_append_of_mem hmem] at hfirst
            exact absurd hfirst (Token.not_allBlank_firstLine ht hkind hmem)
          · rw [Text.firstLine_append_of_not_mem hmem, Text.allBlank_append] at hfirst
            rw [Text.laterLines_append_of_not_mem hmem]
            exact ih (List.subset_of_cons_subset h) hfirst.2

/-- Only comments and string literals carry a line on. -/
theorem allBlank_laterLines_line
    (designTime : Bool) (h : ts ⊆ Token.tokensFrom l text)
    (hstay : ∀ t ∈ line designTime ts, t.kind = .comment ∨ t.kind = .stringLiteral →
      '\n' ∉ t.content) :
    AllBlank (laterLines (textOf (line designTime ts))) := by
  induction ts with
  | nil =>
      exact Text.allBlank_nil
  | cons t ts ih =>
      have ht : t ∈ Token.tokensFrom l text := h List.mem_cons_self
      unfold line at hstay ⊢
      split
      · next hkind =>
          split
          · exact Text.allBlank_nil
          · rw [Token.textOf_cons, Token.textOf_nil, List.append_nil]
            exact (Token.firstLine_newLine ht hkind).2.1
      · next hkind =>
          rw [if_neg hkind] at hstay
          have hmem : '\n' ∉ t.content := by
            intro hmem
            have hkinds := (Token.kind_of_newline_mem ht hmem).resolve_left hkind
            exact hstay t List.mem_cons_self hkinds hmem
          rw [Token.textOf_cons, Text.laterLines_append_of_not_mem hmem]
          exact ih (List.subset_of_cons_subset h)
            (fun u hu => hstay u (List.mem_cons_of_mem t hu))

/-- After a line without line feed comes a line end or nothing. -/
theorem allBlank_firstLine_afterLine
    (designTime : Bool) (h : ts ⊆ Token.tokensFrom l text)
    (hmem : '\n' ∉ textOf (line designTime ts)) :
    AllBlank (firstLine (textOf (afterLine designTime ts))) := by
  induction ts with
  | nil =>
      exact Text.allBlank_nil
  | cons t ts ih =>
      have ht : t ∈ Token.tokensFrom l text := h List.mem_cons_self
      unfold line at hmem
      unfold afterLine
      split
      · next hkind =>
          obtain ⟨hblank, -, hfeed⟩ := Token.firstLine_newLine ht hkind
          rw [if_pos hkind] at hmem
          cases designTime with
          | true =>
              rw [if_pos rfl, Token.textOf_cons, Text.firstLine_append_of_mem hfeed]
              exact hblank
          | false =>
              simp [hfeed] at hmem
      · next hkind =>
          rw [if_neg hkind, Token.textOf_cons, List.mem_append, not_or] at hmem
          exact ih (List.subset_of_cons_subset h) hmem.2

/-- The line of the tokens starts with the line of the text. -/
theorem firstLine_source
    (designTime : Bool) (h : ts ⊆ Token.tokensFrom l text) :
    Text.trim (firstLine (textOf ts)) =
      Text.trim (firstLine (textOf (line designTime ts))) := by
  have hsplit : textOf ts =
      textOf (line designTime ts) ++ textOf (afterLine designTime ts) := by
    rw [← Token.textOf_append, Token.line_append_afterLine]
  rw [hsplit]
  by_cases hmem : '\n' ∈ textOf (line designTime ts)
  · rw [Text.firstLine_append_of_mem hmem]
  · have hblank := allBlank_firstLine_afterLine designTime h hmem
    have hall := Text.firstLine_append_of_not_mem hmem []
    rw [List.append_nil] at hall
    rw [Text.firstLine_append_of_not_mem hmem, Text.trim_append_right hblank, hall]
    simp [firstLine]

end Line

/-! ## Patterns -/

namespace DirectiveLine

/-- What goes to the keyword is blank. -/
theorem allBlank_splitSpace_fst
    {ts : List Token} (h : ∀ t ∈ ts, t.Spelled) :
    AllBlank (textOf (splitSpace ts).1) := by
  rcases Token.splitSpace_fst ts with hnone | ⟨t, space, hone, hhead, hkind, hcontent⟩
  · rw [hnone]
    exact Text.allBlank_nil
  · have hblank := Token.allBlank_of_whiteSpace (h t (List.mem_of_mem_head? hhead)) hkind
    rw [hone, Token.textOf_cons, Token.textOf_nil, List.append_nil, hcontent]
    exact fun c hc => hblank c (List.mem_of_mem_take hc)

/-- The white space that went to the keyword would have been trimmed off. -/
theorem trim_argument
    {l : DirectiveLine} (h : ∀ t ∈ l.tail, t.Spelled) :
    Text.trim (textOf l.argument) = Text.trim (textOf l.tail) := by
  rw [← Token.textOf_splitSpace l.tail, Text.trim_append_left (allBlank_splitSpace_fst h)]
  rfl

theorem newline_not_mem_keyword (d : Directive) :
    '\n' ∉ '@' :: d.keyword := by
  intro hmem
  rcases List.mem_cons.mp hmem with hmark | hmem
  · cases hmark
  · cases d.isBlank_eq_false_of_mem_keyword '\n' hmem

theorem mem_splitSpace_snd
    {ts : List Token} {t : Token} (h : t ∈ ts) (hkind : t.kind ≠ .whiteSpace) :
    t ∈ (splitSpace ts).2 := by
  cases ts with
  | nil =>
      cases h
  | cons u ts =>
      simp only [splitSpace]
      split
      · next hspace =>
          have hmem : t ∈ ts := by
            rcases List.mem_cons.mp h with rfl | hmem
            · exact absurd hspace hkind
            · exact hmem
          split
          · exact hmem
          · exact List.mem_cons_of_mem _ hmem
      · exact h

section Pattern

variable {place : Location} {text : Text} {designTime : Bool} {ts : List Token}
  {l : DirectiveLine} (htail : l.tail = line designTime ts)
  (h : ts ⊆ Token.tokensFrom place text)
include htail h

theorem spelled_of_mem_tail :
    ∀ t ∈ l.tail, t.Spelled := by
  intro t ht
  rw [htail] at ht
  exact Token.spelled_of_mem (h (Token.line_subset designTime ts ht))

/-- A line feed is in the pattern exactly when more than blanks follow it. -/
theorem newline_mem_pattern_iff :
    '\n' ∈ Text.unquote (Text.trim (textOf l.argument)) ↔
      ¬ AllBlank (laterLines (textOf l.tail)) := by
  have hblank : AllBlank (firstLine (textOf l.tail)) → AllBlank (laterLines (textOf l.tail)) := by
    rw [htail]
    exact allBlank_laterLines_of_firstLine designTime h
  rw [Text.mem_unquote_iff (by decide), trim_argument (spelled_of_mem_tail htail h)]
  exact Text.newline_mem_trim_iff hblank

/-- The pattern is the rest of the line exactly when nothing but blanks was taken from later
lines. -/
theorem pattern_eq_iff :
    Text.unquote (Text.trim (textOf l.argument)) =
        Text.unquote (Text.trim (firstLine (textOf ts))) ↔
      AllBlank (laterLines (textOf l.tail)) := by
  have hfeed := newline_mem_pattern_iff htail h
  have hfirst : Text.trim (firstLine (textOf ts)) = Text.trim (firstLine (textOf l.tail)) := by
    rw [htail]
    exact firstLine_source designTime h
  rw [hfirst]
  constructor
  · intro heq
    refine Decidable.byContradiction ?_
    intro hmore
    rw [← hfeed, heq, Text.mem_unquote_iff (by decide)] at hmore
    exact Text.newline_not_mem_trim (Text.newline_not_mem_firstLine _) hmore
  · intro hall
    rw [trim_argument (spelled_of_mem_tail htail h), Text.trim_eq_trim_firstLine hall]

/-- The comments and string literals of a directive are among the tokens of its last span. -/
theorem allBlank_laterLines_tail
    (hstay : ∀ t ∈ l.argument, t.kind = .comment ∨ t.kind = .stringLiteral → '\n' ∉ t.content) :
    AllBlank (laterLines (textOf l.tail)) := by
  rw [htail]
  refine allBlank_laterLines_line designTime h ?_
  intro t ht hkinds
  rw [← htail] at ht
  refine hstay t (mem_splitSpace_snd ht ?_) hkinds
  rcases hkinds with hkind | hkind
  · rw [hkind]
    exact TokenKind.noConfusion
  · rw [hkind]
    exact TokenKind.noConfusion

end Pattern

/-- The `@` and the keyword have no line feed, so later lines begin in the tail. -/
theorem laterLines_block
    {mark : Token} (hmark : mark.content = "@".toList) {l : DirectiveLine}
    (hkeyword : l.keyword.content = l.directive.keyword) (baseType : Text) :
    laterLines ((Passage.directive mark l).block baseType).text = laterLines (textOf l.tail) := by
  have hsource : ((Passage.directive mark l).block baseType).text =
      ('@' :: l.directive.keyword) ++ textOf l.tail := by
    rw [Passage.text_block, Passage.source, Token.textOf_cons, Token.textOf_cons, hmark, hkeyword]
    rfl
  rw [hsource, Text.laterLines_append_of_not_mem (newline_not_mem_keyword l.directive)]

/-- A route is asked for by a route only, with the pattern of its argument. -/
theorem exists_pattern
    {baseType pattern : Text} {verb : Option Verb} {l : DirectiveLine}
    (h : .route pattern verb = l.descriptor baseType) :
    l.directive = .route verb ∧ pattern = Text.unquote (Text.trim (textOf l.argument)) := by
  unfold descriptor at h
  split at h
  · cases h
  · cases h
  · cases h
  · next hd =>
      cases h
      exact ⟨hd, rfl⟩

end DirectiveLine

/-- A pattern is the rest of its line exactly when nothing but blanks comes after the first
line feed of the directive, and otherwise has a line feed itself.  Only a comment or a string
literal can carry the directive over the end of its line. -/
theorem readTemplate_pattern
    (settings : Settings) (source : Text) :
    ∃ results, readTemplate settings source = .ok results ∧
      ∀ before b after, results.blocks = before ++ b :: after →
        ∀ s ∈ b.spans, ∀ pattern verb, s.descriptor = some (.route pattern verb) →
          ∃ rest, source =
              before.flatMap Block.text ++ '@' :: (Directive.routeKeyword verb ++ rest) ∧
            (pattern = Text.unquote (Text.trim (firstLine rest)) ↔
              AllBlank (laterLines b.text)) ∧
            ('\n' ∈ pattern ↔ ¬ AllBlank (laterLines b.text)) ∧
            ((∀ t ∈ b.tokens, t.kind = .comment ∨ t.kind = .stringLiteral → '\n' ∉ t.content) →
              AllBlank (laterLines b.text)) := by
  refine ⟨_, readTemplate_eq_passages settings source, ?_⟩
  intro before b after hblocks s hs pattern verb hdescriptor
  obtain ⟨l, ts, horigin, rfl, hl⟩ := exists_directive_of_descriptor hblocks hs hdescriptor
  obtain ⟨⟨mark, hmark, rfl⟩, hread, hkeyword, htext, htokens⟩ := horigin
  obtain ⟨hdirective, rfl⟩ := DirectiveLine.exists_pattern hl
  have htail : l.tail = line settings.designTime ts := by rw [hread]; rfl
  rw [DirectiveLine.laterLines_block hmark hkeyword]
  refine ⟨textOf ts, ?_, DirectiveLine.pattern_eq_iff htail htokens,
    DirectiveLine.newline_mem_pattern_iff htail htokens, ?_⟩
  · rw [hdirective] at htext
    exact htext
  · intro hstay
    refine DirectiveLine.allBlank_laterLines_tail htail htokens ?_
    intro t ht
    refine hstay t ?_
    simp [Passage.block, Block.tokens, DirectiveLine.spans, DirectiveLine.argumentSpan, ht]

/-- A pattern that ends in a slash and a star starts a comment, which takes the next line
into the pattern. -/
theorem readTemplate_pattern_of_open_comment :
    ∃ results, readTemplate Settings.standard "@route /files/*\nb".toList = .ok results ∧
      results.descriptors = [.route "/files/*\nb".toList none] ∧
      Text.unquote (Text.trim (firstLine " /files/*\nb".toList)) = "/files/*".toList := by
  obtain ⟨results, hread⟩ :=
    exists_readTemplate_eq_ok Settings.standard "@route /files/*\nb".toList
  have hdescriptors :
      (readTemplate Settings.standard "@route /files/*\nb".toList).toOption.map
        Results.descriptors = some [.route "/files/*\nb".toList none] := by
    decide +kernel
  rw [hread] at hdescriptors
  exact ⟨results, hread, Option.some.inj hdescriptors, by decide⟩

end PageTemplate
