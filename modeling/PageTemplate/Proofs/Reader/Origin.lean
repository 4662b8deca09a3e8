import PageTemplate.Proofs.Reader.Lossless
import PageTemplate.Proofs.Token.Spelling

/-!
# Where a descriptor comes from

A descriptor among the results is that of a directive, and the directive stands in the
template behind the text of the blocks before its own.

**Results.**
* `exists_directive_of_descriptor`: the directive of a descriptor, and its place.
-/

namespace PageTemplate

open Token (textOf)

/-- Whether `l` is the directive of the block `b`, read off the tokens `rest` that follow its
keyword in the template. -/
structure DirectiveLine.Origin (settings : Settings) (source : Text) (before : List Block)
    (b : Block) (rest : List Token) (l : DirectiveLine) : Prop where
  /-- The block is that of the directive. -/
  block : ∃ mark : Token, mark.content = "@".toList ∧
    b = (Passage.directive mark l).block settings.baseType
  /-- The directive was read off the tokens after its keyword. -/
  read : l = DirectiveLine.read l.directive settings.designTime
    (Location.start.advance source) l.keyword rest
  /-- The keyword is that of the directive. -/
  keyword : l.keyword.content = l.directive.keyword
  /-- The template goes on with the tokens after the keyword. -/
  text : source = before.flatMap Block.text ++ '@' :: (l.directive.keyword ++ textOf rest)
  /-- The tokens after the keyword are tokens of the template. -/
  tokens : rest ⊆ Token.tokenize source

theorem Passage.text_blocks
    (baseType : Text) (ps : List Passage) :
    (ps.map (block baseType)).flatMap Block.text = textOf (ps.flatMap source) := by
  rw [List.flatMap_map, Token.textOf_flatMap]
  exact congrArg ps.flatMap (funext (text_block baseType))

/-- Only the last span of a directive has a descriptor. -/
theorem Passage.exists_of_descriptor
    {baseType : Text} {p : Passage} {s : Span} {descriptor : Descriptor}
    (hs : s ∈ (p.block baseType).spans) (hdescriptor : s.descriptor = some descriptor) :
    ∃ mark l, p = .directive mark l ∧ s = l.argumentSpan baseType ∧
      descriptor = l.descriptor baseType := by
  cases p with
  | markup t ts =>
      rw [block, List.mem_singleton] at hs
      subst hs
      cases hdescriptor
  | directive mark l =>
      refine ⟨mark, l, rfl, ?_⟩
      simp only [block, DirectiveLine.spans, List.mem_cons, List.not_mem_nil, or_false] at hs
      rcases hs with rfl | rfl | rfl
      · cases hdescriptor
      · cases hdescriptor
      · exact ⟨rfl, (Option.some.inj hdescriptor).symm⟩

/-- The directive of a descriptor, and where it stands in the template. -/
theorem exists_directive_of_descriptor
    {settings : Settings} {source : Text} {before after : List Block} {b : Block}
    {s : Span} {descriptor : Descriptor}
    (hblocks : (Passage.ofSource settings.designTime source).map
      (Passage.block settings.baseType) = before ++ b :: after)
    (hs : s ∈ b.spans) (hdescriptor : s.descriptor = some descriptor) :
    ∃ (l : DirectiveLine) (rest : List Token), l.Origin settings source before b rest ∧
      s = l.argumentSpan settings.baseType ∧
      descriptor = l.descriptor settings.baseType := by
  obtain ⟨ps, qs, hps, rfl, hqs⟩ := List.map_eq_append_iff.mp hblocks
  obtain ⟨p, rs, rfl, rfl, -⟩ := List.map_eq_cons_iff.mp hqs
  obtain ⟨mark, l, rfl, hspan, hl⟩ := Passage.exists_of_descriptor hs hdescriptor
  obtain ⟨rest, htokens, hread, hdirective⟩ := exists_read_of_passages_eq hps
  obtain ⟨t, k, ts, heq, hmark, hkey⟩ := (directiveAt_eq_some_iff _ _).mp hdirective
  cases heq
  have hkeyword := ((Token.isKeyword_iff _ _).mp hkey).2
  have hmem : mark ∈ Token.tokenize source := by
    rw [htokens]
    simp
  have hat := (Token.spelled_of_mem hmem).transition hmark
  have htext : textOf (Token.tokenize source) = source :=
    Token.textOf_tokensFrom Location.start source
  refine ⟨l, rest, ⟨⟨mark, hat, rfl⟩, hread, hkeyword, ?_, ?_⟩, hspan, hl⟩
  · rw [htokens] at htext
    rw [Passage.text_blocks, ← htext, Token.textOf_append, Token.textOf_cons, Token.textOf_cons,
      hat, hkeyword]
    rfl
  · rw [htokens]
    intro t ht
    simp [ht]

end PageTemplate
