import PageTemplate.Proofs.Reader.Append
import PageTemplate.Proofs.Reader.Names
import PageTemplate.Proofs.Reader.Shape

/-!
# What a descriptor is taken from

What a directive asks the generator for stands in the last span of its block.  A base class, a
model and a pattern are all of the span, trimmed.  A type and the property of that type are two
separate parts of it, with nothing but white space and comments before and between them.

**Input.**  The tokens of the last span of a directive.

**Algorithm.**  The span is cut where the white space and comments at its start end, where the
type name ends, where the white space and comments after it end, and before the line end.

**Results.**
* `unquoted_unquote`: what unquoting leaves.
* `dropWhile_argument`: the last span has the argument behind its white space and comments.
* `length_append_of_lineEnd`: the type name of a line is found without the lines behind it.
* `propertyCut_argument`: the parts of a span that names a property.
* `readTemplate_takenFrom`: where the descriptors of a template are taken from.
-/

namespace PageTemplate

open Token (line afterLine lineEnd splitSpace isSpacing staysOnLine textOf)

/-! ## Texts and quotes -/

/-- Whether the second text is the first one without the quotes around it, if it has a quote
at its start and another one at its end. -/
inductive Text.Unquoted : Text → Text → Prop
  | quoted (t : Text) : Unquoted ('"' :: (t ++ ['"'])) t
  | plain {t : Text}
      (h : ¬ (t.head? = some '"' ∧ t.getLast? = some '"' ∧ 1 < t.length)) : Unquoted t t

/-- What quotes are taken off is what it was, or what stood between them. -/
theorem Text.unquoted_unquote (t : Text) :
    Unquoted t (unquote t) := by
  unfold unquote
  split
  · next inner =>
      split
      · next hlast =>
          obtain ⟨t, rfl⟩ := List.getLast?_eq_some_iff.mp hlast
          rw [List.dropLast_concat]
          exact .quoted t
      · next hlast =>
          refine .plain ?_
          rintro ⟨-, hend, hlength⟩
          cases inner with
          | nil => simp at hlength
          | cons c inner => exact hlast (by rwa [List.getLast?_cons_cons] at hend)
  · next hplain =>
      refine .plain ?_
      rintro ⟨hhead, -⟩
      obtain ⟨inner, rfl⟩ := List.head?_eq_some_iff.mp hhead
      exact hplain inner rfl

/-! ## The parts of an argument -/

namespace Token

/-- Whether `run` is all of the white space and comments in front of `rest`. -/
structure LongestSpacing (run rest : List Token) : Prop where
  spacing : ∀ t ∈ run, isSpacing false true t = true
  stops : ∀ t, rest.head? = some t → isSpacing false true t = false

/-- A run of spacing that is passed is as long as it can be. -/
theorem longestSpacing (ts : List Token) :
    LongestSpacing (ts.takeWhile (isSpacing false true)) (ts.dropWhile (isSpacing false true)) :=
  ⟨fun _ ht => List.all_eq_true.mp List.all_takeWhile _ ht, fun _ => eq_false_of_head?_dropWhile⟩

theorem dropWhile_staysOnLine_line
    (designTime : Bool) (ts : List Token) :
    (line designTime ts).dropWhile staysOnLine = if designTime then [] else lineEnd ts := by
  induction ts with
  | nil =>
      cases designTime <;> rfl
  | cons t ts ih =>
      by_cases hkind : t.kind = .newLine
      · cases designTime <;> simp [line, lineEnd, staysOnLine, hkind]
      · simpa [line, lineEnd, staysOnLine, hkind] using ih

/-- At the end of a line stands nothing else than its line end. -/
theorem dropWhile_staysOnLine_line_eq
    (designTime : Bool) (ts : List Token) :
    (line designTime ts).dropWhile staysOnLine = [] ∨
      ∃ t, (line designTime ts).dropWhile staysOnLine = [t] ∧ t.kind = .newLine := by
  rw [dropWhile_staysOnLine_line]
  cases designTime with
  | true =>
      exact Or.inl rfl
  | false =>
      rcases lineEnd_eq ts with ⟨hnone, -⟩ | ⟨t, -, hone, hkind⟩
      · exact Or.inl hnone
      · exact Or.inr ⟨t, hone, hkind⟩

end Token

/-- The type name of a line is found whatever lines stand behind it. -/
theorem TypeName.length_append_of_lineEnd
    {ts lineEnd behind : List Token}
    (hend : lineEnd = [] ∨ ∃ t, lineEnd = [t] ∧ t.kind = .newLine)
    (hbehind : lineEnd = [] → Token.StartsWithLineEnd behind) :
    length (ts ++ lineEnd ++ behind) = length (ts ++ lineEnd) := by
  rcases hend with rfl | ⟨t, rfl, hkind⟩
  · exact length_append (hbehind rfl).stopsTypeName _
  · have hstop (more : List Token) : Token.StopsTypeName (t :: more) := by
      intro u hu
      obtain rfl : t = u := by simpa using hu
      rw [hkind]
      rfl
    rw [List.append_assoc, List.singleton_append, length_append (hstop behind),
      length_append (hstop [])]

/-- Whether the tokens are cut into spacing, a type name, more spacing, the name of a property
and a line end. -/
structure PropertyCut (ts spacing typeName gap property lineEnd : List Token) : Prop where
  /-- The parts make up the tokens, in order. -/
  tokens : ts = spacing ++ (typeName ++ (gap ++ (property ++ lineEnd)))
  /-- In front stand all the white space and comments that there are. -/
  spacing : Token.LongestSpacing spacing (typeName ++ (gap ++ (property ++ lineEnd)))
  /-- There is a type name if and only if an identifier comes next. -/
  named : typeName ≠ [] ↔ Token.atIdentifier (typeName ++ (gap ++ (property ++ lineEnd))) = true
  /-- It is the one that is accepted there, whatever lines stand behind the tokens. -/
  typeName : ∀ (s : Slicer) (behind : List Token),
    s.cursor.rest = typeName ++ (gap ++ (property ++ lineEnd)) ++ behind →
      (lineEnd = [] → Token.StartsWithLineEnd behind) →
        s.acceptTypeName = (textOf typeName, s.acceptNext typeName.length)
  /-- Behind it stand all the white space and comments that there are. -/
  gap : Token.LongestSpacing gap (property ++ lineEnd)
  /-- The property goes up to the line end. -/
  property : ∀ t ∈ property, t.kind ≠ .newLine
  /-- The line end is one token, if it is there. -/
  lineEnd : lineEnd = [] ∨ ∃ t, lineEnd = [t] ∧ t.kind = .newLine

/-- Whether the descriptor of a directive is taken from the tokens of its last span. -/
inductive Descriptor.TakenFrom (baseType : Text) (ts : List Token) :
    Directive → Descriptor → Prop
  | inherits : TakenFrom baseType ts .inherits (.setBaseType (Text.trim (textOf ts)))
  | model : TakenFrom baseType ts .model (.model baseType (Text.trim (textOf ts)))
  | inject {spacing typeName gap property lineEnd : List Token}
      (hcut : PropertyCut ts spacing typeName gap property lineEnd) :
      TakenFrom baseType ts .inject
        (.inject (Text.trim (textOf typeName)) (Text.trim (textOf property)))
  | route (verb : Option Verb) {pattern : Text}
      (hpattern : Text.Unquoted (Text.trim (textOf ts)) pattern) :
      TakenFrom baseType ts (.route verb) (.route pattern verb)

/-! ## One directive -/

namespace DirectiveLine

/-- What the keyword takes of the white space does not change what comes after all of it. -/
theorem dropWhile_argument (l : DirectiveLine) :
    l.argument.dropWhile (isSpacing false true) = l.afterSpacing := by
  unfold argument afterSpacing
  cases l.tail with
  | nil =>
      rfl
  | cons t ts =>
      by_cases hkind : t.kind = .whiteSpace
      · have hspace : isSpacing false true t = true := by simp [isSpacing, hkind]
        rw [List.dropWhile_cons_of_pos hspace]
        cases hsplit : t.splitFirst with
        | none =>
            simp [splitSpace, hkind, hsplit]
        | some pair =>
            obtain ⟨first, rest⟩ := pair
            have hrest : isSpacing false true rest = true := by
              have hsame : rest.kind = t.kind := (Token.kind_of_splitFirst hsplit).2
              simp [isSpacing, hsame, hkind]
            simp [splitSpace, hkind, hsplit, List.dropWhile_cons_of_pos hrest]
      · rw [Token.splitSpace_of_head (by simpa using hkind)]

theorem argument_eq_takeWhile_append (l : DirectiveLine) :
    l.argument = l.argument.takeWhile (isSpacing false true) ++ l.afterSpacing := by
  rw [← dropWhile_argument, List.takeWhile_append_dropWhile]

theorem length_typeName (l : DirectiveLine) :
    l.typeName.length = TypeName.length l.afterSpacing := by
  rw [typeName, List.length_take_of_le (TypeName.length_le _)]

/-- A type is taken exactly where an identifier stands. -/
theorem typeName_ne_nil_iff (l : DirectiveLine) :
    l.typeName ≠ [] ↔ Token.atIdentifier l.afterSpacing = true := by
  have hat : (Cursor.ofTokens l.afterSpacing).isAt .identifier =
      Token.atIdentifier l.afterSpacing := rfl
  rw [← List.length_pos_iff, length_typeName, ← hat]
  constructor
  · intro hpos
    rw [← Bool.not_eq_false]
    intro hnone
    rw [TypeName.length_of_not_identifier hnone] at hpos
    exact absurd hpos (Nat.lt_irrefl 0)
  · exact TypeName.length_pos

/-- The parts of the last span of a directive, if they are those of a property. -/
theorem propertyCut_argument
    {designTime : Bool} {ts : List Token} {l : DirectiveLine}
    (htail : l.tail = line designTime ts) :
    PropertyCut l.argument (l.argument.takeWhile (isSpacing false true)) l.typeName
      (l.afterType.takeWhile (isSpacing false true)) l.property
      (l.afterGap.dropWhile staysOnLine) := by
  have hsplit := l.afterSpacing_eq_append
  have hgap : l.property ++ l.afterGap.dropWhile staysOnLine = l.afterGap := by
    rw [property, List.takeWhile_append_dropWhile]
  have hend : l.afterGap.dropWhile staysOnLine = [] ∨
      ∃ t, l.afterGap.dropWhile staysOnLine = [t] ∧ t.kind = .newLine := by
    rw [afterGap, afterType, afterSpacing, htail,
      Token.dropWhile_line Token.staysOnLine_of_isSpacing, TypeName.drop_length_line,
      Token.dropWhile_line Token.staysOnLine_of_isSpacing]
    exact Token.dropWhile_staysOnLine_line_eq _ _
  refine ⟨?_, ?_, ?_, ?_, ?_, ?_, hend⟩
  · rw [← hsplit]
    exact l.argument_eq_takeWhile_append
  · rw [← hsplit, ← dropWhile_argument]
    exact Token.longestSpacing l.argument
  · rw [← hsplit]
    exact l.typeName_ne_nil_iff
  · intro s behind hrest hbehind
    have hlength : TypeName.length s.cursor.rest = l.typeName.length := by
      rw [l.length_typeName, hrest, hsplit]
      simp only [← List.append_assoc]
      exact TypeName.length_append_of_lineEnd hend hbehind
    have htake : s.cursor.rest.take l.typeName.length = l.typeName := by
      rw [hrest, List.append_assoc, List.take_left]
    simp only [Slicer.acceptTypeName, hlength, htake]
  · rw [hgap]
    exact Token.longestSpacing l.afterType
  · exact Token.mem_takeWhile_ne Token.kind_of_staysOnLine l.afterGap

/-- The descriptor of a directive is taken from its argument. -/
theorem takenFrom_descriptor
    {designTime : Bool} {ts : List Token} {l : DirectiveLine}
    (htail : l.tail = line designTime ts) (baseType : Text) :
    (l.descriptor baseType).TakenFrom baseType l.argument l.directive := by
  unfold descriptor
  cases l.directive with
  | inherits => exact .inherits
  | model => exact .model
  | inject => exact .inject (propertyCut_argument htail)
  | route verb => exact .route verb (Text.unquoted_unquote _)

end DirectiveLine

/-! ## Blocks of directives -/

namespace Block

/-- The directive of a block of three spans: its keyword is the first token of the second. -/
def directive? (b : Block) : Option Directive :=
  b.spans[1]?.bind fun keyword =>
    keyword.tokens.head?.bind fun k => Directive.table.get? k.content

/-- The last span of a block of three. -/
def argument? (b : Block) : Option Span :=
  b.spans[2]?

end Block

theorem directive?_block
    {mark : Token} {l : DirectiveLine}
    (hkeyword : l.keyword.content = l.directive.keyword) (baseType : Text) :
    ((Passage.directive mark l).block baseType).directive? = some l.directive := by
  rw [← Directive.get?_table_keyword l.directive, ← hkeyword]
  rfl

/-- The directives of a document were read off its lines. -/
theorem exists_read_of_mem_ofSource
    {designTime : Bool} {source : Text} {mark : Token} {l : DirectiveLine}
    (h : .directive mark l ∈ Passage.ofSource designTime source) :
    ∃ before rest, Token.tokenize source = before ++ mark :: l.keyword :: rest ∧
      l = DirectiveLine.read l.directive designTime (Location.start.advance source)
        l.keyword rest ∧
      l.keyword.content = l.directive.keyword := by
  obtain ⟨ps, qs, hsplit⟩ := List.append_of_mem h
  obtain ⟨rest, htokens, hread, -⟩ := exists_read_of_passages_eq hsplit
  exact ⟨ps.flatMap Passage.source, rest, htokens, hread, (isMarked_of_mem_passages h).2⟩

/-- The block of a directive of a document, from the directive itself. -/
theorem exists_directive_of_mem_directives
    {designTime : Bool} {source baseType : Text} {b : Block}
    (h : b ∈ Block.directives
      ((Passage.ofSource designTime source).map (Passage.block baseType))) :
    ∃ mark l, .directive mark l ∈ Passage.ofSource designTime source ∧
      b = (Passage.directive mark l).block baseType ∧
      b.directive? = some l.directive ∧ b.argument? = some (l.argumentSpan baseType) := by
  rw [Passage.directives_blocks] at h
  obtain ⟨p, hp, rfl⟩ := List.mem_map.mp h
  obtain ⟨hmem, hkind⟩ := List.mem_filter.mp hp
  cases p with
  | markup t ts =>
      cases hkind
  | directive mark l =>
      obtain ⟨before, rest, -, -, hkeyword⟩ := exists_read_of_mem_ofSource hmem
      exact ⟨mark, l, hmem, rfl, directive?_block hkeyword baseType, rfl⟩

/-- What a directive asks the generator for is taken from the tokens of its last span. -/
theorem readTemplate_takenFrom
    (settings : Settings) (source : Text) :
    ∃ results, readTemplate settings source = .ok results ∧
      ∀ b ∈ Block.directives results.blocks, ∃ d argument descriptor,
        b.directive? = some d ∧ b.argument? = some argument ∧
        argument.descriptor = some descriptor ∧
        descriptor.TakenFrom settings.baseType argument.tokens d := by
  refine ⟨_, readTemplate_eq_passages settings source, ?_⟩
  intro b hb
  obtain ⟨mark, l, hmem, -, hdirective, hargument⟩ := exists_directive_of_mem_directives hb
  obtain ⟨before, rest, -, hread, -⟩ := exists_read_of_mem_ofSource hmem
  have htail : l.tail = line settings.designTime rest := by
    rw [hread]
    rfl
  exact ⟨l.directive, l.argumentSpan settings.baseType, l.descriptor settings.baseType,
    hdirective, hargument, rfl, DirectiveLine.takenFrom_descriptor htail settings.baseType⟩

end PageTemplate
