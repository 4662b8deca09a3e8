import PageTemplate.Proofs.Slicer.Effect
import PageTemplate.Proofs.TypeName.Locality

/-!
# A directive in its line

What a directive means can be read off its own tokens: the keyword, the tokens after it up
to the end of its line, and the place where the text goes on.

**Input.**  The directive, its keyword, the tokens of the document after the keyword, and
the place where the document ends.

**Algorithm.**  The line is cut off.  Of the line, the white space and comments at its
start come first; then, for a property, a type name, more white space and comments, and
the rest without the line end.

**Results.**
* `afterSpacing_read`, `typeName_read`, `afterType_read`: the parts of a line are those that
  a reader of the whole document meets.
* `faults_of_baseType`, `faults_of_inject`: which names a line lacks.
* `place_read`, `faults_read`: what is reported about a line does not depend on design time.
-/

namespace PageTemplate

open Token (line afterLine splitSpace isSpacing staysOnLine placeOf)

/-- The kind of the span that holds the argument of a directive. -/
def Directive.argumentKind : Directive → SpanKind
  | inherits | model | inject => .code
  | route _ => .metaCode

/-- No keyword has a blank in it. -/
theorem Directive.isBlank_eq_false_of_mem_keyword (d : Directive) :
    ∀ c ∈ d.keyword, Text.isBlank c = false := by
  have hall : d.keyword.all (!Text.isBlank ·) = true := by
    rcases d with _ | _ | _ | (_ | v)
    · decide
    · decide
    · decide
    · decide
    · cases v <;> decide
  intro c hc
  simpa using List.all_eq_true.mp hall c hc

/-- A directive with the tokens that belong to it. -/
structure DirectiveLine where
  /-- What is asked for. -/
  directive : Directive
  /-- The keyword. -/
  keyword : Token
  /-- The tokens after the keyword. -/
  tail : List Token
  /-- Where the text goes on. -/
  stop : Location
  deriving DecidableEq, Repr

namespace DirectiveLine

/-- The directive whose keyword stands before the tokens `ts` of a document that ends at
`final`. -/
def read (d : Directive) (designTime : Bool) (final : Location) (k : Token) (ts : List Token) :
    DirectiveLine where
  directive := d
  keyword := k
  tail := line designTime ts
  stop := placeOf final (afterLine designTime ts)

variable (l : DirectiveLine)

/-- The place after the keyword. -/
def place : Location :=
  placeOf l.stop l.tail

/-- What follows the white space and comments after the keyword. -/
def afterSpacing : List Token :=
  l.tail.dropWhile (isSpacing false true)

/-- The tokens of the type name. -/
def typeName : List Token :=
  l.afterSpacing.take (TypeName.length l.afterSpacing)

/-- What follows the type name. -/
def afterType : List Token :=
  l.afterSpacing.drop (TypeName.length l.afterSpacing)

/-- What follows the white space and comments after the type name. -/
def afterGap : List Token :=
  l.afterType.dropWhile (isSpacing false true)

/-- The tokens of the property name. -/
def property : List Token :=
  l.afterGap.takeWhile staysOnLine

/-- The tokens of the last span: all but the keyword and its white space. -/
def argument : List Token :=
  (splitSpace l.tail).2

/-- What the generator has to do. -/
def descriptor (baseType : Text) : Descriptor :=
  match l.directive with
  | .inherits => .setBaseType (Text.trim (Token.textOf l.argument))
  | .model => .model baseType (Text.trim (Token.textOf l.argument))
  | .inject =>
      .inject (Text.trim (Token.textOf l.typeName)) (Text.trim (Token.textOf l.property))
  | .route verb => .route (Text.unquote (Text.trim (Token.textOf l.argument))) verb

/-- The report that there is no type name. -/
def missingTypeName : Diagnostic :=
  ⟨placeOf l.stop l.afterSpacing, .missingTypeName, l.directive.keyword⟩

/-- The report that there is no property name. -/
def missingPropertyName : Diagnostic :=
  ⟨placeOf l.stop l.afterType, .missingPropertyName, l.directive.keyword⟩

/-- The mistakes in the line itself. -/
def faults : List Diagnostic :=
  match l.directive with
  | .inherits | .model => if Token.atLineEnd l.afterSpacing then [l.missingTypeName] else []
  | .inject =>
      if Token.atIdentifier l.afterSpacing then
        if Token.atLineEnd l.afterGap then [l.missingPropertyName] else []
      else [l.missingTypeName]
  | .route _ => []

/-- The mistakes in a line are names that are missing. -/
theorem faults_subset :
    l.faults ⊆ [l.missingTypeName, l.missingPropertyName] := by
  unfold faults
  split
  · split <;> simp
  · split <;> simp
  · split
    · split <;> simp
    · simp
  · simp

/-- All that is wrong with a line is that a name is missing. -/
theorem fault_of_mem_faults
    {l : DirectiveLine} {d : Diagnostic} (h : d ∈ l.faults) :
    d.fault = .missingTypeName ∨ d.fault = .missingPropertyName := by
  have hmem := l.faults_subset h
  simp only [List.mem_cons, List.not_mem_nil, or_false] at hmem
  rcases hmem with rfl | rfl
  · exact Or.inl rfl
  · exact Or.inr rfl

section Faults

variable {l : DirectiveLine}

/-- A base class or a model lacks its type, or nothing. -/
theorem faults_of_baseType (h : l.directive = .inherits ∨ l.directive = .model) :
    l.faults = if Token.atLineEnd l.afterSpacing then [l.missingTypeName] else [] := by
  rcases h with h | h
  · simp only [faults, h]
  · simp only [faults, h]

/-- A property lacks its type, or the name that follows it, or nothing. -/
theorem faults_of_inject (h : l.directive = .inject) :
    l.faults = if Token.atIdentifier l.afterSpacing then
        if Token.atLineEnd l.afterGap then [l.missingPropertyName] else []
      else [l.missingTypeName] := by
  simp only [faults, h]

end Faults

/-- The last span. -/
def argumentSpan (baseType : Text) : Span where
  kind := l.directive.argumentKind
  tokens := l.argument
  start := placeOf l.stop l.argument
  edits := .any
  descriptor := some (l.descriptor baseType)

/-- The spans from the keyword on. -/
def spans (baseType : Text) : List Span :=
  [Span.ofKeyword l.keyword (splitSpace l.tail).1, l.argumentSpan baseType]

/-! ## Lines of a document -/

section Read

variable (d : Directive) (designTime : Bool) (final : Location) (k : Token) (ts : List Token)

/-- The spacing of a line ends where that of the document does. -/
theorem afterSpacing_read :
    (read d designTime final k ts).afterSpacing =
      line designTime (ts.dropWhile (isSpacing false true)) :=
  Token.dropWhile_line Token.staysOnLine_of_isSpacing designTime ts

/-- The type of a line is the type name that stands in the document. -/
theorem typeName_read :
    (read d designTime final k ts).typeName =
      (ts.dropWhile (isSpacing false true)).take
        (TypeName.length (ts.dropWhile (isSpacing false true))) := by
  rw [typeName, afterSpacing_read, TypeName.take_length_line]

theorem afterType_read :
    (read d designTime final k ts).afterType =
      line designTime ((ts.dropWhile (isSpacing false true)).drop
        (TypeName.length (ts.dropWhile (isSpacing false true)))) := by
  rw [afterType, afterSpacing_read, TypeName.drop_length_line]

theorem afterGap_read :
    (read d designTime final k ts).afterGap =
      line designTime (((ts.dropWhile (isSpacing false true)).drop
        (TypeName.length (ts.dropWhile (isSpacing false true)))).dropWhile
          (isSpacing false true)) := by
  rw [afterGap, afterType_read, Token.dropWhile_line Token.staysOnLine_of_isSpacing]

/-- The property is the rest of the line behind the type and its gap. -/
theorem property_read :
    (read d designTime final k ts).property =
      (((ts.dropWhile (isSpacing false true)).drop
        (TypeName.length (ts.dropWhile (isSpacing false true)))).dropWhile
          (isSpacing false true)).takeWhile staysOnLine := by
  rw [property, afterGap_read, Token.takeWhile_staysOnLine_line]

/-- The place after the keyword is that of what follows it in the document. -/
theorem place_read :
    (read d designTime final k ts).place = placeOf final ts :=
  Token.placeOf_line designTime final ts

/-- A type is missing where the spacing ends. -/
theorem missingTypeName_read :
    (read d designTime final k ts).missingTypeName =
      ⟨placeOf final (ts.dropWhile (isSpacing false true)), .missingTypeName, d.keyword⟩ := by
  have hstop : (read d designTime final k ts).stop =
      placeOf final (afterLine designTime (ts.dropWhile (isSpacing false true))) := by
    rw [Token.afterLine_dropWhile Token.staysOnLine_of_isSpacing]
    rfl
  rw [missingTypeName, afterSpacing_read, hstop, Token.placeOf_line]
  rfl

/-- A property is missing where the type ends. -/
theorem missingPropertyName_read :
    (read d designTime final k ts).missingPropertyName =
      ⟨placeOf final ((ts.dropWhile (isSpacing false true)).drop
        (TypeName.length (ts.dropWhile (isSpacing false true)))),
          .missingPropertyName, d.keyword⟩ := by
  have hstop : (read d designTime final k ts).stop =
      placeOf final (afterLine designTime ((ts.dropWhile (isSpacing false true)).drop
        (TypeName.length (ts.dropWhile (isSpacing false true))))) := by
    rw [TypeName.afterLine_drop_length, Token.afterLine_dropWhile Token.staysOnLine_of_isSpacing]
    rfl
  rw [missingPropertyName, afterType_read, hstop, Token.placeOf_line]
  rfl

/-- The mistakes of a line do not depend on what becomes of its line end. -/
theorem faults_read :
    (read d designTime final k ts).faults = (read d true final k ts).faults := by
  unfold faults
  simp only [missingTypeName_read, missingPropertyName_read, afterSpacing_read, afterGap_read,
    Token.atLineEnd_line, Token.atIdentifier_line]
  rfl

end Read

end DirectiveLine
end PageTemplate
