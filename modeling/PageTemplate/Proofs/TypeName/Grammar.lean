import PageTemplate.Proofs.TypeName.Recursion

/-!
# The grammar of type names

What is written as a type name should be is taken as a whole, and nothing after it.

    Type      = Name Suffix | Name '<' Spacing Arguments Spacing '>' Suffix
    Arguments = Type | Type Spacing ',' Spacing Arguments
    Name      = Identifier ('.' Identifier)*
    Suffix    = ['?'] ('[' ']')*
    Spacing   = (WhiteSpace | Comment)*

**Input.**  The tokens of a type name, and further tokens that do not lengthen it.

**Results.**
* `pastName_append`, `pastSuffix_append`, `pastSpacing_append`: the parts of a type name are
  passed as wholes.
* `passes_of_derives`: so are types, and the arguments of a list.
* `acceptTypeName_of_derives`: a type name at the cursor is taken and given back.
-/

namespace PageTemplate
namespace TypeName

/-! ## The rules -/

/-- Pairs of neighbours of the kinds `a` and `b`. -/
inductive Pairs (a b : TokenKind) : List Token → Prop
  | none : Pairs a b []
  | more {s t : Token} {ts : List Token} (hs : s.kind = a) (ht : t.kind = b)
      (hts : Pairs a b ts) : Pairs a b (s :: t :: ts)

/-- Whether the tokens are an identifier and further ones joined to it by dots. -/
inductive IsName : List Token → Prop
  | dotted {t : Token} {ts : List Token} (ht : t.kind = .identifier)
      (hts : Pairs .dot .identifier ts) : IsName (t :: ts)

/-- Whether the tokens are an optional `?` and any number of `[]`. -/
inductive IsSuffix : List Token → Prop
  | arrays {ts : List Token} (hts : Pairs .leftBracket .rightBracket ts) : IsSuffix ts
  | nullable {t : Token} {ts : List Token} (ht : t.kind = .questionMark)
      (hts : Pairs .leftBracket .rightBracket ts) : IsSuffix (t :: ts)

/-- Whether the tokens are white space and comments. -/
def AllSpacing (ts : List Token) : Prop :=
  ∀ t ∈ ts, Token.isSpacing false true t = true

/-- What the rules derive lists of tokens from. -/
inductive Part
  /-- A type name. -/
  | type
  /-- The arguments of a list, with the commas between them. -/
  | arguments
  deriving DecidableEq, Repr

/-- Whether the tokens can be derived from a part of the grammar. -/
inductive Derives : Part → List Token → Prop
  | plain {name suffix : List Token} (hname : IsName name) (hsuffix : IsSuffix suffix) :
      Derives .type (name ++ suffix)
  | applied {name before arguments after suffix : List Token} {less greater : Token}
      (hname : IsName name) (hless : less.kind = .lessThan)
      (hbefore : AllSpacing before) (harguments : Derives .arguments arguments)
      (hafter : AllSpacing after) (hgreater : greater.kind = .greaterThan)
      (hsuffix : IsSuffix suffix) :
      Derives .type
        (name ++ less :: (before ++ (arguments ++ (after ++ greater :: suffix))))
  | last {argument : List Token} (hargument : Derives .type argument) :
      Derives .arguments argument
  | more {argument before after arguments : List Token} {comma : Token}
      (hargument : Derives .type argument) (hbefore : AllSpacing before)
      (hcomma : comma.kind = .comma) (hafter : AllSpacing after)
      (harguments : Derives .arguments arguments) :
      Derives .arguments (argument ++ (before ++ comma :: (after ++ arguments)))

/-- Whether no type name is made longer by the tokens after it. -/
def EndsTypeName (rest : List Token) : Prop :=
  ∀ t, rest.head? = some t →
    t.kind ≠ .dot ∧ t.kind ≠ .lessThan ∧ t.kind ≠ .questionMark ∧ t.kind ≠ .leftBracket

/-! ## Parts passed as wholes -/

theorem startsWith_cons (kind : TokenKind) (t : Token) (ts : List Token) :
    startsWith kind (t :: ts) = decide (t.kind = kind) := rfl

theorem past_cons_of_kind {kind : TokenKind} {t : Token} (h : t.kind = kind) (ts : List Token) :
    past kind (t :: ts) = ts := by
  simp [past, startsWith_cons, h]

theorem past_of_not_startsWith {kind : TokenKind} {ts : List Token}
    (h : startsWith kind ts = false) :
    past kind ts = ts := by
  simp [past, h]

theorem pastPairs_of_not_startsWith (a b : TokenKind) :
    ∀ {ts : List Token}, startsWith a ts = false → pastPairs a b ts = ts
  | [], _ => rfl
  | [_], _ => rfl
  | s :: t :: ts, h => by
      have hs : s.kind ≠ a := by simpa [startsWith_cons] using h
      simp [pastPairs, hs]

/-- A run of pairs is passed as a whole if what follows starts no further pair. -/
theorem pastPairs_append {a b : TokenKind} {ts rest : List Token}
    (hts : Pairs a b ts) (hrest : startsWith a rest = false) :
    pastPairs a b (ts ++ rest) = rest := by
  induction hts with
  | none =>
      exact pastPairs_of_not_startsWith a b hrest
  | more hs ht hts ih =>
      simpa [pastPairs, hs, ht] using ih

/-- A name is passed as a whole if no dot follows. -/
theorem pastName_append {name rest : List Token}
    (hname : IsName name) (hrest : startsWith .dot rest = false) :
    pastName (name ++ rest) = rest := by
  cases hname with
  | dotted ht hts => exact pastPairs_append hts hrest

theorem startsWith_of_isName {name : List Token} (hname : IsName name) (rest : List Token) :
    startsWith .identifier (name ++ rest) = true := by
  cases hname with
  | dotted ht hts => simp [startsWith_cons, ht]

theorem AllSpacing.head_ne {ts : List Token} (h : AllSpacing ts) {t : Token}
    (ht : ts.head? = some t) : t.kind = .whiteSpace ∨ t.kind = .comment :=
  Token.kind_of_isSpacing (h t (List.mem_of_mem_head? ht))

/-- All spacing is passed, with more of it that may follow. -/
theorem pastSpacing_append {spacing rest : List Token} (h : AllSpacing spacing) :
    pastSpacing (spacing ++ rest) = pastSpacing rest :=
  List.dropWhile_append_of_pos h

theorem pastSpacing_of_startsWith (kind : TokenKind)
    (hkind : kind ≠ .whiteSpace ∧ kind ≠ .comment) {ts : List Token}
    (h : startsWith kind ts = true) :
    pastSpacing ts = ts := by
  cases ts with
  | nil =>
      rfl
  | cons t ts =>
      have ht : t.kind = kind := by simpa [startsWith_cons] using h
      refine List.dropWhile_cons_of_neg ?_
      intro hspacing
      rcases Token.kind_of_isSpacing hspacing with hwhite | hcomment
      · exact hkind.1 (ht ▸ hwhite)
      · exact hkind.2 (ht ▸ hcomment)

section Ends

variable {rest : List Token}

theorem endsTypeName_cons {t : Token}
    (h : t.kind ≠ .dot ∧ t.kind ≠ .lessThan ∧ t.kind ≠ .questionMark ∧ t.kind ≠ .leftBracket) :
    EndsTypeName (t :: rest) := by
  intro u hu
  obtain rfl : t = u := by simpa using hu
  exact h

/-- What ends a type name starts with none of the four marks that would lengthen it. -/
theorem EndsTypeName.startsWith_eq_false (h : EndsTypeName rest) :
    startsWith .dot rest = false ∧ startsWith .lessThan rest = false ∧
      startsWith .questionMark rest = false ∧ startsWith .leftBracket rest = false := by
  cases rest with
  | nil =>
      exact ⟨rfl, rfl, rfl, rfl⟩
  | cons t rest =>
      simpa [startsWith_cons] using h t rfl

/-- Spacing in between does not lengthen a type name. -/
theorem AllSpacing.endsTypeName {spacing : List Token} (hspacing : AllSpacing spacing)
    (h : EndsTypeName rest) :
    EndsTypeName (spacing ++ rest) := by
  cases spacing with
  | nil =>
      exact h
  | cons t spacing =>
      refine endsTypeName_cons ?_
      rcases hspacing.head_ne rfl with hkind | hkind <;> simp [hkind]

/-- A suffix is passed as a whole if the type name ends with it. -/
theorem pastSuffix_append {suffix : List Token}
    (hsuffix : IsSuffix suffix) (h : EndsTypeName rest) :
    pastSuffix (suffix ++ rest) = rest := by
  obtain ⟨-, -, hmark, hbracket⟩ := h.startsWith_eq_false
  cases hsuffix with
  | nullable ht hts =>
      rw [pastSuffix, List.cons_append, past_cons_of_kind ht, pastPairs_append hts hbracket]
  | arrays hts =>
      have hstart : startsWith .questionMark (suffix ++ rest) = false := by
        cases hts with
        | none => exact hmark
        | more hs ht hts => simp [startsWith_cons, hs]
      rw [pastSuffix, past_of_not_startsWith hstart, pastPairs_append hts hbracket]

/-- No suffix lengthens a name or opens a list. -/
theorem startsWith_suffix {suffix : List Token}
    (hsuffix : IsSuffix suffix) (h : EndsTypeName rest) :
    startsWith .dot (suffix ++ rest) = false ∧ startsWith .lessThan (suffix ++ rest) = false := by
  obtain ⟨hdot, hless, -, -⟩ := h.startsWith_eq_false
  cases hsuffix with
  | nullable ht hts =>
      simp [startsWith_cons, ht]
  | arrays hts =>
      cases hts with
      | none => exact ⟨hdot, hless⟩
      | more hs ht hts => simp [startsWith_cons, hs]

end Ends

/-! ## Types and arguments passed as wholes -/

/-- All that the rules derive starts with an identifier. -/
theorem startsWith_of_derives {part : Part} {ts : List Token} (h : Derives part ts)
    (rest : List Token) :
    startsWith .identifier (ts ++ rest) = true := by
  induction h generalizing rest with
  | plain hname hsuffix =>
      rw [List.append_assoc]
      exact startsWith_of_isName hname _
  | applied hname =>
      rw [List.append_assoc]
      exact startsWith_of_isName hname _
  | last hargument ih =>
      exact ih rest
  | more hargument hbefore hcomma hafter harguments ih =>
      rw [List.append_assoc]
      exact ih _

/-- What is derived from a part of the grammar is passed by the procedure that reads it. -/
def Passes : Part → List Token → Prop
  | .type, ts => ∀ rest, EndsTypeName rest → afterType? (ts ++ rest) = some rest
  | .arguments, ts => ∀ rest, EndsTypeName rest →
      startsWith .comma (pastSpacing rest) = false →
        afterArguments (ts ++ rest) = pastSpacing rest

section Passes

variable {name before argument arguments after suffix : List Token} {less comma greater : Token}

/-- A name with its suffix is passed as a type. -/
theorem passes_plain (hname : IsName name) (hsuffix : IsSuffix suffix) :
    Passes .type (name ++ suffix) := by
  intro rest hrest
  obtain ⟨hdot, hless⟩ := startsWith_suffix hsuffix hrest
  have hpast : pastName (name ++ (suffix ++ rest)) = suffix ++ rest :=
    pastName_append hname hdot
  rw [List.append_assoc, afterType?_of_name (startsWith_of_isName hname _)
    (by rw [hpast, hless]), hpast, pastSuffix_append hsuffix hrest]

/-- From the arguments of a list the procedure comes to its `>`. -/
theorem afterArguments_of_passes (harguments : Derives .arguments arguments)
    (hpasses : Passes .arguments arguments) (hbefore : AllSpacing before)
    (hafter : AllSpacing after) (hgreater : greater.kind = .greaterThan) (rest : List Token) :
    afterArguments (pastSpacing (before ++ (arguments ++ (after ++ greater :: rest)))) =
      greater :: rest := by
  have hends : EndsTypeName (after ++ greater :: rest) :=
    hafter.endsTypeName (endsTypeName_cons (by simp [hgreater]))
  have hgap : pastSpacing (after ++ greater :: rest) = greater :: rest := by
    rw [pastSpacing_append hafter]
    exact pastSpacing_of_startsWith .greaterThan (by decide)
      (by simp [startsWith_cons, hgreater])
  have hlast : startsWith .comma (pastSpacing (after ++ greater :: rest)) = false := by
    simp [hgap, startsWith_cons, hgreater]
  -- The spacing before the arguments ends with it, since they start with an identifier.
  rw [pastSpacing_append hbefore, pastSpacing_of_startsWith .identifier (by decide)
    (startsWith_of_derives harguments _), hpasses _ hends hlast, hgap]

/-- A name with a list of arguments is passed as a type if the arguments are passed. -/
theorem passes_applied (hname : IsName name) (hless : less.kind = .lessThan)
    (hbefore : AllSpacing before) (harguments : Derives .arguments arguments)
    (hpasses : Passes .arguments arguments) (hafter : AllSpacing after)
    (hgreater : greater.kind = .greaterThan) (hsuffix : IsSuffix suffix) :
    Passes .type
      (name ++ less :: (before ++ (arguments ++ (after ++ greater :: suffix)))) := by
  intro rest hrest
  let inside := before ++ (arguments ++ (after ++ greater :: (suffix ++ rest)))
  have hpast : pastName (name ++ less :: inside) = less :: inside :=
    pastName_append hname (by simp [startsWith_cons, hless])
  have hclosed : afterArguments (pastSpacing inside) = greater :: (suffix ++ rest) :=
    afterArguments_of_passes harguments hpasses hbefore hafter hgreater _
  calc
    afterType? (name ++ less :: (before ++ (arguments ++ (after ++ greater :: suffix))) ++ rest)
        = afterType? (name ++ less :: inside) := by simp [inside]
    _ = some (pastSuffix (past .greaterThan (afterArguments (pastSpacing inside)))) := by
          rw [afterType?_of_lessThan (startsWith_of_isName hname _)
            (by simp [hpast, startsWith_cons, hless]), hpast, List.tail_cons]
    _ = some rest := by
          rw [hclosed, past_cons_of_kind hgreater, pastSuffix_append hsuffix hrest]

/-- An argument that is passed as a type is passed as the last one of a list. -/
theorem passes_last (hpasses : Passes .type argument) :
    Passes .arguments argument := by
  intro rest hrest hlast
  exact afterArguments_of_last (hpasses rest hrest) hlast

/-- An argument and a comma are passed before arguments that are. -/
theorem passes_more (hpasses : Passes .type argument) (hbefore : AllSpacing before)
    (hcomma : comma.kind = .comma) (hafter : AllSpacing after)
    (harguments : Derives .arguments arguments) (hmore : Passes .arguments arguments) :
    Passes .arguments (argument ++ (before ++ comma :: (after ++ arguments))) := by
  intro rest hrest hlast
  let next := after ++ (arguments ++ rest)
  have hends : EndsTypeName (before ++ comma :: next) :=
    hbefore.endsTypeName (endsTypeName_cons (by simp [hcomma]))
  have hgap : pastSpacing (before ++ comma :: next) = comma :: next := by
    rw [pastSpacing_append hbefore]
    exact pastSpacing_of_startsWith .comma (by decide)
      (by simp [startsWith_cons, hcomma])
  have hnext : pastSpacing next = arguments ++ rest := by
    rw [pastSpacing_append hafter]
    exact pastSpacing_of_startsWith .identifier (by decide)
      (startsWith_of_derives harguments rest)
  calc
    afterArguments (argument ++ (before ++ comma :: (after ++ arguments)) ++ rest)
        = afterArguments (argument ++ (before ++ comma :: next)) := by simp [next]
    _ = afterArguments (pastSpacing next) := by
          rw [afterArguments_of_comma (hpasses _ hends)
            (by simp [hgap, startsWith_cons, hcomma]), hgap, List.tail_cons]
    _ = pastSpacing rest := by
          rw [hnext, hmore rest hrest hlast]

end Passes

/-- Types and arguments are passed as wholes, by induction on their derivation. -/
theorem passes_of_derives {part : Part} {ts : List Token} (h : Derives part ts) :
    Passes part ts := by
  induction h with
  | plain hname hsuffix =>
      exact passes_plain hname hsuffix
  | applied hname hless hbefore harguments hafter hgreater hsuffix ih =>
      exact passes_applied hname hless hbefore harguments ih hafter hgreater hsuffix
  | last hargument ih =>
      exact passes_last ih
  | more hargument hbefore hcomma hafter harguments ih ihmore =>
      exact passes_more ih hbefore hcomma hafter harguments ihmore

end TypeName

namespace Slicer

open Token (textOf)
open PageTemplate.TypeName (AllSpacing Derives EndsTypeName IsName IsSuffix)

/-- A type name at the cursor is given back and moved into the draft, and the cursor comes to
what follows it. -/
theorem acceptTypeName_of_derives {s : Slicer} {taken rest : List Token}
    (hcursor : s.cursor.rest = taken ++ rest) (htaken : Derives .type taken)
    (hrest : EndsTypeName rest) :
    s.acceptTypeName =
        (textOf taken,
          { s with
            cursor := s.cursor.move taken.length
            draft := s.draft.accept taken }) ∧
      s.acceptTypeName.2.cursor.rest = rest := by
  have hafter : TypeName.afterType s.cursor.rest = rest := by
    rw [hcursor, TypeName.afterType, TypeName.passes_of_derives htaken rest hrest]
    rfl
  have hsplit : s.cursor.rest = taken ++ TypeName.afterType s.cursor.rest := by
    rw [hafter, hcursor]
  have haccept := acceptTypeName_of_append hsplit
  rwa [hafter] at haccept

theorem acceptTypeName_of_map :
    let taken : List Token :=
      [⟨.identifier, "Map".toList, ⟨0, 0, 0⟩⟩, ⟨.lessThan, "<".toList, ⟨3, 0, 3⟩⟩,
        ⟨.identifier, "A".toList, ⟨4, 0, 4⟩⟩, ⟨.whiteSpace, " ".toList, ⟨5, 0, 5⟩⟩,
        ⟨.comma, ",".toList, ⟨6, 0, 6⟩⟩, ⟨.identifier, "B".toList, ⟨7, 0, 7⟩⟩,
        ⟨.questionMark, "?".toList, ⟨8, 0, 8⟩⟩, ⟨.greaterThan, ">".toList, ⟨9, 0, 9⟩⟩,
        ⟨.leftBracket, "[".toList, ⟨10, 0, 10⟩⟩, ⟨.rightBracket, "]".toList, ⟨11, 0, 11⟩⟩]
    let rest : List Token :=
      [⟨.whiteSpace, " ".toList, ⟨12, 0, 12⟩⟩, ⟨.identifier, "P".toList, ⟨13, 0, 13⟩⟩]
    Derives .type taken ∧ EndsTypeName rest ∧
      (ofTokens false (taken ++ rest)).acceptTypeName.1 = "Map<A ,B?>[]".toList ∧
      (ofTokens false (taken ++ rest)).acceptTypeName.2.cursor.rest = rest := by
  intro taken rest
  have hname (t : Token) (ht : t.kind = .identifier) : IsName [t] := .dotted ht .none
  have hnone : AllSpacing [] := by simp [AllSpacing]
  have hspace : AllSpacing [⟨.whiteSpace, " ".toList, ⟨5, 0, 5⟩⟩] := by
    simp [AllSpacing, Token.isSpacing]
  have hcomma : (⟨.comma, ",".toList, ⟨6, 0, 6⟩⟩ : Token).kind = .comma := rfl
  have hless : (⟨.lessThan, "<".toList, ⟨3, 0, 3⟩⟩ : Token).kind = .lessThan := rfl
  have hgreater : (⟨.greaterThan, ">".toList, ⟨9, 0, 9⟩⟩ : Token).kind = .greaterThan := rfl
  have hfirst := Derives.plain (hname ⟨.identifier, "A".toList, ⟨4, 0, 4⟩⟩ rfl) (.arrays .none)
  have hmark : IsSuffix [⟨.questionMark, "?".toList, ⟨8, 0, 8⟩⟩] := .nullable rfl .none
  have hsecond := Derives.plain (hname ⟨.identifier, "B".toList, ⟨7, 0, 7⟩⟩ rfl) hmark
  have harguments := Derives.more hfirst hspace hcomma hnone (.last hsecond)
  have harrays : IsSuffix
      [⟨.leftBracket, "[".toList, ⟨10, 0, 10⟩⟩, ⟨.rightBracket, "]".toList, ⟨11, 0, 11⟩⟩] :=
    .arrays (.more rfl rfl .none)
  have htaken : Derives .type taken :=
    Derives.applied (hname _ rfl) hless hnone harguments hnone hgreater harrays
  have hrest : EndsTypeName rest :=
    TypeName.endsTypeName_cons (by decide)
  obtain ⟨haccept, hleft⟩ :=
    acceptTypeName_of_derives (s := ofTokens false (taken ++ rest)) rfl htaken hrest
  exact ⟨htaken, hrest, (congrArg Prod.fst haccept).trans (by decide), hleft⟩

end Slicer
end PageTemplate
