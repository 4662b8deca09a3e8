import PageTemplate.Proofs.Token.LongestMatch
import PageTemplate.Proofs.TypeName.Grammar

/-!
# Type names as they are written

The rules of type names hold of texts as they hold of tokens.  A text that is derived from
them is cut into tokens that are derived from them too, wherever it stands, unless what
follows goes on with its last identifier.

    Type      = Name Suffix | Name '<' Spaces Arguments Spaces '>' Suffix
    Arguments = Type | Type Spaces ',' Spaces Arguments
    Name      = Word ('.' Word)*
    Suffix    = ['?'] ('[' ']')*
    Word      = Start Part*
    Spaces    = (' ' | tab)*

**Input.**  A text that is derived from the rules, and any text behind it.

**Algorithm.**  Each word, each run of spaces and each mark is one token, since it ends where
the next one starts.

**Results.**
* `CutsInto.append`: texts one behind the other, of which the first is not gone on with.
* `cutsInto_written`: a text of the rules is cut into tokens of the rules.
* `Written.trim_eq`: a type name has no blanks at its ends.
-/

namespace PageTemplate

namespace Text

/-- Whether the text starts with no character that `p` goes over. -/
def Stops (p : Char → Bool) (t : Text) : Prop :=
  ∀ c, t.head? = some c → p c = false

variable {p : Char → Bool} {s t : Text}

theorem stops_nil :
    Stops p [] := by
  intro c hc
  cases hc

theorem stops_cons {c : Char} (h : p c = false) (t : Text) :
    Stops p (c :: t) := by
  intro d hd
  cases hd
  exact h

theorem Stops.append (hs : Stops p s) (ht : Stops p t) :
    Stops p (s ++ t) := by
  cases s with
  | nil => exact ht
  | cons c s => exact stops_cons (hs c rfl) _

end Text

open Text (Stops stops_nil stops_cons)
open Token (tokensFrom isIdentifierStart isIdentifierPart isSpaceOrTab punctuation)

namespace TypeName

/-! ## The rules -/

/-- Whether the text is an identifier. -/
inductive IsWord : Text → Prop
  | letters {c : Char} {t : Text} (hc : isIdentifierStart c = true)
      (ht : ∀ d ∈ t, isIdentifierPart d = true) : IsWord (c :: t)

/-- Whether the text has nothing but spaces and tabs. -/
def AllSpaces (t : Text) : Prop :=
  ∀ c ∈ t, isSpaceOrTab c = true

/-- A word is decided by its first character and by all of them. -/
theorem isWord_iff (t : Text) :
    IsWord t ↔ t.head?.any isIdentifierStart = true ∧ t.all isIdentifierPart = true := by
  constructor
  · rintro ⟨hc, ht⟩
    exact ⟨hc, List.all_eq_true.mpr (List.forall_mem_cons.mpr
      ⟨Token.isIdentifierPart_of_isIdentifierStart hc, ht⟩)⟩
  · rintro ⟨hstart, hpart⟩
    cases t with
    | nil =>
        cases hstart
    | cons c t =>
        exact .letters hstart (List.forall_mem_cons.mp (List.all_eq_true.mp hpart)).2

/-- ASCII letters with digits behind the first one make an identifier. -/
theorem IsWord.of_ascii
    {c : Char} {t : Text} (hc : c.isAlpha = true) (ht : ∀ d ∈ t, d.isAlphanum = true) :
    IsWord (c :: t) := by
  refine .letters ?_ ?_
  · simp [isIdentifierStart, Text.isLetter_of_isAlpha c hc]
  · intro d hd
    rcases (Bool.or_eq_true _ _).mp (ht d hd) with halpha | hdigit
    · simp [isIdentifierPart, Text.isLetterOrNumeral, Text.isLetter_of_isAlpha d halpha]
    · simp [isIdentifierPart, Text.isLetterOrNumeral, Text.isNumeral_of_isDigit d hdigit]

instance (t : Text) : Decidable (IsWord t) :=
  decidable_of_iff _ (isWord_iff t).symm

instance (t : Text) : Decidable (AllSpaces t) :=
  decidable_of_iff (t.all isSpaceOrTab = true) List.all_eq_true

/-- Any number of identifiers, each behind a dot. -/
inductive WrittenMembers : Text → Prop
  | none : WrittenMembers []
  | more {word members : Text} (hword : IsWord word) (hmembers : WrittenMembers members) :
      WrittenMembers ('.' :: (word ++ members))

/-- Any number of `[]`. -/
inductive WrittenArrays : Text → Prop
  | none : WrittenArrays []
  | more {arrays : Text} (harrays : WrittenArrays arrays) :
      WrittenArrays ('[' :: ']' :: arrays)

/-- Whether the text is an identifier and further ones joined to it by dots. -/
inductive WrittenName : Text → Prop
  | dotted {word members : Text} (hword : IsWord word) (hmembers : WrittenMembers members) :
      WrittenName (word ++ members)

/-- Whether the text is an optional `?` and any number of `[]`. -/
inductive WrittenSuffix : Text → Prop
  | arrays {t : Text} (ht : WrittenArrays t) : WrittenSuffix t
  | nullable {t : Text} (ht : WrittenArrays t) : WrittenSuffix ('?' :: t)

/-- Whether the text can be derived from a part of the grammar. -/
inductive Written : Part → Text → Prop
  | plain {name suffix : Text} (hname : WrittenName name) (hsuffix : WrittenSuffix suffix) :
      Written .type (name ++ suffix)
  | applied {name before arguments after suffix : Text}
      (hname : WrittenName name) (hbefore : AllSpaces before)
      (harguments : Written .arguments arguments) (hafter : AllSpaces after)
      (hsuffix : WrittenSuffix suffix) :
      Written .type (name ++ '<' :: (before ++ (arguments ++ (after ++ '>' :: suffix))))
  | last {argument : Text} (hargument : Written .type argument) :
      Written .arguments argument
  | more {argument before after arguments : Text}
      (hargument : Written .type argument) (hbefore : AllSpaces before)
      (hafter : AllSpaces after) (harguments : Written .arguments arguments) :
      Written .arguments (argument ++ (before ++ ',' :: (after ++ arguments)))

/-! ## Texts that are cut into tokens of one form -/

/-- Whether the text is cut into tokens of the form, wherever it stands and whatever follows
that `p` does not go over. -/
def CutsInto (p : Char → Bool) (form : List Token → Prop) (t : Text) : Prop :=
  ∀ l rest, Stops p rest →
    ∃ ts, form ts ∧ tokensFrom l (t ++ rest) = ts ++ tokensFrom (l.advance t) rest

/-- One token, of the kind and with the content. -/
def Single (kind : TokenKind) (content : Text) (ts : List Token) : Prop :=
  ∃ l, ts = [⟨kind, content, l⟩]

/-- A token of the kind and tokens of the form behind it. -/
def Headed (kind : TokenKind) (form : List Token → Prop) (ts : List Token) : Prop :=
  ∃ t us, ts = t :: us ∧ t.kind = kind ∧ form us

/-- Tokens of the one form and tokens of the other behind them. -/
def Followed (first second : List Token → Prop) (ts : List Token) : Prop :=
  ∃ us vs, ts = us ++ vs ∧ first us ∧ second vs

section CutsInto

variable {p q : Char → Bool} {first second form : List Token → Prop} {s t : Text}

/-- Texts one behind the other are cut one behind the other if the border is not gone over. -/
theorem CutsInto.append (hs : CutsInto p first s) (ht : CutsInto q second t)
    (hborder : ∀ rest, Stops q rest → Stops p (t ++ rest)) :
    CutsInto q (Followed first second) (s ++ t) := by
  intro l rest hrest
  obtain ⟨us, hus, hfirst⟩ := hs l (t ++ rest) (hborder rest hrest)
  obtain ⟨ts, hts, hsecond⟩ := ht (l.advance s) rest hrest
  exact ⟨us ++ ts, ⟨us, ts, rfl, hus, hts⟩, by
    rw [List.append_assoc, hfirst, hsecond, List.append_assoc, Location.advance_append]⟩

/-- Tokens of one form are tokens of a wider one. -/
theorem CutsInto.mono (h : CutsInto p first t) (hform : ∀ ts, first ts → form ts) :
    CutsInto p form t := by
  intro l rest hrest
  obtain ⟨ts, hts, hcut⟩ := h l rest hrest
  exact ⟨ts, hform ts hts, hcut⟩

/-- The tokens that a text is cut into have its characters. -/
theorem CutsInto.textOf (h : CutsInto p form t) :
    CutsInto p (fun ts => form ts ∧ Token.textOf ts = t) t := by
  intro l rest hrest
  obtain ⟨ts, hts, hcut⟩ := h l rest hrest
  have htext := congrArg Token.textOf hcut
  rw [Token.textOf_append, Token.textOf_tokensFrom, Token.textOf_tokensFrom] at htext
  exact ⟨ts, ⟨hts, (List.append_cancel_right htext).symm⟩, hcut⟩

theorem cutsInto_nil (h : form []) :
    CutsInto p form [] := by
  intro l rest _
  exact ⟨[], h, rfl⟩

/-- What fits a kind is one token of the kind. -/
theorem cutsInto_of_fits {kind : TokenKind}
    (h : ∀ rest, Stops p rest → Token.Fits kind t rest) :
    CutsInto p (Single kind t) t := by
  intro l rest hrest
  exact ⟨[⟨kind, t, l⟩], ⟨l, rfl⟩, Token.tokensFrom_append_of_fits (h rest hrest) l⟩

/-- A word is one identifier if nothing goes on with it. -/
theorem cutsInto_word (h : IsWord t) :
    CutsInto isIdentifierPart (Single .identifier t) t := by
  cases h with
  | letters hc ht => exact cutsInto_of_fits (fun _ hrest => .word hc ht hrest)

/-- Spaces and tabs are one token of white space, as long as there is any of them. -/
theorem cutsInto_gap (h : AllSpaces t) (hne : t ≠ []) :
    CutsInto isSpaceOrTab (Single .whiteSpace t) t := by
  cases t with
  | nil => exact absurd rfl hne
  | cons c t => exact cutsInto_of_fits (fun _ hrest => .space h hrest)

/-- No more than one token is cut off a run of spaces. -/
theorem cutsInto_spaces (h : AllSpaces t) :
    CutsInto isSpaceOrTab AllSpacing t := by
  by_cases hne : t = []
  · rw [hne]
    exact cutsInto_nil (by simp [AllSpacing])
  · refine (cutsInto_gap h hne).mono ?_
    rintro _ ⟨l, rfl⟩
    simp [AllSpacing, Token.isSpacing]

/-- A mark is a token in front of everything, and changes nothing about what follows. -/
theorem CutsInto.cons (ht : CutsInto q second t) (c : Char) (kind : TokenKind)
    (h : (c, kind) ∈ punctuation) :
    CutsInto q (Headed kind second) (c :: t) := by
  have hmark : CutsInto (fun _ => false) (Single kind [c]) [c] :=
    cutsInto_of_fits (fun _ _ => .mark h)
  refine (hmark.append ht (fun _ _ _ _ => rfl)).mono ?_
  rintro _ ⟨_, us, rfl, ⟨l, rfl⟩, hus⟩
  exact ⟨_, us, rfl, rfl, hus⟩

end CutsInto

/-! ## Where the parts start -/

/-- Whether the text starts as an identifier does. -/
def StartsWord (t : Text) : Prop :=
  ∃ c s, t = c :: s ∧ isIdentifierStart c = true

section Starts

variable {word members arrays name suffix t : Text}

theorem StartsWord.append (h : StartsWord t) (rest : Text) :
    StartsWord (t ++ rest) := by
  obtain ⟨c, s, rfl, hc⟩ := h
  exact ⟨c, s ++ rest, rfl, hc⟩

theorem StartsWord.stops_spaces (h : StartsWord t) :
    Stops isSpaceOrTab t := by
  obtain ⟨c, s, rfl, hc⟩ := h
  exact stops_cons (Token.isSpaceOrTab_eq_false_of_isIdentifierPart
    (Token.isIdentifierPart_of_isIdentifierStart hc)) s

theorem StartsWord.stops_blank (h : StartsWord t) :
    Stops Text.isBlank t := by
  obtain ⟨c, s, rfl, hc⟩ := h
  exact stops_cons (Token.isBlank_eq_false_of_isIdentifierPart
    (Token.isIdentifierPart_of_isIdentifierStart hc)) s

/-- A word starts with a word. -/
theorem IsWord.startsWord (h : IsWord word) :
    StartsWord word := by
  cases h with
  | letters hc ht => exact ⟨_, _, rfl, hc⟩

theorem WrittenName.startsWord (h : WrittenName name) :
    StartsWord name := by
  cases h with
  | dotted hword hmembers => exact hword.startsWord.append _

/-- Every part of the grammar starts with an identifier. -/
theorem Written.startsWord {part : Part} (h : Written part t) :
    StartsWord t := by
  induction h with
  | plain hname hsuffix => exact hname.startsWord.append _
  | applied hname => exact hname.startsWord.append _
  | last hargument ih => exact ih
  | more hargument hbefore hafter harguments ih => exact ih.append _

/-- No spaces go on with a word, nor does any mark below. -/
theorem AllSpaces.stops_word (h : AllSpaces t) :
    Stops isIdentifierPart t := by
  cases t with
  | nil => exact stops_nil
  | cons c t =>
      have hspace : c = ' ' ∨ c = '\t' := by
        simpa [isSpaceOrTab] using h c List.mem_cons_self
      rcases hspace with rfl | rfl
      · exact stops_cons (by decide) t
      · exact stops_cons (by decide) t

theorem WrittenMembers.stops_word (h : WrittenMembers members) :
    Stops isIdentifierPart members := by
  cases h with
  | none => exact stops_nil
  | more hword hmembers => exact stops_cons (by decide) _

theorem WrittenArrays.stops_word (h : WrittenArrays arrays) :
    Stops isIdentifierPart arrays := by
  cases h with
  | none => exact stops_nil
  | more harrays => exact stops_cons (by decide) _

theorem WrittenSuffix.stops_word (h : WrittenSuffix suffix) :
    Stops isIdentifierPart suffix := by
  cases h with
  | arrays ht => exact ht.stops_word
  | nullable ht => exact stops_cons (by decide) _

end Starts

/-! ## Where the parts end -/

/-- Whether the text has a last character, and it is not blank. -/
def EndsSolid (t : Text) : Prop :=
  ∃ s c, t = s ++ [c] ∧ Text.isBlank c = false

section Ends

variable {word members arrays name suffix s t : Text}

theorem endsSolid_concat {c : Char} (hc : Text.isBlank c = false) (s : Text) :
    EndsSolid (s ++ [c]) :=
  ⟨s, c, rfl, hc⟩

theorem EndsSolid.append_left (h : EndsSolid t) (s : Text) :
    EndsSolid (s ++ t) := by
  obtain ⟨t, c, rfl, hc⟩ := h
  exact ⟨s ++ t, c, (List.append_assoc s t [c]).symm, hc⟩

theorem IsWord.endsSolid (h : IsWord word) :
    EndsSolid word := by
  cases h with
  | @letters c t hc ht =>
      rcases List.eq_nil_or_concat t with rfl | ⟨t, d, rfl⟩
      · exact endsSolid_concat (Token.isBlank_eq_false_of_isIdentifierPart
          (Token.isIdentifierPart_of_isIdentifierStart hc)) []
      · rw [List.concat_eq_append] at ht ⊢
        exact endsSolid_concat (Token.isBlank_eq_false_of_isIdentifierPart
          (ht d (by simp))) (c :: t)

theorem WrittenMembers.endsSolid (h : WrittenMembers members) (hs : EndsSolid s) :
    EndsSolid (s ++ members) := by
  induction h generalizing s with
  | none =>
      rwa [List.append_nil]
  | @more word members hword hmembers ih =>
      have hmember := ih (hword.endsSolid.append_left (s ++ ['.']))
      simpa using hmember

theorem WrittenArrays.endsSolid (h : WrittenArrays arrays) (hs : EndsSolid s) :
    EndsSolid (s ++ arrays) := by
  induction h generalizing s with
  | none =>
      rwa [List.append_nil]
  | more harrays ih =>
      have harray := ih (endsSolid_concat (c := ']') (by decide) (s ++ ['[']))
      simpa using harray

/-- A suffix, if there is any, ends with a mark and not with a blank. -/
theorem WrittenSuffix.endsSolid (h : WrittenSuffix suffix) (hs : EndsSolid s) :
    EndsSolid (s ++ suffix) := by
  cases h with
  | arrays ht =>
      exact ht.endsSolid hs
  | nullable ht =>
      have hmark := ht.endsSolid (endsSolid_concat (c := '?') (by decide) s)
      simpa using hmark

theorem WrittenName.endsSolid (h : WrittenName name) :
    EndsSolid name := by
  cases h with
  | dotted hword hmembers => exact hmembers.endsSolid hword.endsSolid

/-- A text of the rules ends with a character that is not blank. -/
theorem Written.endsSolid {part : Part} (h : Written part t) :
    EndsSolid t := by
  induction h with
  | plain hname hsuffix =>
      exact hsuffix.endsSolid hname.endsSolid
  | @applied name before arguments after suffix hname hbefore harguments hafter hsuffix =>
      have hclosed := hsuffix.endsSolid (endsSolid_concat (c := '>') (by decide)
        (name ++ '<' :: (before ++ (arguments ++ after))))
      simpa using hclosed
  | last hargument ih =>
      exact ih
  | @more argument before after arguments hargument hbefore hafter harguments ih ihmore =>
      have hlast := ihmore.append_left (argument ++ (before ++ ',' :: after))
      simpa using hlast

/-- Nothing is trimmed from a text with a word at its start and no blank at its end. -/
theorem trim_of_startsWord (hstart : StartsWord t) (hend : EndsSolid t) :
    Text.trim t = t := by
  refine Text.trim_of_ends hstart.stops_blank ?_
  obtain ⟨s, d, rfl, hd⟩ := hend
  intro c hc
  rw [List.getLast?_concat, Option.some.injEq] at hc
  rwa [← hc]

theorem IsWord.trim_eq (h : IsWord word) :
    Text.trim word = word :=
  trim_of_startsWord h.startsWord h.endsSolid

/-- There are no blanks at the ends of a type name. -/
theorem Written.trim_eq {part : Part} (h : Written part t) :
    Text.trim t = t :=
  trim_of_startsWord h.startsWord h.endsSolid

end Ends

/-! ## Type names are cut into their tokens -/

section Written

variable {members arrays name suffix t : Text}

/-- The members of a name are cut into a dot and an identifier each. -/
theorem cutsInto_members (h : WrittenMembers members) :
    CutsInto isIdentifierPart (Pairs .dot .identifier) members := by
  induction h with
  | none =>
      exact cutsInto_nil .none
  | more hword hmembers ih =>
      have hmember := ((cutsInto_word hword).append ih
        (fun _ hrest => hmembers.stops_word.append hrest)).cons '.' .dot (by decide)
      refine hmember.mono ?_
      rintro _ ⟨dot, _, rfl, hdot, ⟨_, us, rfl, ⟨l, rfl⟩, hus⟩⟩
      exact .more hdot rfl hus

/-- Each `[]` is cut into its two brackets. -/
theorem cutsInto_arrays (h : WrittenArrays arrays) :
    CutsInto isIdentifierPart (Pairs .leftBracket .rightBracket) arrays := by
  induction h with
  | none =>
      exact cutsInto_nil .none
  | more harrays ih =>
      have harray := (ih.cons ']' .rightBracket (by decide)).cons '[' .leftBracket (by decide)
      refine harray.mono ?_
      rintro _ ⟨left, _, rfl, hleft, ⟨right, us, rfl, hright, hus⟩⟩
      exact .more hleft hright hus

/-- A written name is cut into the tokens of a name. -/
theorem cutsInto_name (h : WrittenName name) :
    CutsInto isIdentifierPart IsName name := by
  cases h with
  | dotted hword hmembers =>
      refine ((cutsInto_word hword).append (cutsInto_members hmembers)
        (fun _ hrest => hmembers.stops_word.append hrest)).mono ?_
      rintro _ ⟨_, us, rfl, ⟨l, rfl⟩, hus⟩
      exact .dotted rfl hus

/-- A written suffix is cut into the tokens of a suffix. -/
theorem cutsInto_suffix (h : WrittenSuffix suffix) :
    CutsInto isIdentifierPart IsSuffix suffix := by
  cases h with
  | arrays ht =>
      exact (cutsInto_arrays ht).mono (fun _ hts => .arrays hts)
  | nullable ht =>
      refine ((cutsInto_arrays ht).cons '?' .questionMark (by decide)).mono ?_
      rintro _ ⟨mark, us, rfl, hmark, hus⟩
      exact .nullable hmark hus

/-- A text of the rules is cut into tokens of the rules, in front of all that does not go on
with an identifier. -/
theorem cutsInto_written {part : Part} (h : Written part t) :
    CutsInto isIdentifierPart (Derives part) t := by
  induction h with
  | plain hname hsuffix =>
      refine ((cutsInto_name hname).append (cutsInto_suffix hsuffix)
        (fun _ hrest => hsuffix.stops_word.append hrest)).mono ?_
      rintro _ ⟨_, _, rfl, hname, hsuffix⟩
      exact .plain hname hsuffix
  | @applied name before arguments after suffix hname hbefore harguments hafter hsuffix ih =>
      -- From the end on, since a piece is cut off only if the next one does not go on with it.
      have hclose : CutsInto isIdentifierPart _ ('>' :: suffix) :=
        (cutsInto_suffix hsuffix).cons '>' .greaterThan (by decide)
      have hgap : CutsInto isIdentifierPart _ (after ++ '>' :: suffix) :=
        (cutsInto_spaces hafter).append hclose (fun _ _ => stops_cons (by decide) _)
      have hinside : CutsInto isIdentifierPart _ (arguments ++ (after ++ '>' :: suffix)) :=
        ih.append hgap (fun rest _ => by
          rw [List.append_assoc]
          exact hafter.stops_word.append (stops_cons (by decide) _))
      have hopen : CutsInto isIdentifierPart _
          ('<' :: (before ++ (arguments ++ (after ++ '>' :: suffix)))) :=
        ((cutsInto_spaces hbefore).append hinside (fun rest _ => by
          rw [List.append_assoc]
          exact (harguments.startsWord.append _).stops_spaces)).cons '<' .lessThan (by decide)
      refine ((cutsInto_name hname).append hopen (fun _ _ => stops_cons (by decide) _)).mono ?_
      rintro _ ⟨_, _, rfl, hname, ⟨less, _, rfl, hless, ⟨_, _, rfl, hbefore,
        ⟨_, _, rfl, harguments, ⟨_, _, rfl, hafter, ⟨greater, _, rfl, hgreater, hsuffix⟩⟩⟩⟩⟩⟩
      exact .applied hname hless hbefore harguments hafter hgreater hsuffix
  | last hargument ih =>
      exact ih.mono (fun _ hts => .last hts)
  | @more argument before after arguments hargument hbefore hafter harguments ih ihmore =>
      have hnext : CutsInto isIdentifierPart _ (',' :: (after ++ arguments)) :=
        ((cutsInto_spaces hafter).append ihmore
          (fun rest _ => (harguments.startsWord.append rest).stops_spaces)).cons ',' .comma (by decide)
      have hgap : CutsInto isIdentifierPart _ (before ++ ',' :: (after ++ arguments)) :=
        (cutsInto_spaces hbefore).append hnext (fun _ _ => stops_cons (by decide) _)
      refine (ih.append hgap (fun rest _ => by
        rw [List.append_assoc]
        exact hbefore.stops_word.append (stops_cons (by decide) _))).mono ?_
      rintro _ ⟨_, _, rfl, hargument, ⟨_, _, rfl, hbefore, ⟨comma, _, rfl, hcomma,
        ⟨_, _, rfl, hafter, harguments⟩⟩⟩⟩
      exact .more hargument hbefore hcomma hafter harguments

end Written

end TypeName
end PageTemplate
