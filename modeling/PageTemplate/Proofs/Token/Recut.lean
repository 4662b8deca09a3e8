import PageTemplate.Proofs.Token.LongestMatch
import PageTemplate.Proofs.Token.Line
import PageTemplate.Proofs.Text.Trimming

/-!
# The tokens of a piece of a text

A piece of a text that starts and ends where tokens do can be cut into tokens on its own.  They
are those that it had in the text, up to their places, but for one exception.  A carriage return
at the end of a line comment belongs to the comment if the line end after it has one of its own;
at the end of a piece it is taken for the start of a line end, and so left out of the comment.

**Input.**  Tokens that stand side by side in a text.

**Results.**
* `Fits.of_append`, `Fits.at_end`: what fits in front of a text fits in front of the start of it.
* `recut_tokensFrom`: a piece has the tokens it had in the text, up to its last carriage return.
* `Recut.take`, `Recut.drop`, `Recut.takeWhile`, `Recut.dropWhile`: so have the parts of it.
* `Recut.trim_textOf`: trimmed, its parts read the same.
* `Recut.afterLine_eq_nil`: if it is one line in the text, it is one line on its own.
-/

namespace PageTemplate
namespace Token

open Text (AllBlank trim)

/-! ## What fits at the end of a piece -/

theorem StopsLine.of_append
    {t rest more : Text} (h : StopsLine t (rest ++ more)) (hne : rest ≠ []) :
    StopsLine t rest := by
  obtain ⟨c, rest, rfl⟩ := List.exists_cons_of_ne_nil hne
  obtain ⟨after, hafter⟩ : ∃ after, after = c :: rest ++ more := ⟨_, rfl⟩
  rw [← hafter] at h
  cases h with
  | plain hlast hrest =>
      refine .plain hlast (Or.inr ?_)
      rcases hrest with rfl | hhead
      · cases hafter
      · rwa [hafter] at hhead
  | carriageReturn hrest =>
      obtain ⟨rfl, rfl⟩ := List.cons.inj hafter
      refine .carriageReturn ?_
      cases rest with
      | nil => exact Or.inl rfl
      | cons d rest => exact Or.inr (hrest.resolve_left (List.cons_ne_nil _ _))

/-- What fits in front of a text fits in front of the start of it. -/
theorem Fits.of_append
    {kind : TokenKind} {t rest more : Text} (h : Fits kind t (rest ++ more)) (hne : rest ≠ []) :
    Fits kind t rest := by
  have hhead : (rest ++ more).head? = rest.head? := by
    obtain ⟨c, rest, rfl⟩ := List.exists_cons_of_ne_nil hne
    rfl
  have hsome : rest ++ more ≠ [] := List.append_ne_nil_of_left_ne_nil hne more
  obtain ⟨after, hafter⟩ : ∃ after, after = rest ++ more := ⟨_, rfl⟩
  rw [← hafter] at h hhead hsome
  cases h with
  | word hc hpart hstop => exact .word hc hpart (by rwa [hhead] at hstop)
  | space hspace hstop => exact .space hspace (by rwa [hhead] at hstop)
  | lineFeed => exact .lineFeed
  | carriageReturn => exact .carriageReturn
  | lineComment hline hstop => exact .lineComment hline (StopsLine.of_append (hafter ▸ hstop) hne)
  | blockComment hclose => exact .blockComment hclose
  | openComment => exact absurd rfl hsome
  | literal hopen hquote => exact .literal hopen hquote
  | openLiteral hopen hend =>
      rw [hhead] at hend
      exact .openLiteral hopen (Or.inr (hend.resolve_left hsome))
  | mark hmark => exact .mark hmark
  | other hnone =>
      obtain ⟨hfeed, hreturn, hspace, hcomment, hliteral, hmark, hword⟩ := hnone
      rw [hhead] at hreturn hcomment
      exact .other ⟨hfeed, hreturn, hspace, hcomment, hliteral, hmark, hword⟩

/-- What fits in front of a text fits at the end, or else is a line comment with a carriage
return that it does not keep there. -/
theorem Fits.at_end
    {kind : TokenKind} {t more : Text} (h : Fits kind t more) :
    Fits kind t [] ∨
      kind = .comment ∧ ∃ kept, t = kept ++ ['\r'] ∧ Fits .comment kept ['\r'] := by
  cases h with
  | word hc hpart => exact Or.inl (.word hc hpart (by simp))
  | space hspace => exact Or.inl (.space hspace (by simp))
  | lineFeed => exact Or.inl .lineFeed
  | carriageReturn => exact Or.inl .carriageReturn
  | @lineComment t _ hline =>
      by_cases hlast : t.getLast? = some '\r'
      · obtain ⟨kept, rfl⟩ := List.getLast?_eq_some_iff.mp hlast
        have hkept : '\n' ∉ kept := fun hmem => hline (List.mem_append_left _ hmem)
        exact Or.inr ⟨rfl, '/' :: '/' :: kept, rfl,
          .lineComment hkept (.carriageReturn (Or.inl rfl))⟩
      · exact Or.inl (.lineComment hline (.plain hlast (Or.inl rfl)))
  | blockComment hclose => exact Or.inl (.blockComment hclose)
  | openComment hopen => exact Or.inl (.openComment hopen)
  | literal hopen hquote => exact Or.inl (.literal hopen hquote)
  | openLiteral hopen => exact Or.inl (.openLiteral hopen (Or.inl rfl))
  | mark hmark => exact Or.inl (.mark hmark)
  | other hnone =>
      obtain ⟨hfeed, -, hspace, -, hliteral, hmark, hword⟩ := hnone
      exact Or.inl (.other ⟨hfeed, by simp, hspace, by simp, hliteral, hmark, hword⟩)

/-- A carriage return at the end of a text is a token of its own. -/
theorem fits_carriageReturn :
    Fits .other ['\r'] [] :=
  .other ⟨by decide, by simp, by decide, by simp, by decide, by simp [punctuation], by decide⟩

/-! ## Tokens that are the same up to the last carriage return -/

/-- Whether the second tokens are the first ones, at any places, up to a carriage return at the
end: it may be a token of its own, after a comment that ends without it or after anything. -/
inductive Recut : List Token → List Token → Prop
  | nil : Recut [] []
  | carriageReturn {r : Token} (hkind : r.kind = .other) (hcontent : r.content = ['\r']) :
      Recut [] [r]
  | cons {t u : Token} {ts us : List Token} (hkind : t.kind = u.kind)
      (hcontent : t.content = u.content) (hrest : Recut ts us) : Recut (t :: ts) (u :: us)
  | comment {t u : Token} {us : List Token} (ht : t.kind = .comment) (hu : u.kind = .comment)
      (hcontent : t.content = u.content ++ ['\r']) (hrest : Recut [] us) : Recut [t] (u :: us)

/-- A piece has the tokens that it had in the text, up to its last carriage return. -/
theorem recut_tokensFrom
    {l : Location} {text : Text} {before own after : List Token}
    (h : tokensFrom l text = before ++ (own ++ after)) (m : Location) :
    Recut own (tokensFrom m (textOf own)) := by
  induction own generalizing before m with
  | nil =>
      rw [textOf_nil, tokensFrom_nil]
      exact .nil
  | cons t own ih =>
      rw [List.cons_append] at h
      have hfit := fits_of_tokensFrom h
      rw [textOf_append] at hfit
      rw [List.append_cons] at h
      have hrest := ih h (m.advance t.content)
      rw [textOf_cons]
      cases own with
      | cons u own =>
          have hmem : u ∈ tokensFrom l text := by
            rw [h]
            simp
          have hne : textOf (u :: own) ≠ [] := by
            simp [textOf_cons, content_ne_nil_of_mem hmem]
          rw [tokensFrom_append_of_fits (hfit.of_append hne)]
          exact .cons rfl rfl hrest
      | nil =>
          -- The last token is the only one that had other text behind it than it has now.
          rw [textOf_nil, List.append_nil]
          rcases hfit.at_end with hend | ⟨hkind, kept, hcontent, hkept⟩
          · have hone := tokensFrom_append_of_fits hend m
            rw [List.append_nil, tokensFrom_nil] at hone
            rw [hone]
            exact .cons rfl rfl .nil
          · have hreturn := tokensFrom_append_of_fits fits_carriageReturn (m.advance kept)
            rw [List.append_nil, tokensFrom_nil] at hreturn
            rw [hcontent, tokensFrom_append_of_fits hkept, hreturn]
            exact .comment hkind rfl hcontent (.carriageReturn rfl rfl)

/-- In front of a line end with a carriage return of its own a comment keeps one. -/
example :
    (tokensFrom Location.start "//\r\r\n".toList).map content = ["//\r".toList, "\r\n".toList] ∧
      (tokensFrom Location.start "//\r".toList).map content = ["//".toList, "\r".toList] := by
  decide +kernel

/-- Of white space the first character is split off. -/
theorem content_splitSpace_cons (t : Token) (ts : List Token) :
    (splitSpace (t :: ts)).1.map content =
      if t.kind = .whiteSpace then [t.content.take 1] else [] := by
  rcases splitSpace_fst (t :: ts) with hnone | ⟨u, space, hone, hhead, hkind, hcontent⟩
  · rw [hnone, if_neg]
    · rfl
    · intro hkind
      simp only [splitSpace, if_pos hkind] at hnone
      split at hnone <;> cases hnone
  · obtain rfl : t = u := by simpa using hhead
    rw [hone, if_pos hkind, ← hcontent]
    rfl

namespace Recut

/-- After a piece without tokens there is a carriage return or nothing. -/
theorem eq_nil_or_singleton {us : List Token} (h : Recut [] us) :
    us = [] ∨ ∃ r : Token, us = [r] ∧ r.kind = .other ∧ r.content = ['\r'] := by
  cases h with
  | nil => exact Or.inl rfl
  | carriageReturn hkind hcontent => exact Or.inr ⟨_, rfl, hkind, hcontent⟩

variable {ts us : List Token} (h : Recut ts us)
include h

theorem take (n : Nat) :
    Recut (ts.take n) (us.take n) := by
  induction h generalizing n with
  | nil =>
      simpa using Recut.nil
  | carriageReturn hkind hcontent =>
      cases n with
      | zero => exact .nil
      | succ n => simpa using Recut.carriageReturn hkind hcontent
  | cons hkind hcontent hrest ih =>
      cases n with
      | zero => exact .nil
      | succ n => exact .cons hkind hcontent (ih n)
  | comment ht hu hcontent hrest ih =>
      cases n with
      | zero => exact .nil
      | succ n => simpa using Recut.comment ht hu hcontent (by simpa using ih n)

theorem drop (n : Nat) :
    Recut (ts.drop n) (us.drop n) := by
  induction h generalizing n with
  | nil =>
      simpa using Recut.nil
  | carriageReturn hkind hcontent =>
      cases n with
      | zero => exact .carriageReturn hkind hcontent
      | succ n => simpa using Recut.nil
  | cons hkind hcontent hrest ih =>
      cases n with
      | zero => exact .cons hkind hcontent hrest
      | succ n => exact ih n
  | comment ht hu hcontent hrest ih =>
      cases n with
      | zero => exact .comment ht hu hcontent hrest
      | succ n => simpa using ih n

section Predicates

variable {p : Token → Bool} (hp : ∀ {t u : Token}, t.kind = u.kind → p t = p u)
include hp

/-- The same tokens are taken if a carriage return of its own is taken with them. -/
theorem takeWhile (hother : ∀ {r : Token}, r.kind = .other → p r = true) :
    Recut (ts.takeWhile p) (us.takeWhile p) := by
  induction h with
  | nil =>
      exact .nil
  | carriageReturn hkind hcontent =>
      rw [List.takeWhile_cons_of_pos (hother hkind)]
      exact .carriageReturn hkind hcontent
  | cons hkind hcontent hrest ih =>
      simp only [List.takeWhile_cons, hp hkind]
      split
      · exact .cons hkind hcontent ih
      · exact .nil
  | comment ht hu hcontent hrest ih =>
      simp only [List.takeWhile_cons, hp (ht.trans hu.symm)]
      split
      · exact .comment ht hu hcontent ih
      · exact .nil

/-- The same tokens are dropped if a carriage return of its own is not dropped. -/
theorem dropWhile (hother : ∀ {r : Token}, r.kind = .other → p r = false) :
    Recut (ts.dropWhile p) (us.dropWhile p) := by
  induction h with
  | nil =>
      exact .nil
  | carriageReturn hkind hcontent =>
      rw [List.dropWhile_cons_of_neg (by simp [hother hkind])]
      exact .carriageReturn hkind hcontent
  | cons hkind hcontent hrest ih =>
      simp only [List.dropWhile_cons, hp hkind]
      split
      · exact ih
      · exact .cons hkind hcontent hrest
  | comment ht hu hcontent hrest ih =>
      simp only [List.dropWhile_cons, hp (ht.trans hu.symm)]
      split
      · exact ih
      · exact .comment ht hu hcontent hrest

end Predicates

/-- The texts are the same but for blanks at the end. -/
theorem exists_textOf_append_eq :
    ∃ a b, AllBlank a ∧ AllBlank b ∧ textOf ts ++ a = textOf us ++ b := by
  have hblank : AllBlank ['\r'] := by decide
  induction h with
  | nil =>
      exact ⟨[], [], Text.allBlank_nil, Text.allBlank_nil, rfl⟩
  | carriageReturn hkind hcontent =>
      exact ⟨['\r'], [], hblank, Text.allBlank_nil, by simp [hcontent]⟩
  | cons hkind hcontent hrest ih =>
      obtain ⟨a, b, ha, hb, htext⟩ := ih
      exact ⟨a, b, ha, hb, by simp [hcontent, htext]⟩
  | comment ht hu hcontent hrest ih =>
      rcases eq_nil_or_singleton hrest with rfl | ⟨r, rfl, -, hr⟩
      · exact ⟨[], ['\r'], Text.allBlank_nil, hblank, by simp [hcontent]⟩
      · exact ⟨[], [], Text.allBlank_nil, Text.allBlank_nil, by simp [hcontent, hr]⟩

/-- Trimmed, the texts are the same. -/
theorem trim_textOf :
    trim (textOf us) = trim (textOf ts) := by
  obtain ⟨a, b, ha, hb, htext⟩ := h.exists_textOf_append_eq
  rw [← Text.trim_append_right hb, ← htext, Text.trim_append_right ha]

/-- What is one line in the text is one line on its own. -/
theorem afterLine_eq_nil
    (htext : textOf us = textOf ts) {designTime : Bool} (hline : afterLine designTime ts = []) :
    afterLine designTime us = [] := by
  induction h with
  | nil =>
      rfl
  | carriageReturn hkind hcontent =>
      simp [hcontent] at htext
  | @cons t u ts us hkind hcontent hrest ih =>
      rw [textOf_cons, textOf_cons, hcontent] at htext
      have htext := List.append_cancel_left htext
      rw [afterLine, hkind] at hline
      rw [afterLine]
      split
      · next hend =>
          rw [if_pos hend] at hline
          cases designTime with
          | true =>
              cases hline
          | false =>
              -- The line end is the last token, and no carriage return was left for another.
              obtain rfl : ts = [] := hline
              rcases eq_nil_or_singleton hrest with rfl | ⟨r, rfl, -, hr⟩
              · rfl
              · simp [hr] at htext
      · next hopen =>
          rw [if_neg hopen] at hline
          exact ih htext hline
  | @comment t u us ht hu hcontent hrest =>
      rw [afterLine, if_neg (by simp [hu])]
      rcases eq_nil_or_singleton hrest with rfl | ⟨r, rfl, hkind, -⟩
      · rfl
      · simp [afterLine, hkind]

/-- The same character of white space, or none, is split off the pieces. -/
theorem map_content_splitSpace :
    (splitSpace us).1.map content = (splitSpace ts).1.map content := by
  cases h with
  | nil =>
      rfl
  | carriageReturn hkind hcontent =>
      rw [content_splitSpace_cons, if_neg (by simp [hkind])]
      rfl
  | cons hkind hcontent hrest =>
      rw [content_splitSpace_cons, content_splitSpace_cons, hkind, hcontent]
  | comment ht hu hcontent hrest =>
      rw [content_splitSpace_cons, content_splitSpace_cons, ht, hu]
      rfl

end Recut
end Token
end PageTemplate
