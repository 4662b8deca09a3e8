import PageTemplate.Proofs.Reader.Lossless

/-!
# The plain scan for directives

Where the directives of a document are can be said without reading any of them.

**Input.**  The tokens of the document.

**Algorithm.**  The tokens are scanned from left to right.  An `@` before one of the
keywords, with all tokens to the end of the line, is a directive; every other token is
markup.  Markup that is not parted by a directive is joined.

**Results.**
* `scan_eq_append`, `join_append`: as much markup as there is becomes one segment.
* `segments_eq_passages`: the passages of a document are its segments.
* `readTemplate_eq_segments`: the blocks of a template are the segments of its tokens.
-/

namespace PageTemplate

open Token (line afterLine textOf)

/-! ## The scan -/

/-- What the scan finds at one place. -/
inductive Piece
  /-- A token of markup. -/
  | markup (t : Token)
  /-- All tokens of a directive. -/
  | directive (ts : List Token)

/-- Whether a directive starts with the two tokens. -/
def StartsDirective (t k : Token) : Prop :=
  t.kind = .transition ∧ k.kind = .identifier ∧
    k.content ∈ Directive.all.map Directive.keyword

instance (t k : Token) : Decidable (StartsDirective t k) :=
  inferInstanceAs (Decidable (_ ∧ _ ∧ _))

/-- The directives and the tokens of markup, from left to right. -/
def scan (designTime : Bool) : List Token → List Piece
  | [] => []
  | [t] => [.markup t]
  | t :: k :: ts =>
      if StartsDirective t k then
        .directive (t :: k :: line designTime ts) :: scan designTime (afterLine designTime ts)
      else .markup t :: scan designTime (k :: ts)
termination_by ts => ts.length
decreasing_by
  · have h := Token.length_afterLine_le designTime ts
    simp only [List.length_cons]
    omega
  · simp

/-- Tokens that make one block. -/
structure Segment where
  /-- The kind of the block. -/
  kind : BlockKind
  /-- The tokens in source order. -/
  tokens : List Token

/-- A token of markup before segments, part of the first if that is markup too. -/
def Segment.consMarkup (t : Token) : List Segment → List Segment
  | ⟨.markup, ts⟩ :: rest => ⟨.markup, t :: ts⟩ :: rest
  | rest => ⟨.markup, [t]⟩ :: rest

/-- The pieces with all neighbouring markup joined. -/
def join : List Piece → List Segment
  | [] => []
  | .markup t :: ps => Segment.consMarkup t (join ps)
  | .directive ts :: ps => ⟨.directive, ts⟩ :: join ps

/-- The directives of a document and the markup between them. -/
def segments (designTime : Bool) (ts : List Token) : List Segment :=
  join (scan designTime ts)

/-! ## Pieces of a document -/

/-- The scan looks for the same places as the reader. -/
theorem startsDirective_iff
    (t k : Token) (ts : List Token) :
    StartsDirective t k ↔ ∃ d, directiveAt (t :: k :: ts) = some d := by
  constructor
  · rintro ⟨ht, hk, hmem⟩
    obtain ⟨d, -, hd⟩ := List.mem_map.mp hmem
    exact ⟨d, (directiveAt_eq_some_iff _ _).mpr
      ⟨t, k, ts, rfl, ht, (Token.isKeyword_iff _ _).mpr ⟨hk, hd.symm⟩⟩⟩
  · rintro ⟨d, hd⟩
    obtain ⟨t', k', ts', heq, ht, hkeyword⟩ := (directiveAt_eq_some_iff _ _).mp hd
    cases heq
    obtain ⟨hk, hcontent⟩ := (Token.isKeyword_iff _ _).mp hkeyword
    exact ⟨ht, hk, List.mem_map.mpr ⟨d, Directive.mem_all d, hcontent.symm⟩⟩

/-- The scan takes a directive with its line. -/
theorem scan_of_directive
    {designTime : Bool} {d : Directive} {t k : Token} {ts : List Token}
    (h : directiveAt (t :: k :: ts) = some d) :
    scan designTime (t :: k :: ts) =
      .directive (t :: k :: line designTime ts) ::
        scan designTime (afterLine designTime ts) := by
  rw [scan, if_pos ((startsDirective_iff t k ts).mpr ⟨d, h⟩)]

/-- The scan takes a token of markup by itself. -/
theorem scan_of_markup
    {designTime : Bool} {t : Token} {rest : List Token}
    (h : directiveAt (t :: rest) = none) :
    scan designTime (t :: rest) = .markup t :: scan designTime rest := by
  cases rest with
  | nil =>
      simp [scan]
  | cons k ts =>
      have hno : ¬ StartsDirective t k := by
        rw [startsDirective_iff t k ts, h]
        rintro ⟨d, hd⟩
        cases hd
      rw [scan, if_neg hno]

/-- As far as the reader sees markup, so does the scan. -/
theorem scan_eq_append
    (designTime : Bool) (ts : List Token) :
    scan designTime ts =
      (ts.take (markupRun ts 0)).map Piece.markup ++
        scan designTime (ts.drop (markupRun ts 0)) := by
  induction ts with
  | nil =>
      simp [markupRun]
  | cons t rest ih =>
      cases hd : directiveAt (t :: rest) with
      | some d =>
          simp [markupRun, hd]
      | none =>
          rw [scan_of_markup hd, markupRun_of_markup hd, List.take_succ_cons, List.drop_succ_cons,
            List.map_cons, List.cons_append, ← ih]

/-! ## Joined markup -/

/-- Whether the first of the segments cannot take more markup before it. -/
def StartsFresh (ss : List Segment) : Prop :=
  ∀ s, ss.head? = some s → s.kind ≠ .markup

theorem consMarkup_of_startsFresh
    {ss : List Segment} (h : StartsFresh ss) (t : Token) :
    Segment.consMarkup t ss = ⟨.markup, [t]⟩ :: ss := by
  unfold Segment.consMarkup
  split
  · next ts rest =>
      exact absurd rfl (h _ rfl)
  · rfl

/-- Tokens of markup before a directive or the end make one segment. -/
theorem join_append
    {ps : List Piece} (h : StartsFresh (join ps)) (t : Token) (ts : List Token) :
    join ((t :: ts).map Piece.markup ++ ps) = ⟨.markup, t :: ts⟩ :: join ps := by
  induction ts generalizing t with
  | nil =>
      exact consMarkup_of_startsFresh h t
  | cons u us ih =>
      rw [List.map_cons, List.cons_append, join, ih u]
      rfl

/-- What follows all markup that there is does not join it. -/
theorem startsFresh_segments_drop
    (designTime : Bool) (ts : List Token) :
    StartsFresh (segments designTime (ts.drop (markupRun ts 0))) := by
  intro s hs
  rcases directiveAt_drop_markupRun ts with hend | ⟨d, hd⟩
  · rw [hend, segments, scan] at hs
    cases hs
  · obtain ⟨t, k, rest, heq, -⟩ := (directiveAt_eq_some_iff _ _).mp hd
    rw [heq] at hd hs
    rw [segments, scan_of_directive hd, join, List.head?_cons, Option.some.injEq] at hs
    subst hs
    exact BlockKind.noConfusion

/-! ## Segments and passages -/

/-- The segment of a passage. -/
def Passage.segment (p : Passage) : Segment :=
  ⟨p.kind, p.source⟩

/-- The passages of a document are its segments. -/
theorem segments_eq_passages
    (designTime : Bool) (final : Location) (ts : List Token) :
    segments designTime ts = (passages designTime final ts).map Passage.segment := by
  induction ts using passages_induction designTime with
  | nil =>
      simp [segments, scan, join]
  | directive d t k ts hd ih =>
      rw [passages_of_directive hd, List.map_cons, ← ih, segments, scan_of_directive hd]
      rfl
  | markup t rest hd ih =>
      have hfresh := startsFresh_segments_drop designTime rest
      rw [passages_of_markup hd, List.map_cons, ← ih, segments, scan_of_markup hd,
        scan_eq_append]
      exact join_append hfresh t (rest.take (markupRun rest 0))

/-- The blocks of a template are the segments that the plain scan of its tokens finds. -/
theorem readTemplate_eq_segments
    (settings : Settings) (source : Text) :
    ∃ results, readTemplate settings source = .ok results ∧
      results.blocks.map (fun b => (b.kind, b.text)) =
        (segments settings.designTime (Token.tokenize source)).map
          (fun s => (s.kind, textOf s.tokens)) := by
  refine ⟨_, readTemplate_eq_passages settings source, ?_⟩
  rw [segments_eq_passages _ (Location.start.advance source), List.map_map, List.map_map]
  refine List.map_congr_left ?_
  intro p _
  exact Prod.ext (p.kind_block settings.baseType) (p.text_block settings.baseType)

end PageTemplate
