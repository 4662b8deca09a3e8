import PageTemplate.Token.Lexeme

/-!
# The tokens of a text

**Input.**  A text, and the location of its first character.

**Algorithm.**  The lexeme at the start of the text is cut off as a token and the
rest is read from the token's end, until nothing is left.

**Results.**
* `tokensFrom_cons`: the tokens of a text are the first one and those of the rest.
* `textOf_tokensFrom`: joining the tokens gives the text back.
* `content_ne_nil_of_mem`: no token is empty.
* `location_of_tokensFrom`: every token stands where the text before it ends.
-/

namespace PageTemplate
namespace Token

/-- The token that starts with `c` at `l`. -/
def first (l : Location) (c : Char) (rest : Text) : Token :=
  ⟨(lexeme c rest).1, c :: rest.take (lexeme c rest).2, l⟩

/-- The tokens of a text whose first character stands at `l`, after those already
`read`, the latest of which comes first. -/
def collect (read : List Token) (l : Location) : Text → List Token
  | [] => read.reverse
  | c :: rest =>
      collect (first l c rest :: read) (first l c rest).endLocation
        (rest.drop (lexeme c rest).2)
termination_by t => t.length
decreasing_by simp only [List.length_drop, List.length_cons]; omega

/-- The tokens of a text whose first character stands at `l`. -/
def tokensFrom (l : Location) (t : Text) : List Token :=
  collect [] l t

/-- The tokens of a document. -/
def tokenize (source : Text) : List Token :=
  tokensFrom Location.start source

/-- The place where the last token of a list ends, if there is one. -/
def endOf? (ts : List Token) : Option Location :=
  ts.getLast?.map endLocation

theorem collect_eq (read : List Token) (l : Location) :
    ∀ t : Text, collect read l t = read.reverse ++ tokensFrom l t
  | [] => by simp [tokensFrom, collect]
  | c :: rest => by
      unfold tokensFrom
      rw [collect, collect, collect_eq (_ :: read) _ _, collect_eq [_] _ _]
      simp
termination_by t => t.length
decreasing_by all_goals simp only [List.length_drop, List.length_cons]; omega

@[simp] theorem tokensFrom_nil (l : Location) : tokensFrom l [] = [] := by
  simp [tokensFrom, collect]

theorem tokensFrom_cons (l : Location) (c : Char) (rest : Text) :
    tokensFrom l (c :: rest) =
      first l c rest ::
        tokensFrom (first l c rest).endLocation (rest.drop (lexeme c rest).2) := by
  conv => lhs; unfold tokensFrom
  rw [collect, collect_eq]
  rfl

/-- Induction on the tokens cut off one after the other. -/
theorem tokensFrom_induction {motive : Location → Text → Prop}
    (nil : ∀ l, motive l [])
    (cons : ∀ l c rest,
      motive (first l c rest).endLocation (rest.drop (lexeme c rest).2) →
        motive l (c :: rest)) :
    ∀ l t, motive l t
  | l, [] => nil l
  | l, c :: rest => cons l c rest (tokensFrom_induction nil cons _ _)
termination_by _ t => t.length
decreasing_by simp only [List.length_drop, List.length_cons]; omega

/-- No character of a text is lost or added by its tokens. -/
theorem textOf_tokensFrom (l : Location) (t : Text) : textOf (tokensFrom l t) = t := by
  induction l, t using tokensFrom_induction with
  | nil l => simp
  | cons l c rest ih =>
      rw [tokensFrom_cons, textOf_cons, ih]
      simp [first]

theorem content_ne_nil_of_mem {l : Location} {t : Text} {k : Token}
    (h : k ∈ tokensFrom l t) : k.content ≠ [] := by
  induction l, t using tokensFrom_induction with
  | nil l => simp at h
  | cons l c rest ih =>
      rw [tokensFrom_cons] at h
      rcases List.mem_cons.mp h with rfl | h
      · simp [first]
      · exact ih h

theorem location_of_tokensFrom {l : Location} {t : Text} {k : Token} {before after : List Token}
    (h : tokensFrom l t = before ++ k :: after) : k.location = l.advance (textOf before) := by
  induction l, t using tokensFrom_induction generalizing before with
  | nil l => simp at h
  | cons l c rest ih =>
      rw [tokensFrom_cons] at h
      cases before with
      | nil =>
          rw [List.nil_append, List.cons.injEq] at h
          rw [← h.1]
          rfl
      | cons b before =>
          rw [List.cons_append, List.cons.injEq] at h
          rw [ih h.2, ← h.1, textOf_cons, Location.advance_append]
          rfl

end Token
end PageTemplate
