import PageTemplate.Token.Stream

/-!
# Cursor

A cursor divides a list of tokens into those already passed, the nearest first,
and those to come.  Every move passes a number of tokens, so a cursor never loses
one.

**Results.**
* `tokens_move`: moving keeps the divided list.
* `rest_move`, `position_move`: what is left, and how far the cursor came.
* `rest_moveWhile`: a conditional move stops before the first token that fails.
-/

namespace PageTemplate

/-- A place in a list of tokens. -/
structure Cursor where
  /-- The tokens before the place, the nearest first. -/
  passed : List Token
  /-- The tokens from the place on. -/
  rest : List Token
  deriving DecidableEq, Repr, Inhabited

namespace Cursor

/-- The cursor before the first token. -/
def ofTokens (ts : List Token) : Cursor :=
  ⟨[], ts⟩

/-- All tokens, passed or not. -/
def tokens (c : Cursor) : List Token :=
  c.passed.reverse ++ c.rest

/-- Number of tokens passed. -/
def position (c : Cursor) : Nat :=
  c.passed.length

/-- The token at the cursor. -/
def current? (c : Cursor) : Option Token :=
  c.rest.head?

/-- The token after the one at the cursor. -/
def following? (c : Cursor) : Option Token :=
  c.rest.tail.head?

/-- Whether every token is passed. -/
def atEnd (c : Cursor) : Bool :=
  c.rest.isEmpty

/-- Whether the token at the cursor is of the given kind. -/
def isAt (kind : TokenKind) (c : Cursor) : Bool :=
  c.current?.any (·.kind = kind)

/-- Whether the token at the cursor is the identifier `keyword`. -/
def isAtKeyword (keyword : Text) (c : Cursor) : Bool :=
  c.current?.any (·.isKeyword keyword)

/-- Where the token at the cursor stands, or else where the last token ends. -/
def location (c : Cursor) : Location :=
  match c.rest, c.passed with
  | t :: _, _ => t.location
  | [], t :: _ => t.endLocation
  | [], [] => Location.start

/-- The cursor `n` tokens further on. -/
def move (n : Nat) (c : Cursor) : Cursor :=
  ⟨(c.rest.take n).reverse ++ c.passed, c.rest.drop n⟩

/-- The cursor after the tokens that satisfy `p`. -/
def moveWhile (p : Token → Bool) (c : Cursor) : Cursor :=
  c.move (c.rest.takeWhile p).length

/-- The cursor after the token it is at, if that is of the given kind. -/
def moveOver (kind : TokenKind) (c : Cursor) : Cursor :=
  if c.isAt kind then c.move 1 else c

/-- How many tokens the pairs of neighbours of the kinds `a` and `b` take at the
start of a list, added to `n`. -/
def pairRun (a b : TokenKind) : List Token → Nat → Nat
  | s :: t :: rest, n =>
      if s.kind = a ∧ t.kind = b then pairRun a b rest (n + 2) else n
  | _, n => n

/-- The cursor after the pairs of neighbours of the kinds `a` and `b`. -/
def movePairs (a b : TokenKind) (c : Cursor) : Cursor :=
  c.move (pairRun a b c.rest 0)

@[simp] theorem tokens_ofTokens (ts : List Token) : (ofTokens ts).tokens = ts := rfl

@[simp] theorem position_ofTokens (ts : List Token) : (ofTokens ts).position = 0 := rfl

@[simp] theorem rest_ofTokens (ts : List Token) : (ofTokens ts).rest = ts := rfl

@[simp] theorem rest_move (n : Nat) (c : Cursor) : (c.move n).rest = c.rest.drop n := rfl

@[simp] theorem tokens_move (n : Nat) (c : Cursor) : (c.move n).tokens = c.tokens := by
  simp [tokens, move]

theorem position_move (n : Nat) (c : Cursor) :
    (c.move n).position = c.position + min n c.rest.length := by
  simp [position, move, Nat.add_comm]

@[simp] theorem move_zero (c : Cursor) : c.move 0 = c := by
  simp [move]

theorem move_move (m n : Nat) (c : Cursor) : (c.move m).move n = c.move (m + n) := by
  simp only [move, List.drop_drop, mk.injEq, and_true]
  rw [← List.append_assoc, ← List.reverse_append, ← List.take_add]

theorem position_le (c : Cursor) : c.position ≤ c.tokens.length := by
  simp [position, tokens]

theorem rest_eq_drop (c : Cursor) : c.rest = c.tokens.drop c.position := by
  simp [position, tokens]

theorem rest_moveWhile (p : Token → Bool) (c : Cursor) :
    (c.moveWhile p).rest = c.rest.dropWhile p := by
  have h : (c.rest.takeWhile p ++ c.rest.dropWhile p).drop (c.rest.takeWhile p).length
      = c.rest.dropWhile p := List.drop_left
  rwa [List.takeWhile_append_dropWhile] at h

theorem isAt_iff (kind : TokenKind) (c : Cursor) :
    c.isAt kind = true ↔ ∃ t rest, c.rest = t :: rest ∧ t.kind = kind := by
  unfold isAt current?
  cases c.rest <;> simp

theorem length_rest_moveOver_le (kind : TokenKind) (c : Cursor) :
    (c.moveOver kind).rest.length ≤ c.rest.length := by
  unfold moveOver
  split <;> simp

theorem length_rest_move_lt {kind : TokenKind} {c : Cursor} (h : c.isAt kind = true) :
    (c.move 1).rest.length < c.rest.length := by
  obtain ⟨t, rest, hrest, -⟩ := (isAt_iff kind c).mp h
  simp [hrest]

theorem pairRun_eq (a b : TokenKind) :
    ∀ (ts : List Token) (n : Nat), pairRun a b ts n = n + pairRun a b ts 0
  | [], n => rfl
  | [_], n => rfl
  | s :: t :: rest, n => by
      simp only [pairRun]
      split
      · rw [pairRun_eq a b rest (n + 2), pairRun_eq a b rest (0 + 2)]
        omega
      · rfl

end Cursor

end PageTemplate
