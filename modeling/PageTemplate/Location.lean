import PageTemplate.Text.Basic

/-!
# Source locations

A location counts what lies before it: the UTF-8 bytes from the start of the
document, the lines, and the characters of the line.  All counts start at zero;
only the printed form starts at one.

**Results.**
* `advance_append`: reading a joined text is reading its parts in turn.
* `offset_advance`, `line_advance`, `column_advance`: what reading a text adds.
-/

namespace PageTemplate

/-- A place between two characters of a document. -/
structure Location where
  /-- Bytes of UTF-8 before the place. -/
  offset : Nat
  /-- Line feeds before the place. -/
  line : Nat
  /-- Characters between the last line feed and the place. -/
  column : Nat
  deriving DecidableEq, Repr, Inhabited

namespace Location

/-- The start of a document. -/
def start : Location :=
  ⟨0, 0, 0⟩

/-- The place after one more character. -/
def next (l : Location) (c : Char) : Location :=
  if c = '\n' then ⟨l.offset + c.utf8Size, l.line + 1, 0⟩
  else ⟨l.offset + c.utf8Size, l.line, l.column + 1⟩

/-- The place reached by reading `t`. -/
def advance (l : Location) (t : Text) : Location :=
  t.foldl next l

/-- Line and column as people count them, from one. -/
def display (l : Location) : String :=
  s!"{l.line + 1}:{l.column + 1}"

@[simp] theorem advance_nil (l : Location) : l.advance [] = l := rfl

@[simp] theorem advance_cons (l : Location) (c : Char) (t : Text) :
    l.advance (c :: t) = (l.next c).advance t := rfl

/-- Texts one behind the other are passed one after the other. -/
theorem advance_append (l : Location) (s t : Text) :
    l.advance (s ++ t) = (l.advance s).advance t :=
  List.foldl_append

theorem offset_next (l : Location) (c : Char) : (l.next c).offset = l.offset + c.utf8Size := by
  unfold next
  split <;> rfl

theorem offset_advance (l : Location) (t : Text) :
    (l.advance t).offset = l.offset + Text.utf8Size t := by
  induction t generalizing l with
  | nil => simp
  | cons c t ih => simp [ih, offset_next, Nat.add_assoc]

theorem line_advance (l : Location) (t : Text) :
    (l.advance t).line = l.line + t.count '\n' := by
  induction t generalizing l with
  | nil => simp
  | cons c t ih =>
      by_cases h : c = '\n'
      · simp [ih, next, h, Nat.add_comm, Nat.add_left_comm]
      · simp [ih, next, h]

/-- A text without line feed stays on its line. -/
theorem column_advance {t : Text} (l : Location) (h : '\n' ∉ t) :
    (l.advance t).column = l.column + t.length := by
  induction t generalizing l with
  | nil => simp
  | cons c t ih =>
      have hc : ¬ c = '\n' := fun hc => h (by simp [hc])
      rw [advance_cons, ih (l.next c) (fun ht => h (List.mem_cons_of_mem c ht))]
      simp only [next, hc, if_false, List.length_cons]
      omega

/-- Only what follows the last line feed counts for the column. -/
theorem column_advance_newline {t : Text} (l : Location) (s : Text) (h : '\n' ∉ t) :
    (l.advance (s ++ '\n' :: t)).column = t.length := by
  rw [advance_append, advance_cons, column_advance _ h]
  simp [next]

end Location

end PageTemplate
