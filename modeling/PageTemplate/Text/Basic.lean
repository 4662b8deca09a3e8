/-!
# Text

A text is a list of Unicode scalar values, so that cutting and joining text is
cutting and joining lists.  Sizes are counted in bytes of the UTF-8 form.

**Results.**
* `utf8Size_append`: sizes add up over joined texts.
* `unquote_quoted`: a quoted text loses exactly its two quotes.
-/

namespace PageTemplate

/-- Source text and everything cut from it. -/
abbrev Text := List Char

namespace Text

/-- Number of bytes of the UTF-8 form. -/
def utf8Size (t : Text) : Nat :=
  t.foldr (fun c n => c.utf8Size + n) 0

/-- One pair of surrounding double quotes removed, if there is one. -/
def unquote : Text → Text
  | '"' :: inner =>
      if inner.getLast? = some '"' then inner.dropLast else '"' :: inner
  | t => t

@[simp] theorem utf8Size_nil : utf8Size [] = 0 := rfl

@[simp] theorem utf8Size_cons (c : Char) (t : Text) :
    utf8Size (c :: t) = c.utf8Size + utf8Size t := rfl

@[simp] theorem utf8Size_append (s t : Text) :
    utf8Size (s ++ t) = utf8Size s + utf8Size t := by
  induction s with
  | nil => simp
  | cons c s ih => simp [ih, Nat.add_assoc]

theorem unquote_quoted (t : Text) : unquote ('"' :: (t ++ ['"'])) = t := by
  simp [unquote]

/-- A text that does not start with a quote is left alone. -/
theorem unquote_of_head_ne {c : Char} (h : c ≠ '"') (t : Text) :
    unquote (c :: t) = c :: t := by
  unfold unquote
  split
  · next heq => exact absurd (List.cons.inj heq).1 h
  · rfl

end Text

end PageTemplate
