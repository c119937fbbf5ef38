/-!
White space in the sense of the Unicode standard, with the four information separators, and the
trimming of the ends of a text.
-/

namespace Assemblage.Text
set_option autoImplicit false

/-- White space of any script; the four information separators count, zero-width characters do
not. -/
def isBlank (c : Char) : Bool :=
  ('\t' ≤ c && c ≤ '\r') || ('\x1c' ≤ c && c ≤ ' ') || c == '\x85' || c == '\xa0' ||
    c == '\u1680' || ('\u2000' ≤ c && c ≤ '\u200a') || c == '\u2028' || c == '\u2029' ||
    c == '\u202f' || c == '\u205f' || c == '\u3000'

/-- The space and the tab. -/
def isPadding (c : Char) : Bool := c == ' ' || c == '\t'

/-- The byte-order mark, which is a zero-width space elsewhere. -/
def isMark (c : Char) : Bool := c == '\ufeff'

/-! ## Trimming -/

def trimEnd (p : Char → Bool) (s : List Char) : List Char := (s.reverse.dropWhile p).reverse

def trim (p : Char → Bool) (s : List Char) : List Char := trimEnd p (s.dropWhile p)

end Assemblage.Text
