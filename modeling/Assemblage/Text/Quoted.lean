import Assemblage.Text.Digit
import Assemblage.Text.Printable
import Assemblage.Text.Raw
import Assemblage.Text.Utf8

/-!
Quotations of texts and bytes for messages. A quotation stands in single quotes, unless the text
holds a single quote and no double quote; backslashes, the quote itself and what is not printable
are escaped.
-/

namespace Assemblage.Text
set_option autoImplicit false

/-- The quote that needs the fewest escapes. -/
def chooseQuote (s : List Char) : Char :=
  if s.contains '\'' && !s.contains '"' then '"' else '\''

/-- The escape of a code point by number: two, four or eight hexadecimal digits. -/
def escapeCode (n : Nat) : List Char :=
  if n < 0x100 then '\\' :: 'x' :: hexDigits false 2 n
  else if n < 0x10000 then '\\' :: 'u' :: hexDigits false 4 n
  else '\\' :: 'U' :: hexDigits false 8 n

def quoteChar (plain : Char → Bool) (quote : Char) (c : Char) : List Char :=
  if c == quote || c == '\\' then ['\\', c]
  else if c == '\t' then ['\\', 't']
  else if c == '\n' then ['\\', 'n']
  else if c == '\r' then ['\\', 'r']
  else if plain c then [c]
  else escapeCode c.toNat

def quoteRawChar (plain : Char → Bool) (quote : Char) : RawChar → List Char
  | .char c => quoteChar plain quote c
  | .half offset => escapeCode (RawChar.half offset).code

def quoteWith (plain : Char → Bool) (s : RawText) : List Char :=
  let quote := chooseQuote s.toChars
  quote :: s.flatMap (quoteRawChar plain quote) ++ [quote]

/-- The quotation of a text. -/
def quoted (s : RawText) : List Char := quoteWith isPrintable s

/-- The quotation of a text in ASCII. -/
def quotedAscii (s : RawText) : List Char := quoteWith (fun c => ' ' ≤ c && c ≤ '~') s

/-- The quotation of bytes. -/
def quotedBytes (s : Bytes) : List Char :=
  'b' :: quoteWith (fun c => ' ' ≤ c && c ≤ '~') (s.map fun b => .char (Char.ofNat b.toNat))

end Assemblage.Text
