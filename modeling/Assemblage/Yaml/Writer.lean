import Assemblage.Value
import Assemblage.Yaml.Scalar
import Assemblage.Yaml.Token

/-!
Writing a value as a YAML text. Collections are written as blocks, empty ones as a pair of
brackets; the items of a sequence stand in the column of its key. A text stands without quotes
where it is read back as a text, in single quotes where it needs no escapes, and in double quotes
otherwise. Lines are folded at single spaces behind column 80.
-/

namespace Assemblage.Yaml
set_option autoImplicit false
open Assemblage.Text

/-- What is written so far, and where the last line stands. -/
structure Pen where
  /-- The text, its last character first. -/
  written : List Char
  column : Nat
  /-- Whether a space or the start of a line is just in front. -/
  spaced : Bool
  /-- Whether the line holds nothing but indentation and marks of blocks. -/
  fresh : Bool

namespace Pen

def start : Pen := ⟨[], 0, true, true⟩

def width : Nat := 80

def put (p : Pen) (s : List Char) : Pen :=
  { p with written := s.reverse ++ p.written, column := p.column + s.length }

def breakLine (p : Pen) (br : Char) : Pen := ⟨br :: p.written, 0, true, true⟩

/-- Goes to a column, on a new line if the line holds content or reaches behind it. -/
def toColumn (p : Pen) (indent : Nat) : Pen :=
  let p :=
    if !p.fresh || indent < p.column || (p.column == indent && !p.spaced) then p.breakLine '\n'
    else p
  if p.column < indent then
    { p.put (List.replicate (indent - p.column) ' ') with spaced := true }
  else p

/-- Writes a mark behind a space, which may be there already. -/
def mark (p : Pen) (s : List Char) (opensBlock : Bool) : Pen :=
  let p' := p.put (if p.spaced then s else ' ' :: s)
  { p' with spaced := false, fresh := p.fresh && opensBlock }

/-- Writes a mark right behind what is there. -/
def close (p : Pen) (s : List Char) : Pen := { p.put s with spaced := false, fresh := false }

/-! ## The styles of a text -/

/-- Folds the line in front of the next word. -/
def fold (p : Pen) (indent : Nat) : Pen := { p.toColumn indent with spaced := false, fresh := false }

/-- Writes the words of a text without quotes, with the run of spaces in front of each. -/
def plainWords (split : Bool) (indent : Nat) (p : Pen) (s : List Char) : Nat → Pen
  | 0 => p
  | fuel + 1 =>
    match s with
    | [] => p
    | ' ' :: _ =>
      let spaces := s.takeWhile (· == ' ')
      let rest := s.dropWhile (· == ' ')
      if spaces.length = 1 && width < p.column && split then
        plainWords split indent (p.fold indent) rest fuel
      else plainWords split indent (p.put spaces) rest fuel
    | _ =>
      plainWords split indent (p.put (s.takeWhile (· != ' '))) (s.dropWhile (· != ' ')) fuel

def plain (p : Pen) (split : Bool) (indent : Nat) (s : List Char) : Pen :=
  let p := if p.spaced then p else p.put [' ']
  plainWords split indent { p with spaced := false, fresh := false } s (s.length + 1)

/-- Writes the parts of a text in single quotes: runs of spaces, runs of line breaks, words. -/
def singleParts (split : Bool) (indent : Nat) (first : Bool) (p : Pen) (s : List Char) : Nat → Pen
  | 0 => p
  | fuel + 1 =>
    match s with
    | [] => p
    | ' ' :: _ =>
      let spaces := s.takeWhile (· == ' ')
      let rest := s.dropWhile (· == ' ')
      if spaces.length = 1 && width < p.column && split && !first && !rest.isEmpty then
        singleParts split indent false (p.toColumn indent) rest fuel
      else singleParts split indent false (p.put spaces) rest fuel
    | '\n' :: _ =>
      let breaks := s.takeWhile (· == '\n')
      let p := ('\n' :: breaks).foldl breakLine p
      singleParts split indent false (p.toColumn indent) (s.dropWhile (· == '\n')) fuel
    | '\'' :: rest => singleParts split indent false (p.put ['\'', '\'']) rest fuel
    | c :: rest => singleParts split indent false (p.put [c]) rest fuel

def single (p : Pen) (split : Bool) (indent : Nat) (s : List Char) : Pen :=
  (singleParts split indent true (p.mark ['\''] false) s (s.length + 1)).close ['\'']

/-- The letter that stands for a character behind a backslash. -/
def escapeLetter? (c : Char) : Option Char :=
  match c with
  | '\x00' => some '0'
  | '\x07' => some 'a'
  | '\x08' => some 'b'
  | '\t' => some 't'
  | '\n' => some 'n'
  | '\x0b' => some 'v'
  | '\x0c' => some 'f'
  | '\r' => some 'r'
  | '\x1b' => some 'e'
  | '"' => some '"'
  | '\\' => some '\\'
  | '\x85' => some 'N'
  | '\xa0' => some '_'
  | '\u2028' => some 'L'
  | '\u2029' => some 'P'
  | _ => none

def escapeNumber (n : Nat) : List Char :=
  if n < 0x100 then '\\' :: 'x' :: hexDigits true 2 n
  else if n < 0x10000 then '\\' :: 'u' :: hexDigits true 4 n
  else '\\' :: 'U' :: hexDigits true 8 n

/-- The escape of a character, where it needs one. -/
def escape? : RawChar → Option (List Char)
  | .char c =>
    match escapeLetter? c with
    | some letter => some ['\\', letter]
    | none => if ' ' ≤ c && c ≤ '~' then none else some (escapeNumber c.toNat)
  | .half offset => some (escapeNumber (RawChar.half offset).code)

/-- Ends a line in double quotes; a space at the start of the next line is escaped. -/
def foldEscaped (p : Pen) (indent : Nat) (next : Option RawChar) : Pen :=
  let p := (p.put ['\\']).fold indent
  if next == some (.char ' ') then p.put ['\\'] else p

/-- Writes the characters of a text in double quotes. `pending` are those that are read and not
yet written, the last one first. -/
def doubleParts (split : Bool) (indent : Nat) (p : Pen) (pending : List Char) (first : Bool) :
    RawText → Pen
  | [] => p.put pending.reverse
  | r :: rest =>
    let inside := split && !first && !rest.isEmpty
    match r.char?, escape? r with
    | _, some escape =>
      let p := (p.put pending.reverse).put escape
      let p := if inside && width + 1 < p.column then p.foldEscaped indent rest.head? else p
      doubleParts split indent p [] false rest
    | some c, none =>
      if inside && (c == ' ' || pending.isEmpty) && width < p.column + pending.length then
        let p := (p.put pending.reverse).foldEscaped indent (some r)
        doubleParts split indent p [c] false rest
      else doubleParts split indent p (c :: pending) false rest
    | none, none => doubleParts split indent p pending false rest

def double (p : Pen) (split : Bool) (indent : Nat) (t : RawText) : Pen :=
  (doubleParts split indent (p.mark ['"'] false) [] true t).close ['"']

end Pen

/-! ## The choice of a style -/

namespace Style

def isBreakHere (c : Char) : Bool := isBreak c && c != '\r'

/-- Whether a character outside ASCII, or a control other than the line feed, is in the text. -/
def isSpecial (t : RawText) : Bool :=
  t.any fun r =>
    match r with
    | .char c => !(c == '\n' || (' ' ≤ c && c ≤ '~'))
    | .half _ => true

def isMultiline (s : List Char) : Bool := s.any isBreakHere

/-- Whether a space stands beside a line break. -/
def hasSpacedBreak : List Char → Bool
  | a :: b :: rest =>
    (a == ' ' && isBreakHere b) || (isBreakHere a && b == ' ') || hasSpacedBreak (b :: rest)
  | _ => false

def isEdge (c : Char) : Bool := c == ' ' || isBreakHere c

/-- Whether a text starts or ends with a space or a line break. -/
def hasEdge (s : List Char) : Bool := s.head?.any isEdge || s.getLast?.any isEdge

/-- Whether a mark of the language stands behind the first character. -/
def hasInnerMark : List Char → Bool
  | a :: b :: rest =>
    (b == ':' && isBlankOrEnd (rest.headD '\x00')) || (b == '#' && isBlankOrEnd a) ||
      hasInnerMark (b :: rest)
  | _ => false

/-- Whether a text looks like a mark of the language at its start. -/
def hasFirstMark : List Char → Bool
  | [] => false
  | c :: rest =>
    "#,[]\x7b\x7d&*!|>'\"%@`".toList.contains c ||
      ((c == '?' || c == ':' || c == '-') && isBlankOrEnd (rest.headD '\x00')) ||
      ((c :: rest).take 3 == ['-', '-', '-']) || ((c :: rest).take 3 == ['.', '.', '.'])

/-- Whether a text can stand without quotes in a block. -/
def allowsPlain (t : RawText) : Bool :=
  let s := t.toChars
  !(s.isEmpty || isSpecial t || isMultiline s || hasEdge s || hasFirstMark s || hasInnerMark s)

/-- Whether a text can stand in single quotes. -/
def allowsSingle (t : RawText) : Bool := !(isSpecial t || hasSpacedBreak t.toChars)

/-- Whether a key stands in front of its colon on the same line: it is not empty, has no line
break, and is shorter than 123 characters. -/
def isSimpleKey (t : RawText) : Bool := !t.isEmpty && !isMultiline t.toChars && t.length < 123

end Style

/-! ## Values -/

namespace Writer

/-- Writes a text, as a key on one line or with folding. -/
def text (p : Pen) (simpleKey : Bool) (indent : Nat) (t : RawText) : Pen :=
  let s := t.toChars
  if Style.allowsPlain t && Plain.kind s == .text then p.plain (!simpleKey) indent s
  else if Style.allowsSingle t && !(simpleKey && Style.isMultiline s) then
    p.single (!simpleKey) indent s
  else p.double (!simpleKey) indent t

/-- A scalar in words, if the value is one other than a text. -/
def word? : Value → Option (List Char)
  | .null => some "null".toList
  | .flag b => some (if b then "true" else "false").toList
  | .integer n => some (toString n).toList
  | .real x => some (Layout.scene.write x)
  | .date d => some d.iso
  | .moment m => some m.iso
  | _ => none

def scalar (p : Pen) (simpleKey : Bool) (indent : Nat) (v : Value) : Pen :=
  match v with
  | .text t => text p simpleKey indent t
  | v => p.plain (!simpleKey) indent ((word? v).getD [])

def key (p : Pen) (indent : Nat) (v : Value) : Pen :=
  let simple :=
    match v with
    | .text t => Style.isSimpleKey t
    | _ => true
  if simple then (scalar p true (indent + 2) v).close [':']
  else
    let p := scalar (p.mark ['?'] true) false (indent + 2) v
    (p.toColumn indent).mark [':'] true

mutual

/-- Writes a value inside a collection of this indentation, or at the root. -/
def value (outer : Option Nat) (inMapping : Bool) (p : Pen) : Value → Pen
  | .list [] | .tuple [] | .set [] | .cycle => (p.mark ['['] false).close [']']
  | .mapping [] => (p.mark ['\x7b'] false).close ['\x7d']
  | .list xs | .tuple xs | .set xs =>
    let indent :=
      match outer with
      | none => 0
      | some n => if inMapping && !p.fresh then n else n + 2
    items indent p xs
  | .mapping es => entries ((outer.map (· + 2)).getD 0) p es
  | v => scalar p false ((outer.getD 0) + 2) v

def items (indent : Nat) (p : Pen) : List Value → Pen
  | [] => p
  | x :: xs => items indent (value (some indent) false ((p.toColumn indent).mark ['-'] true) x) xs

def entries (indent : Nat) (p : Pen) : List (Value × Value) → Pen
  | [] => p
  | (k, v) :: es => entries indent (value (some indent) true (key (p.toColumn indent) indent k) v) es

end

end Writer

/-- The text of a value. -/
def write (v : Value) : List Char :=
  ((Writer.value none false .start v).toColumn 0).written.reverse

end Assemblage.Yaml
