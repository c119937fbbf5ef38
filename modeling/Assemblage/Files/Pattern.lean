/-!
Patterns of file names. An asterisk stands for any characters, a question mark for one, brackets
for one of some characters or ranges, or for one that is none of them behind an exclamation mark.
A range that runs backwards holds nothing; an open bracket without its partner stands for itself.
-/

namespace Assemblage
set_option autoImplicit false

/-- A piece of a pattern. -/
inductive Glyph where
  | many
  | one
  | char (c : Char)
  /-- One character in (or, negated, outside) the closed ranges. -/
  | among (negated : Bool) (ranges : List (Char × Char))
  deriving DecidableEq, Repr

abbrev Pattern := List Glyph

namespace Pattern

/-! ## Sets in brackets -/

/-- Cuts what stands in brackets at every hyphen that may make a range: not the first character,
and at least two characters behind the one before. `held` is the chunk being read. -/
def chunksFrom (held : List Char) (skip : Nat) : List Char → List (List Char)
  | [] => [held]
  | c :: rest =>
    if c == '-' && skip == 0 then held :: chunksFrom [] 2 rest
    else chunksFrom (held ++ [c]) (skip - 1) rest

/-- The chunks; a hyphen at the very end is a character of the last one. -/
def chunks (inner : List Char) : List (List Char) :=
  let cut := chunksFrom [] (if inner.head? == some '!' then 2 else 1) inner
  match cut.getLast? with
  | some [] =>
    match cut.dropLast.getLast? with
    | some last => cut.dropLast.dropLast ++ [last ++ ['-']]
    | none => cut
  | _ => cut

/-- Joins two chunks that a backward range would link, dropping its ends. -/
def dropBackward : List (List Char) → List (List Char)
  | [] => []
  | chunk :: rest =>
    match dropBackward rest with
    | [] => [chunk]
    | next :: more =>
      match chunk.getLast?, next.head? with
      | some a, some b =>
        if b < a then (chunk.dropLast ++ next.drop 1) :: more else chunk :: next :: more
      | _, _ => chunk :: next :: more

/-- The ranges of the chunks: between two chunks from the last to the first character, and of each
other character by itself. -/
def rangesOf (start : Option Char) : List (List Char) → List (Char × Char)
  | [] => []
  | chunk :: rest =>
    let opened :=
      match start, chunk with
      | some a, b :: _ => [(a, b)]
      | _, _ => []
    let inner := if start.isSome then chunk.drop 1 else chunk
    if rest.isEmpty then opened ++ inner.map fun c => (c, c)
    else opened ++ (inner.dropLast.map fun c => (c, c)) ++ rangesOf inner.getLast? rest

/-- The piece that stands for what is in brackets. -/
def setOf (inner : List Char) : Glyph :=
  match dropBackward (chunks inner) with
  | ('!' :: first) :: rest => .among true (rangesOf none (first :: rest))
  | cut => .among false (rangesOf none cut)

/-- Where the brackets end: behind their first character, which may be a bracket itself. -/
def cutSet (s : List Char) : Option (List Char × List Char) :=
  let lead :=
    match s with
    | '!' :: ']' :: _ => 2
    | '!' :: _ => 1
    | ']' :: _ => 1
    | _ => 0
  let inner := s.take lead ++ (s.drop lead).takeWhile (· != ']')
  match s.drop inner.length with
  | _ :: rest => some (inner, rest)
  | [] => none

/-! ## Reading and matching -/

def ofChars (s : List Char) : Nat → Pattern
  | 0 => []
  | fuel + 1 =>
    match s with
    | [] => []
    | '*' :: rest => .many :: ofChars rest fuel
    | '?' :: rest => .one :: ofChars rest fuel
    | '[' :: rest =>
      match cutSet rest with
      | some (inner, rest) => setOf inner :: ofChars rest fuel
      | none => .char '[' :: ofChars rest fuel
    | c :: rest => .char c :: ofChars rest fuel

def ofString (s : String) : Pattern := ofChars s.toList (s.length + 1)

end Pattern

namespace Glyph

/-- Whether the piece stands for this one character. -/
def holds (g : Glyph) (c : Char) : Bool :=
  match g with
  | many => true
  | one => true
  | char d => c == d
  | among negated ranges => (ranges.any fun r => r.1 ≤ c && c ≤ r.2) != negated

end Glyph

namespace Pattern

/-- Whether a pattern stands for the whole of a name. -/
def accepts (p : Pattern) (s : List Char) : Bool :=
  match p, s with
  | [], [] => true
  | [], _ :: _ => false
  | .many :: p, [] => accepts p []
  | .many :: p, c :: s => accepts p (c :: s) || accepts (.many :: p) s
  | g :: p, c :: s => g.holds c && accepts p s
  | _ :: _, [] => false
termination_by (p.length, s.length)

end Pattern

/-- Whether a name matches one of the patterns. -/
def matchesAny (patterns : List String) (name : String) : Bool :=
  patterns.any fun p => (Pattern.ofString p).accepts name.toList

end Assemblage
