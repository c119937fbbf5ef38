import Assemblage.Text.Quoted

/-!
Templates with one named field. A field in braces is replaced by the field's text; it may pick
characters of the text by number, quote the text, and lay it out in a width. Doubled braces stand
for themselves.
-/

namespace Assemblage.Template
set_option autoImplicit false
open Assemblage.Text

/-- Why a template cannot be filled. -/
inductive Fault where
  /-- A brace without its partner, or a quotation or layout that does not exist. -/
  | malformed
  /-- A field with another name. -/
  | unknownField
  /-- A field by number, or a character behind the end of the text. -/
  | outOfRange
  /-- A part of the text by name. -/
  | noSuchPart
  /-- A character by name instead of number. -/
  | notANumber
  deriving DecidableEq, Repr

/-! ## The parts of a field -/

/-- Reads the name of a field up to the mark that ends it; brackets protect such marks. -/
def cutName (inBrackets : Bool) : List Char → Except Fault (List Char × Char × List Char)
  | [] => .error .malformed
  | c :: rest =>
    if inBrackets then
      (cutName (c != ']') rest).map fun cut => (c :: cut.1, cut.2)
    else if c == '\x7b' then .error .malformed
    else if c == '\x7d' || c == ':' || c == '!' then .ok ([], c, rest)
    else (cutName (c == '[') rest).map fun cut => (c :: cut.1, cut.2)

/-- Reads a layout up to the brace that closes the field. -/
def cutLayout (opened : Nat) : List Char → Except Fault (List Char × List Char)
  | [] => .error .malformed
  | c :: rest =>
    if c == '\x7d' && opened == 0 then .ok ([], rest)
    else
      let opened := if c == '\x7b' then opened + 1 else if c == '\x7d' then opened - 1 else opened
      (cutLayout opened rest).map fun cut => (c :: cut.1, cut.2)

/-- A field: its name, the letter of its quotation, its layout, and what is behind it. -/
structure Field where
  name : List Char
  quotation : Option Char
  layout : List Char
  rest : List Char

def cutField (s : List Char) : Except Fault Field := do
  let (name, mark, rest) ← cutName false s
  if mark == '\x7d' then return ⟨name, none, [], rest⟩
  else if mark == ':' then
    let (layout, rest) ← cutLayout 0 rest
    return ⟨name, none, layout, rest⟩
  else
    match rest with
    | [] => .error .malformed
    | letter :: '\x7d' :: rest => return ⟨name, some letter, [], rest⟩
    | letter :: ':' :: rest =>
      let (layout, rest) ← cutLayout 0 rest
      return ⟨name, some letter, layout, rest⟩
    | _ => .error .malformed

/-! ## Picking characters -/

/-- The greatest number that a template may hold. -/
def greatest : Nat := 9223372036854775807

/-- Reads a number, which may be missing and must not be too large. -/
def cutNumber (s : List Char) : Except Fault (Option Nat × List Char) :=
  let digits := s.takeWhile isDigit
  let n := digits.foldl (fun n c => n * 10 + (digitValue? c).getD 0) 0
  if greatest < n then .error .malformed
  else .ok (if digits.isEmpty then none else some n, s.dropWhile isDigit)

/-- The number that a name writes, if it has nothing but digits. -/
def number? (s : List Char) : Except Fault (Option Nat) :=
  (cutNumber s).map fun cut => if cut.2.isEmpty then cut.1 else none

/-- Follows the steps behind the name of a field: numbers in brackets. A step by name is refused,
whatever the name: what a text would show under it is not the same in every run. -/
def pick (text : List Char) (steps : List Char) : Nat → Except Fault (List Char)
  | 0 => .error .malformed
  | fuel + 1 =>
    match steps with
    | [] => .ok text
    | '.' :: rest =>
      if (rest.takeWhile fun c => c != '.' && c != '[').isEmpty then .error .malformed
      else .error .noSuchPart
    | '[' :: rest =>
      let inner := rest.takeWhile (· != ']')
      match rest.dropWhile (· != ']') with
      | [] => .error .malformed
      | _ :: rest =>
        if inner.isEmpty then .error .malformed
        else
          match number? inner with
          | .error fault => .error fault
          | .ok none => .error .notANumber
          | .ok (some n) =>
            match text[n]? with
            | some c => pick [c] rest fuel
            | none => .error .outOfRange
    | _ => .error .malformed

def isStepMark (c : Char) : Bool := c == '.' || c == '['

/-- The text of a field by its name. -/
def look (field text name : List Char) : Except Fault (List Char) := do
  let first := name.takeWhile fun c => !isStepMark c
  let position ← number? first
  if first.isEmpty || position.isSome then .error .outOfRange
  else if first != field then .error .unknownField
  else pick text (name.dropWhile fun c => !isStepMark c) (name.length + 1)

def quote (letter : Option Char) (text : List Char) : Except Fault (List Char) :=
  match letter with
  | none => .ok text
  | some 's' => .ok text
  | some 'r' => .ok (quoted (RawText.ofChars text))
  | some 'a' => .ok (quotedAscii (RawText.ofChars text))
  | some _ => .error .malformed

/-! ## Layouts -/

inductive Side where
  | left
  | right
  | middle
  deriving DecidableEq

/-- The alignment of a mark; `some none` for the one that only numbers have. -/
def side? (c : Char) : Option (Option Side) :=
  match c with
  | '<' => some (some .left)
  | '>' => some (some .right)
  | '^' => some (some .middle)
  | '=' => some none
  | _ => none

/-- Reads a fill character and an alignment. -/
def cutAlignment (s : List Char) : Option Char × Option (Option Side) × List Char :=
  match s with
  | a :: b :: rest =>
    match side? b, side? a with
    | some side, _ => (some a, some side, rest)
    | none, some side => (none, some side, b :: rest)
    | none, none => (none, none, s)
  | [a] =>
    match side? a with
    | some side => (none, some side, [])
    | none => (none, none, s)
  | [] => (none, none, [])

/-- Reads the most characters that are kept, behind a point. -/
def cutLength (s : List Char) : Except Fault (Option Nat × List Char) :=
  match s with
  | '.' :: rest =>
    match cutNumber rest with
    | .ok (none, _) => .error .malformed
    | cut => cut
  | _ => .ok (none, s)

def pad (fill : Char) (side : Side) (width : Nat) (text : List Char) : List Char :=
  let gap := width - text.length
  let before :=
    match side with
    | .left => 0
    | .right => gap
    | .middle => gap / 2
  List.replicate before fill ++ text ++ List.replicate (gap - before) fill

/-- Lays a text out: fill, alignment, width, length, and the letter of a text. A sign, a group
mark or another letter belongs to numbers and is refused. -/
def layOut (layout text : List Char) : Except Fault (List Char) := do
  let (fill, side, s) := cutAlignment layout
  let (fill, s) :=
    match fill, s with
    | none, '0' :: rest => ('0', rest)
    | fill, s => (fill.getD ' ', s)
  let (width, s) ← cutNumber s
  let (length, s) ← cutLength s
  if s != [] && s != ['s'] then .error .malformed
  else
    match side.getD (some .left) with
    | none => .error .malformed
    | some side =>
      let text := (length.map fun n => text.take n).getD text
      return pad fill side (width.getD 0) text

/-! ## Filling -/

/-- Fills a template; layouts may hold fields as often as `depth` allows. -/
def fillFrom (field text : List Char) (depth : Nat) (s : List Char) :
    Nat → Except Fault (List Char)
  | 0 => .error .malformed
  | fuel + 1 => do
    match s with
    | [] => return []
    | '\x7b' :: '\x7b' :: rest => return '\x7b' :: (← fillFrom field text depth rest fuel)
    | '\x7d' :: '\x7d' :: rest => return '\x7d' :: (← fillFrom field text depth rest fuel)
    | '\x7d' :: _ => .error .malformed
    | '\x7b' :: rest =>
      let f ← cutField rest
      let picked ← look field text f.name
      let picked ← quote f.quotation picked
      let layout ←
        if f.layout.contains '\x7b' then
          match depth with
          | 0 => .error .malformed
          | depth + 1 => fillFrom field text depth f.layout fuel
        else .ok f.layout
      let picked ← layOut layout picked
      return picked ++ (← fillFrom field text depth f.rest fuel)
    | c :: rest => return c :: (← fillFrom field text depth rest fuel)

/-- Fills a template in which the field has this name and text. -/
def fill (field text template : List Char) : Except Fault (List Char) :=
  fillFrom field text 1 template (template.length + 1)

end Assemblage.Template
