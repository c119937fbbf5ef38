import Assemblage.Text.Digit
import Assemblage.Text.Raw
import Assemblage.Text.Utf8

/-!
The tokens of a YAML text. `Cursor` is a place in the text, with its line and column; the
functions on it take the pieces of a token off the text: names, tags, directives and the three
kinds of scalars.
-/

namespace Assemblage.Yaml
set_option autoImplicit false
open Assemblage.Text

/-- Why a text cannot be loaded. -/
inductive Fault where
  /-- The text breaks the rules of the language. -/
  | malformed
  /-- A number, a date or a character that does not exist. -/
  | impossible
  /-- A word that was tagged as a truth value and is none. -/
  | unknownFlag
  /-- No text at all, tagged as a number. -/
  | emptyNumber
  /-- A text that was tagged as a timestamp and has not the form of one. -/
  | notTimestamp
  /-- A mapping that was tagged as a timestamp and holds a scalar. -/
  | notText
  /-- A number that is too large for its place. -/
  | tooLarge
  /-- More collections around one another than the stack has room for. -/
  | tooDeep
  deriving DecidableEq, Repr

inductive Token where
  | version (major : Nat)
  | tagPrefix (handle : List Char) (value : List Char)
  | reserved
  | documentStart
  | documentEnd
  | blockSequenceStart
  | blockMappingStart
  | blockEnd
  | flowSequenceStart
  | flowSequenceEnd
  | flowMappingStart
  | flowMappingEnd
  | blockEntry
  | flowEntry
  | key
  | value
  | reference (name : List Char)
  | anchor (name : List Char)
  | tag (handle : Option (List Char)) (suffix : List Char)
  | scalar (content : RawText) (plain : Bool)
  deriving DecidableEq

/-! ## Character classes -/

/-- The characters a text may hold. -/
def isAllowed (c : Char) : Bool :=
  c == '\t' || c == '\n' || c == '\r' || (' ' ≤ c && c ≤ '~') || c == '\x85' ||
    ('\xa0' ≤ c && c ≤ '\ufffd') || 0x10000 ≤ c.toNat

def isBreak (c : Char) : Bool :=
  c == '\n' || c == '\r' || c == '\x85' || c == '\u2028' || c == '\u2029'

/-- The end of the text is shown as the null character, which no text may hold. -/
def isEnd (c : Char) : Bool := c == '\x00'

def isEndOrBreak (c : Char) : Bool := isEnd c || isBreak c

def isSpaceOrEnd (c : Char) : Bool := c == ' ' || isEndOrBreak c

def isBlankOrEnd (c : Char) : Bool := c == '\t' || isSpaceOrEnd c

def isFlowIndicator (c : Char) : Bool :=
  c == ',' || c == '[' || c == ']' || c == '\x7b' || c == '\x7d'

def isWord (c : Char) : Bool :=
  ('0' ≤ c && c ≤ '9') || ('A' ≤ c && c ≤ 'Z') || ('a' ≤ c && c ≤ 'z') || c == '-' || c == '_'

def isUriChar (c : Char) : Bool := isWord c || ";/?:@&=+$,.!~*'()[]%".toList.contains c

/-! ## Places in the text -/

/-- A place in the text: what is left, where it is, and how long the whole text is. -/
structure Cursor where
  rest : List Char
  index : Nat
  line : Nat
  column : Nat
  size : Nat

namespace Cursor

def start (s : List Char) : Cursor := ⟨s, 0, 0, 0, s.length⟩

/-- More steps than can be taken from here. -/
def fuel (c : Cursor) : Nat := c.size - c.index + 1

/-- The character some places ahead. -/
def peek (c : Cursor) (ahead : Nat) : Char := (c.rest[ahead]?).getD '\x00'

def head (c : Cursor) : Char := c.rest.headD '\x00'

/-- Goes one character ahead. A byte-order mark takes no column. -/
def step (c : Cursor) : Cursor :=
  match c.rest with
  | [] => c
  | ch :: rest =>
    if (isBreak ch && ch != '\r') || (ch == '\r' && rest.headD '\x00' != '\n') then
      ⟨rest, c.index + 1, c.line + 1, 0, c.size⟩
    else if ch == '\ufeff' then ⟨rest, c.index + 1, c.line, c.column, c.size⟩
    else ⟨rest, c.index + 1, c.line, c.column + 1, c.size⟩

def steps (c : Cursor) : Nat → Cursor
  | 0 => c
  | n + 1 => steps c.step n

/-- Takes the run of characters of a class off the text. -/
def takeRun (c : Cursor) (p : Char → Bool) : List Char × Cursor :=
  let run := c.rest.takeWhile p
  (run, c.steps run.length)

def skipRun (c : Cursor) (p : Char → Bool) : Cursor := (c.takeRun p).2

/-- Takes a line break off the text, if one is here. Every break but the two separators reads as
a line feed. -/
def cutBreak (c : Cursor) : Option (Char × Cursor) :=
  let ch := c.head
  if ch == '\r' && c.peek 1 == '\n' then some ('\n', c.steps 2)
  else if ch == '\u2028' || ch == '\u2029' then some (ch, c.step)
  else if isBreak ch then some ('\n', c.step)
  else none

def skipBreak (c : Cursor) : Cursor := (c.cutBreak.map Prod.snd).getD c

/-- Whether a document marker, three dashes or three dots, stands here on its own. -/
def atMarker (c : Cursor) : Bool :=
  (c.rest.take 3 == ['-', '-', '-'] || c.rest.take 3 == ['.', '.', '.']) && isBlankOrEnd (c.peek 3)

def skipComment (c : Cursor) : Cursor :=
  if c.head == '#' then c.skipRun fun ch => !isEndOrBreak ch else c

/-- Skips spaces and a comment up to the end of the line; nothing else may stand there. -/
def skipLineEnd (c : Cursor) : Except Fault Cursor :=
  let c := (c.skipRun (· == ' ')).skipComment
  if isEndOrBreak c.head then .ok c.skipBreak else .error .malformed

/-! ## Directives, names and tags -/

def cutNumber (c : Cursor) : Except Fault (Nat × Cursor) :=
  let (digits, c) := c.takeRun fun ch => '0' ≤ ch && ch ≤ '9'
  if digits.isEmpty then .error .malformed
  else if decimalLimit < digits.length then .error .impossible
  else .ok (digits.foldl (fun n d => n * 10 + (d.toNat - '0'.toNat)) 0, c)

/-- Takes the handle of a tag off the text: a word between two exclamation marks, or one mark in
front of a space. -/
def cutHandle (c : Cursor) : Except Fault (List Char × Cursor) :=
  if c.head != '!' then .error .malformed
  else
    let (word, next) := c.step.takeRun isWord
    if c.peek 1 == ' ' then .ok (['!'], c.step)
    else if next.head == '!' then .ok ('!' :: word ++ ['!'], next.step)
    else .error .malformed

/-- Reads a run of percent escapes as the bytes of a text. -/
def cutEscapes (c : Cursor) : Nat → Except Fault (Bytes × Cursor)
  | 0 => .error .malformed
  | fuel + 1 =>
    if c.head != '%' then .ok ([], c)
    else if isHex (c.peek 1) && isHex (c.peek 2) then do
      let (bytes, next) ← cutEscapes (c.steps 3) fuel
      .ok (UInt8.ofNat (hexNumber [c.peek 1, c.peek 2]) :: bytes, next)
    else .error .malformed

def cutUriParts (c : Cursor) : Nat → Except Fault (List Char × Cursor)
  | 0 => .error .malformed
  | fuel + 1 =>
    if c.head == '%' then do
      let (bytes, next) ← c.cutEscapes c.fuel
      match decodeUtf8 bytes with
      | .error _ => .error .malformed
      | .ok text =>
        let (more, next) ← cutUriParts next fuel
        .ok (text ++ more, next)
    else if isUriChar c.head then do
      let (more, next) ← cutUriParts c.step fuel
      .ok (c.head :: more, next)
    else .ok ([], c)

def cutUri (c : Cursor) : Except Fault (List Char × Cursor) := do
  let (uri, next) ← c.cutUriParts c.fuel
  if next.index = c.index then .error .malformed else .ok (uri, next)

/-- Reads the directive at a percent sign, up to the end of its line. -/
def cutDirective (c : Cursor) : Except Fault (Token × Cursor) := do
  let (name, c) := c.step.takeRun isWord
  if name.isEmpty || !isSpaceOrEnd c.head then .error .malformed
  else if name == "YAML".toList then
    let (major, c) ← (c.skipRun (· == ' ')).cutNumber
    if c.head != '.' then .error .malformed
    else
      let (_, c) ← c.step.cutNumber
      if isSpaceOrEnd c.head then .ok (.version major, ← c.skipLineEnd) else .error .malformed
  else if name == "TAG".toList then
    let (handle, c) ← (c.skipRun (· == ' ')).cutHandle
    if c.head != ' ' then .error .malformed
    else
      let (uri, c) ← (c.skipRun (· == ' ')).cutUri
      if isSpaceOrEnd c.head then .ok (.tagPrefix handle uri, ← c.skipLineEnd)
      else .error .malformed
  else .ok (.reserved, ← (c.skipRun fun ch => !isEndOrBreak ch).skipLineEnd)

/-- Reads the name behind an ampersand or an asterisk. -/
def cutName (c : Cursor) : Except Fault (List Char × Cursor) :=
  let (name, c) := c.step.takeRun isWord
  if name.isEmpty then .error .malformed
  else if isBlankOrEnd c.head || "?:,]\x7d%@`".toList.contains c.head then .ok (name, c)
  else .error .malformed

/-- Whether a second exclamation mark stands in the word here. -/
def hasHandle (c : Cursor) : Bool :=
  ((c.rest.drop 1).takeWhile fun ch => !isSpaceOrEnd ch).contains '!'

/-- Reads a tag: verbatim in angle brackets, a lone exclamation mark, or a handle and a suffix. -/
def cutTag (c : Cursor) : Except Fault (Token × Cursor) := do
  let (token, c) ←
    if c.peek 1 == '<' then
      let (uri, c) ← (c.steps 2).cutUri
      if c.head == '>' then .ok (Token.tag none uri, c.step) else .error .malformed
    else if isBlankOrEnd (c.peek 1) then .ok (Token.tag none ['!'], c.step)
    else if c.hasHandle then
      let (handle, c) ← c.cutHandle
      let (uri, c) ← c.cutUri
      .ok (Token.tag (some handle) uri, c)
    else
      let (uri, c) ← c.step.cutUri
      .ok (Token.tag (some ['!']) uri, c)
  if isSpaceOrEnd c.head then .ok (token, c) else .error .malformed

/-! ## Block scalars -/

/-- What happens to the line breaks at the end of a block scalar. -/
inductive Chomping where
  | clip
  | strip
  | keep
  deriving DecidableEq

def chomping? (ch : Char) : Option Chomping :=
  if ch == '+' then some .keep else if ch == '-' then some .strip else none

def indentation? (ch : Char) : Option Nat :=
  if '0' ≤ ch && ch ≤ '9' then some (ch.toNat - '0'.toNat) else none

/-- Reads the marks behind the sign of a block scalar, in either order. -/
def cutBlockMarks (c : Cursor) : Except Fault (Chomping × Option Nat × Cursor) :=
  let (chomping, increment, c) : Option Chomping × Option Nat × Cursor :=
    match chomping? c.head with
    | some chomping =>
      match indentation? c.step.head with
      | some n => (some chomping, some n, c.steps 2)
      | none => (some chomping, none, c.step)
    | none =>
      match indentation? c.head with
      | some n =>
        match chomping? c.step.head with
        | some chomping => (some chomping, some n, c.steps 2)
        | none => (none, some n, c.step)
      | none => (none, none, c)
  if increment == some 0 || !isSpaceOrEnd c.head then .error .malformed
  else .ok (chomping.getD .clip, increment, c)

/-- Skips empty lines in front of a block scalar whose indentation is found, not given: the
breaks, and the largest column reached. -/
def cutLeadingBreaks (c : Cursor) (largest : Nat) : Nat → List Char × Nat × Cursor
  | 0 => ([], largest, c)
  | fuel + 1 =>
    if c.head == ' ' then cutLeadingBreaks c.step (max largest c.step.column) fuel
    else
      match c.cutBreak with
      | some (br, next) =>
        let (breaks, largest, last) := cutLeadingBreaks next largest fuel
        (br :: breaks, largest, last)
      | none => ([], largest, c)

def skipIndent (c : Cursor) (indent : Nat) : Cursor :=
  c.steps ((c.rest.take (indent - c.column)).takeWhile (· == ' ')).length

/-- Skips empty lines inside a block scalar. -/
def cutBreaks (c : Cursor) (indent : Nat) : Nat → List Char × Cursor
  | 0 => ([], c)
  | fuel + 1 =>
    let c := c.skipIndent indent
    match c.cutBreak with
    | some (br, next) =>
      let (breaks, last) := cutBreaks next indent fuel
      (br :: breaks, last)
    | none => ([], c)

/-- Reads the lines of a block scalar; `breaks` are the empty lines in front of the next one. -/
def cutBlockLines (folded : Bool) (chomping : Chomping) (indent : Nat) (c : Cursor)
    (breaks : List Char) : Nat → List Char × Cursor
  | 0 => ([], c)
  | fuel + 1 =>
    if c.column = indent && !isEnd c.head then
      let leading := !(c.head == ' ' || c.head == '\t')
      let (line, next) := c.takeRun fun ch => !isEndOrBreak ch
      let br := (next.cutBreak.map fun cut => [cut.1]).getD []
      let (more, next) := next.skipBreak.cutBreaks indent next.fuel
      if next.column = indent && !isEnd next.head then
        let fold := folded && br == ['\n'] && leading && !(next.head == ' ' || next.head == '\t')
        let joint := if fold then (if more.isEmpty then [' '] else []) else br
        let (tail, last) := cutBlockLines folded chomping indent next more fuel
        (breaks ++ line ++ joint ++ tail, last)
      else
        let final := if chomping == .strip then [] else br
        (breaks ++ line ++ final ++ (if chomping == .keep then more else []), next)
    else (if chomping == .keep then breaks else [], c)

/-- Reads a block scalar inside a block of this indentation. -/
def cutBlockScalar (c : Cursor) (outer : Int) : Except Fault (Token × Cursor) := do
  let folded := c.head == '>'
  let (chomping, increment, c) ← c.step.cutBlockMarks
  let c ← c.skipLineEnd
  let least := (max 1 (outer + 1)).toNat
  let fuel := c.fuel
  let (breaks, indent, c) :=
    match increment with
    | none =>
      let (breaks, largest, c) := c.cutLeadingBreaks 0 fuel
      (breaks, max least largest, c)
    | some n =>
      let indent := least + n - 1
      let (breaks, c) := c.cutBreaks indent fuel
      (breaks, indent, c)
  let (content, c) := c.cutBlockLines folded chomping indent breaks fuel
  .ok (.scalar (RawText.ofChars content) false, c)

/-! ## Quoted scalars -/

/-- The character that a letter behind a backslash stands for. -/
def escaped? (ch : Char) : Option Char :=
  match ch with
  | '0' => some '\x00'
  | 'a' => some '\x07'
  | 'b' => some '\x08'
  | 't' => some '\t'
  | '\t' => some '\t'
  | 'n' => some '\n'
  | 'v' => some '\x0b'
  | 'f' => some '\x0c'
  | 'r' => some '\r'
  | 'e' => some '\x1b'
  | ' ' => some ' '
  | '"' => some '"'
  | '\\' => some '\\'
  | '/' => some '/'
  | 'N' => some '\x85'
  | '_' => some '\xa0'
  | 'L' => some '\u2028'
  | 'P' => some '\u2029'
  | _ => none

/-- The number of hexadecimal digits behind a letter behind a backslash. -/
def escapeWidth? (ch : Char) : Option Nat :=
  if ch == 'x' then some 2 else if ch == 'u' then some 4 else if ch == 'U' then some 8 else none

/-- The character with this code point. There is none behind the last one, and a number of more than
31 bits is no code point at all. -/
def codePoint (n : Nat) : Except Fault RawChar :=
  match RawChar.ofCode? n with
  | some char => .ok char
  | none => .error (if n < 0x80000000 then .impossible else .tooLarge)

/-- Skips the empty lines of a quoted scalar and the blanks in front of the next line. -/
def cutQuotedBreaks (c : Cursor) : Nat → Except Fault (List Char × Cursor)
  | 0 => .error .malformed
  | fuel + 1 =>
    if c.atMarker then .error .malformed
    else
      let c := c.skipRun isPadding
      match c.cutBreak with
      | some (br, next) => do
        let (breaks, last) ← cutQuotedBreaks next fuel
        .ok (br :: breaks, last)
      | none => .ok ([], c)
where
  isPadding (ch : Char) : Bool := ch == ' ' || ch == '\t'

/-- Reads what stands in a quoted scalar up to its closing quote. -/
def cutQuotedBody (double : Bool) (c : Cursor) : Nat → Except Fault (RawText × Cursor)
  | 0 => .error .malformed
  | fuel + 1 => do
    let ch := c.head
    let quote := if double then '"' else '\''
    if ch == '\'' && !double && c.peek 1 == '\'' then
      let (text, last) ← cutQuotedBody double (c.steps 2) fuel
      .ok (.char '\'' :: text, last)
    else if ch == quote then .ok ([], c.step)
    else if isEnd ch then .error .malformed
    else if ch == '\\' && double then
      let sign := c.peek 1
      match escaped? sign, escapeWidth? sign with
      | some char, _ =>
        let (text, last) ← cutQuotedBody double (c.steps 2) fuel
        .ok (.char char :: text, last)
      | none, some width =>
        let digits := (c.rest.drop 2).take width
        if digits.length = width && digits.all isHex then
          let char ← codePoint (hexNumber digits)
          let (text, last) ← cutQuotedBody double (c.steps (2 + width)) fuel
          .ok (char :: text, last)
        else .error .malformed
      | none, none =>
        match c.step.cutBreak with
        | none => .error .malformed
        | some (_, next) =>
          let (breaks, next) ← next.cutQuotedBreaks next.fuel
          let (text, last) ← cutQuotedBody double next fuel
          .ok (RawText.ofChars breaks ++ text, last)
    else if ch == ' ' || ch == '\t' || isBreak ch then
      let (blanks, next) := c.takeRun fun ch => ch == ' ' || ch == '\t'
      if isEnd next.head then .error .malformed
      else
        match next.cutBreak with
        | none =>
          let (text, last) ← cutQuotedBody double next fuel
          .ok (RawText.ofChars blanks ++ text, last)
        | some (br, next) =>
          let (breaks, next) ← next.cutQuotedBreaks next.fuel
          let joint := if br != '\n' then [br] else if breaks.isEmpty then [' '] else []
          let (text, last) ← cutQuotedBody double next fuel
          .ok (RawText.ofChars (joint ++ breaks) ++ text, last)
    else
      let (text, last) ← cutQuotedBody double c.step fuel
      .ok (.char ch :: text, last)

def cutQuoted (c : Cursor) : Except Fault (Token × Cursor) := do
  let (text, last) ← cutQuotedBody (c.head == '"') c.step c.fuel
  .ok (.scalar text false, last)

/-! ## Plain scalars -/

/-- Whether a plain scalar ends in front of this character. -/
def endsPlain (flow : Bool) (ch next : Char) : Bool :=
  isBlankOrEnd ch || (ch == ':' && (isBlankOrEnd next || (flow && isFlowIndicator next))) ||
    (flow && (ch == '?' || isFlowIndicator ch))

/-- The characters of a plain scalar up to the next blank or end. -/
def plainRun (flow : Bool) : List Char → List Char
  | [] => []
  | ch :: rest =>
    if endsPlain flow ch (rest.headD '\x00') then [] else ch :: plainRun flow rest

/-- Skips the lines between two parts of a plain scalar; `none` in front of a document marker. -/
def cutPlainBreaks (c : Cursor) : Nat → Option (List Char × Cursor) × Cursor
  | 0 => (none, c)
  | fuel + 1 =>
    if c.head == ' ' then cutPlainBreaks c.step fuel
    else
      match c.cutBreak with
      | none => (some ([], c), c)
      | some (br, next) =>
        if next.atMarker then (none, next)
        else
          match cutPlainBreaks next fuel with
          | (some (breaks, last), stop) => (some (br :: breaks, last), stop)
          | (none, stop) => (none, stop)

/-- Reads the blanks between two parts of a plain scalar: the text that joins them, whether a
line ended, and the place behind them. No text means that the scalar has ended. -/
def cutPlainJoint (c : Cursor) : List Char × Bool × Cursor :=
  let (blanks, next) := c.takeRun (· == ' ')
  match next.cutBreak with
  | none => (blanks, false, next)
  | some (br, next) =>
    if next.atMarker then ([], true, next)
    else
      match next.cutPlainBreaks next.fuel with
      | (none, stop) => ([], true, stop)
      | (some (breaks, last), _) =>
        ((if br != '\n' then [br] else if breaks.isEmpty then [' '] else []) ++ breaks, true, last)

/-- Reads the parts of a plain scalar behind a joint. The flag says that a line ended behind the
last part. -/
def cutPlainParts (flow : Bool) (indent : Nat) (c : Cursor) (joint : List Char) (broken : Bool) :
    Nat → List Char × Bool × Cursor
  | 0 => ([], broken, c)
  | fuel + 1 =>
    if c.head == '#' then ([], broken, c)
    else
      let run := plainRun flow c.rest
      if run.isEmpty then ([], broken, c)
      else
        let (next, broken, last) := (c.steps run.length).cutPlainJoint
        if next.isEmpty || last.head == '#' || (!flow && last.column < indent) then
          (joint ++ run, broken, last)
        else
          let (more, broken, last) := cutPlainParts flow indent last next broken fuel
          (joint ++ run ++ more, broken, last)

/-- Reads a plain scalar inside a block of this indentation. -/
def cutPlain (c : Cursor) (flow : Bool) (outer : Int) : Token × Bool × Cursor :=
  let (content, broken, last) :=
    cutPlainParts flow (outer + 1).toNat c [] false c.fuel
  (.scalar (RawText.ofChars content) true, broken, last)

end Cursor

end Assemblage.Yaml
