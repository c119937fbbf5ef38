import Assemblage.Yaml.Token

/-!
From a text to its tokens. A key of a block mapping shows itself only at the colon behind it: the
lexer remembers where a key could begin on each level of brackets, and puts the tokens of a key
in front of it once the colon comes. Where the text breaks a rule, the tokens that no colon can
change any more are told in front of the fault.
-/

namespace Assemblage.Yaml
set_option autoImplicit false
open Assemblage.Text

/-- A place where a key may begin that the colon will tell. -/
structure Candidate where
  /-- How many tokens stand in front of it. -/
  number : Nat
  /-- Whether the text is wrong without a colon. -/
  required : Bool
  index : Nat
  line : Nat
  column : Nat

/-- Where the tokens of a text end in a fault: the ones that are told before it. -/
structure Halt where
  tokens : List Token
  fault : Fault
  deriving DecidableEq

structure Lexer where
  cursor : Cursor
  /-- The tokens so far, the last one first. -/
  tokens : List Token
  count : Nat
  /-- How many brackets are open. -/
  flow : Nat
  indent : Int
  indents : List Int
  allowKey : Bool
  /-- The candidates, with the level of brackets each belongs to. -/
  keys : List (Nat × Candidate)

namespace Lexer

def start (s : List Char) : Lexer := ⟨.start s, [], 0, 0, -1, [], true, []⟩

def push (l : Lexer) (token : Token) : Lexer :=
  { l with tokens := token :: l.tokens, count := l.count + 1 }

/-- Puts a token in front of the tokens from a number on. -/
def insertAt (l : Lexer) (number : Nat) (token : Token) : Lexer :=
  let behind := l.count - number
  { l with
    tokens := l.tokens.take behind ++ token :: l.tokens.drop behind
    count := l.count + 1 }

/-! ## Candidates for keys -/

/-- A key stands on one line and is at most 1024 characters long. -/
def isStale (l : Lexer) (key : Candidate) : Bool :=
  key.line != l.cursor.line || 1024 < l.cursor.index - key.index

def dropStale (l : Lexer) : Except Fault Lexer :=
  if l.keys.any fun entry => l.isStale entry.2 && entry.2.required then .error .malformed
  else .ok { l with keys := l.keys.filter fun entry => !l.isStale entry.2 }

def candidate? (l : Lexer) : Option Candidate :=
  (l.keys.find? fun entry => entry.1 = l.flow).map Prod.snd

def dropCandidate (l : Lexer) : Except Fault Lexer :=
  if l.candidate?.any (·.required) then .error .malformed
  else .ok { l with keys := l.keys.filter fun entry => entry.1 != l.flow }

def saveCandidate (l : Lexer) : Except Fault Lexer :=
  if l.allowKey then do
    let required := l.flow == 0 && l.indent == l.cursor.column
    let l ← l.dropCandidate
    .ok { l with
      keys := (l.flow, ⟨l.count, required, l.cursor.index, l.cursor.line, l.cursor.column⟩) ::
        l.keys }
  else .ok l

/-! ## Indentation -/

/-- Ends the blocks that are indented deeper than the column. -/
def unwind (l : Lexer) (column : Int) : Lexer :=
  if l.flow = 0 then go l l.indents else l
where
  go (l : Lexer) : List Int → Lexer
    | [] => l
    | outer :: rest =>
      if column < l.indent then go { l.push .blockEnd with indent := outer, indents := rest } rest
      else l

/-- Opens a block at the column, if it is deeper than the block around it. -/
def openBlock (l : Lexer) (column : Int) (place : Nat) (token : Token) : Lexer :=
  if l.indent < column then
    { l.insertAt place token with indent := column, indents := l.indent :: l.indents }
  else l

/-! ## The single tokens -/

/-- Moves to the next token, over spaces, comments and line breaks. -/
def skipToToken (l : Lexer) : Nat → Lexer
  | 0 => l
  | fuel + 1 =>
    let c := (l.cursor.skipRun (· == ' ')).skipComment
    match c.cutBreak with
    | none => { l with cursor := c }
    | some (_, next) =>
      skipToToken { l with cursor := next, allowKey := l.allowKey || l.flow == 0 } fuel

def skipMark (l : Lexer) : Lexer :=
  if l.cursor.index = 0 && l.cursor.head == '\ufeff' then { l with cursor := l.cursor.step } else l

/-- Ends every open block in front of a directive, a document marker or the end. -/
def closeBlocks (l : Lexer) : Except Fault Lexer := do
  let l ← (l.unwind (-1)).dropCandidate
  .ok { l with allowKey := false }

def indicator (l : Lexer) (length : Nat) (token : Token) : Lexer :=
  { l.push token with cursor := l.cursor.steps length }

def openFlow (l : Lexer) (token : Token) : Except Fault Lexer := do
  let l ← l.saveCandidate
  .ok { l.indicator 1 token with flow := l.flow + 1, allowKey := true }

def closeFlow (l : Lexer) (token : Token) : Except Fault Lexer := do
  let l ← l.dropCandidate
  if l.flow = 0 then .error .malformed
  else .ok { l.indicator 1 token with flow := l.flow - 1, allowKey := false }

def flowEntry (l : Lexer) : Except Fault Lexer := do
  let l ← l.dropCandidate
  .ok { l.indicator 1 .flowEntry with allowKey := true }

def blockEntry (l : Lexer) : Except Fault Lexer :=
  if l.flow = 0 && !l.allowKey then .error .malformed
  else do
    let l := if l.flow = 0 then l.openBlock l.cursor.column l.count .blockSequenceStart else l
    let l ← l.dropCandidate
    .ok { l.indicator 1 .blockEntry with allowKey := true }

/-- An explicit mark: a key behind a question mark, or a value without a key in front of it. -/
def explicitMark (l : Lexer) (token : Token) : Except Fault Lexer :=
  if l.flow = 0 && !l.allowKey then .error .malformed
  else do
    let l := if l.flow = 0 then l.openBlock l.cursor.column l.count .blockMappingStart else l
    let l ← l.dropCandidate
    .ok { l.indicator 1 token with allowKey := l.flow == 0 }

def value (l : Lexer) : Except Fault Lexer :=
  match l.candidate? with
  | some key =>
    let l := { l with keys := l.keys.filter fun entry => entry.1 != l.flow }
    let l := l.insertAt key.number .key
    let l := if l.flow = 0 then l.openBlock key.column key.number .blockMappingStart else l
    .ok { l.indicator 1 .value with allowKey := false }
  | none => l.explicitMark .value

/-- A token that may be a key, or a property in front of one. -/
def simple (l : Lexer) (cut : Except Fault (Token × Cursor)) : Except Fault Lexer := do
  let l ← l.saveCandidate
  let (token, cursor) ← cut
  .ok { l.push token with cursor := cursor, allowKey := false }

def plain (l : Lexer) : Except Fault Lexer := do
  let l ← l.saveCandidate
  let (token, broken, cursor) := l.cursor.cutPlain (0 < l.flow) l.indent
  .ok { l.push token with cursor := cursor, allowKey := broken }

def blockScalar (l : Lexer) : Except Fault Lexer := do
  let l ← l.dropCandidate
  let (token, cursor) ← l.cursor.cutBlockScalar l.indent
  .ok { l.push token with cursor := cursor, allowKey := true }

/-- Whether a plain scalar may start here. -/
def startsPlain (l : Lexer) : Bool :=
  let ch := l.cursor.head
  let next := l.cursor.peek 1
  !(isBlankOrEnd ch || "-?:,[]\x7b\x7d#&*!|>'\"%@`".toList.contains ch) ||
    (!isBlankOrEnd next && (ch == '-' || (l.flow == 0 && (ch == '?' || ch == ':'))))

/-- Reads the next token. At the end of the text the blocks are closed and the flag is off. -/
def next (l : Lexer) : Except Fault (Bool × Lexer) := do
  let l ← (l.skipMark.skipToToken l.cursor.fuel).dropStale
  let l := l.unwind l.cursor.column
  let c := l.cursor
  let ch := c.head
  let blankNext := isBlankOrEnd (c.peek 1)
  if isEnd ch then
    .ok (false, ← l.closeBlocks)
  else if ch == '%' && c.column = 0 then
    let l ← l.closeBlocks
    let (token, cursor) ← c.cutDirective
    .ok (true, { l.push token with cursor := cursor })
  else if c.column = 0 && c.atMarker then
    let l ← l.closeBlocks
    .ok (true, l.indicator 3 (if ch == '-' then .documentStart else .documentEnd))
  else if ch == '[' then return (true, ← l.openFlow .flowSequenceStart)
  else if ch == '\x7b' then return (true, ← l.openFlow .flowMappingStart)
  else if ch == ']' then return (true, ← l.closeFlow .flowSequenceEnd)
  else if ch == '\x7d' then return (true, ← l.closeFlow .flowMappingEnd)
  else if ch == ',' then return (true, ← l.flowEntry)
  else if ch == '-' && blankNext then return (true, ← l.blockEntry)
  else if ch == '?' && (0 < l.flow || blankNext) then return (true, ← l.explicitMark .key)
  else if ch == ':' && (0 < l.flow || blankNext) then return (true, ← l.value)
  else if ch == '*' then return (true, ← l.simple (c.cutName.map fun cut => (.reference cut.1, cut.2)))
  else if ch == '&' then return (true, ← l.simple (c.cutName.map fun cut => (.anchor cut.1, cut.2)))
  else if ch == '!' then return (true, ← l.simple c.cutTag)
  else if (ch == '|' || ch == '>') && l.flow = 0 then return (true, ← l.blockScalar)
  else if ch == '\'' || ch == '"' then return (true, ← l.simple c.cutQuoted)
  else if l.startsPlain then return (true, ← l.plain)
  else .error .malformed

/-- The tokens in front of every place where a key may still begin. -/
def settled (l : Lexer) : List Token :=
  let candidates := l.keys.filter fun entry => !l.isStale entry.2
  l.tokens.reverse.take (candidates.foldl (fun n entry => min n entry.2.number) l.count)

/-- The tokens of the text; every token takes at least one character. -/
def run (l : Lexer) : Nat → Except Halt (List Token)
  | 0 => .error ⟨l.settled, .malformed⟩
  | fuel + 1 => do
    let (more, l) ← l.next.mapError (Halt.mk l.settled)
    if more then run l fuel else .ok l.tokens.reverse

end Lexer

/-- The tokens of a text. A character that no text may hold is found before any of them. -/
def tokens (s : List Char) : Except Halt (List Token) :=
  if s.all isAllowed then (Lexer.start s).run (s.length + 1) else .error ⟨[], .malformed⟩

end Assemblage.Yaml
