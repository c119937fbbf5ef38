import Assemblage.Stack
import Assemblage.Yaml.Lexer
import Assemblage.Yaml.Scalar

/-!
The nodes of a document, each with the kind that its tag or its form gives it. An alias is
replaced by the node that it names; where that node is still open, so that it contains the alias,
`Node.cycle` stands for it. Collections are read one inside another as far as the stack has room
(`inside`), and a fault of the tokens is met where the first token behind them is looked at
(`peek`).
-/

namespace Assemblage.Yaml
set_option autoImplicit false

inductive Node where
  | scalar (kind : Kind) (content : RawText)
  | sequence (kind : Kind) (items : List Node)
  | mapping (kind : Kind) (entries : List (Node × Node))
  /-- A collection around this place, so many collections further out than the one that it stands
  in: a mapping or a sequence. -/
  | cycle (out : Nat) (isMapping : Bool)
  deriving Inhabited

namespace Node

/-- The node of a place where nothing is written. -/
def empty : Node := scalar .null []

/-- What a name stands for. -/
inductive Named where
  | node (node : Node)
  /-- A collection that is still open, inside so many others. -/
  | unfinished (level : Nat) (isMapping : Bool)

/-- What is known while the nodes of a document are put together. -/
structure Context where
  tokens : List Token
  /-- The fault behind the tokens, if the text does not end there. -/
  pending : Option Fault
  anchors : List (List Char × Named)
  handles : List (List Char × List Char)
  /-- How many collections are open. -/
  depth : Nat

abbrev Building := StateT Context (Except Fault)

def malformed {α : Type} : Building α := throw .malformed

/-- The next token; none at the end of the text. -/
def peek : Building (Option Token) := do
  let c ← get
  match c.tokens, c.pending with
  | [], some fault => throw fault
  | tokens, _ => return tokens.head?

def skip : Building Unit := modify fun c => { c with tokens := c.tokens.drop 1 }

/-- Takes the token off, if it comes next. -/
def accept (token : Token) : Building Bool := do
  if (← peek) == some token then
    skip
    return true
  else return false

def expect (token : Token) : Building Unit := do
  unless ← accept token do malformed

/-- Whether one of the tokens comes next, or the end. -/
def atOneOf (tokens : List Token) : Building Bool := do
  return (← peek).all tokens.contains

/-! ## Properties -/

def anchor? : Building (Option (List Char)) := do
  match ← peek with
  | some (.anchor name) =>
    skip
    return some name
  | _ => return none

def tag? : Building (Option (Option (List Char) × List Char)) := do
  match ← peek with
  | some (.tag handle suffix) =>
    skip
    return some (handle, suffix)
  | _ => return none

/-- The tag in full, its handle replaced by what the handle stands for. -/
def resolve : Option (Option (List Char) × List Char) → Building (Option (List Char))
  | none => return none
  | some (none, suffix) => return some suffix
  | some (some handle, suffix) => do
    match (← get).handles.lookup handle with
    | some full => return some (full ++ suffix)
    | none => malformed

/-- The anchor and the tag of a node, in either order. -/
def properties : Building (Option (List Char) × Option (List Char)) := do
  match ← anchor? with
  | some name =>
    let tag ← tag?
    return (some name, ← resolve tag)
  | none =>
    let tag ← tag?
    let anchor ← anchor?
    return (anchor, ← resolve tag)

/-- Lets the anchor, if there is one, stand for what it names. -/
def name (anchor : Option (List Char)) (named : Named) : Building Unit :=
  match anchor with
  | none => return ()
  | some name => modify fun c => { c with anchors := (name, named) :: c.anchors }

/-- Gives the node its name. -/
def declare (anchor : Option (List Char)) (node : Node) : Building Node := do
  name anchor (.node node)
  return node

/-- Reads what stands in a collection. -/
def inside [Stack] {α : Type} (body : Building α) : Building α := do
  let depth := (← get).depth
  if depth < Stack.nodes then
    modify fun c => { c with depth := depth + 1 }
    let a ← body
    modify fun c => { c with depth := depth }
    return a
  else throw .tooDeep

/-- Reads a collection that can be met inside itself. -/
def declareOpen [Stack] (anchor : Option (List Char)) (isMapping : Bool) (body : Building Node) :
    Building Node := do
  name anchor (.unfinished (← get).depth isMapping)
  declare anchor (← inside body)

/-- The node that a name stands for. -/
def referred (name : List Char) : Building Node := do
  let c ← get
  match c.anchors.lookup name with
  | some (.node node) => return node
  | some (.unfinished level isMapping) => return cycle (c.depth - 1 - level) isMapping
  | none => malformed

/-- A name is given once. -/
def checkNew (anchor : Option (List Char)) : Building Unit := do
  match anchor with
  | some name => if ((← get).anchors.lookup name).isSome then malformed
  | none => return ()

/-- Whether the tag leaves the kind to the form. -/
def isOpenTag (tag : Option (List Char)) : Bool := tag == none || tag == some ['!']

def collectionKind (tag : Option (List Char)) (usual : Kind) : Kind :=
  if isOpenTag tag then usual else .ofTag (tag.getD [])

/-- An exclamation mark as the tag lets the form decide even where quotes do not. -/
def scalarKind (tag : Option (List Char)) (plain : Bool) (content : RawText) : Kind :=
  if isOpenTag tag then
    if plain || tag.isSome then Plain.kind content.toChars else .text
  else .ofTag (tag.getD [])

/-! ## Nodes -/

variable [Stack]

mutual

/-- Reads a node. Block collections may stand only in a block; a sequence that is not indented
only behind a key of a block mapping. -/
def read (block unindented : Bool) : Nat → Building Node
  | 0 => malformed
  | fuel + 1 => do
    match ← peek with
    | some (.reference name) =>
      skip
      referred name
    | _ =>
      let (anchor, tag) ← properties
      let token ← peek
      checkNew anchor
      let items := sequence (collectionKind tag .sequence)
      let entries := mapping (collectionKind tag .mapping)
      match token with
      | some (.scalar content plain) =>
        skip
        declare anchor (scalar (scalarKind tag plain content) content)
      | some .flowSequenceStart =>
        skip
        declareOpen anchor false (items <$> readFlowItems true fuel)
      | some .flowMappingStart =>
        skip
        declareOpen anchor true (entries <$> readFlowPairs true fuel)
      | token =>
        if unindented && token == some .blockEntry then
          declareOpen anchor false (items <$> readUnindented fuel)
        else if block && token == some .blockSequenceStart then
          skip
          declareOpen anchor false (items <$> readBlockItems fuel)
        else if block && token == some .blockMappingStart then
          skip
          declareOpen anchor true (entries <$> readBlockPairs fuel)
        else if anchor.isSome || tag.isSome then
          declare anchor (scalar (scalarKind tag true []) [])
        else malformed

/-- Reads a node, or nothing in front of one of the tokens. -/
def readUnless (ends : List Token) (block unindented : Bool) : Nat → Building Node
  | 0 => malformed
  | fuel + 1 => do
    if ← atOneOf ends then return empty else read block unindented fuel

def readBlockItems : Nat → Building (List Node)
  | 0 => malformed
  | fuel + 1 => do
    if ← accept .blockEntry then
      let item ← readUnless [.blockEntry, .blockEnd] true false fuel
      return item :: (← readBlockItems fuel)
    else
      expect .blockEnd
      return []

def readUnindented : Nat → Building (List Node)
  | 0 => malformed
  | fuel + 1 => do
    if ← accept .blockEntry then
      let item ← readUnless [.blockEntry, .key, .value, .blockEnd] true false fuel
      return item :: (← readUnindented fuel)
    else return []

def readBlockPairs : Nat → Building (List (Node × Node))
  | 0 => malformed
  | fuel + 1 => do
    if ← accept .key then
      let key ← readUnless [.key, .value, .blockEnd] true true fuel
      let value ←
        if ← accept .value then readUnless [.key, .value, .blockEnd] true true fuel
        else pure empty
      return (key, value) :: (← readBlockPairs fuel)
    else
      expect .blockEnd
      return []

/-- Reads a key between brackets, and the value behind it; both may be left out in front of the
next entry and of the end. -/
def readPair (last : Token) : Nat → Building (Node × Node)
  | 0 => malformed
  | fuel + 1 => do
    let key ← readUnless [.value, .flowEntry, last] false false fuel
    let value ←
      if ← accept .value then readUnless [.flowEntry, last] false false fuel
      else pure empty
    return (key, value)

/-- Reads the items between brackets; a pair stands for a mapping of its own. -/
def readFlowItems (first : Bool) : Nat → Building (List Node)
  | 0 => malformed
  | fuel + 1 => do
    if ← accept .flowSequenceEnd then return []
    else
      unless first do expect .flowEntry
      if ← accept .key then
        let pair ← inside (readPair .flowSequenceEnd fuel)
        return mapping .mapping [pair] :: (← readFlowItems false fuel)
      else if ← accept .flowSequenceEnd then return []
      else
        let item ← read false false fuel
        return item :: (← readFlowItems false fuel)

/-- Reads the entries between braces; a key without a value has the empty one. -/
def readFlowPairs (first : Bool) : Nat → Building (List (Node × Node))
  | 0 => malformed
  | fuel + 1 => do
    if ← accept .flowMappingEnd then return []
    else
      unless first do expect .flowEntry
      if ← accept .key then
        let pair ← readPair .flowMappingEnd fuel
        return pair :: (← readFlowPairs false fuel)
      else if ← accept .flowMappingEnd then return []
      else
        let key ← read false false fuel
        return (key, empty) :: (← readFlowPairs false fuel)

end

/-! ## Documents -/

/-- The handles that need no directive. -/
def usualHandles : List (List Char × List Char) :=
  [(['!'], ['!']), (['!', '!'], Kind.standardPrefix)]

/-- Reads the directives in front of a document: one version at most, and each handle once. -/
def readDirectives (versions : Nat) (handles : List (List Char × List Char)) :
    Nat → Building Unit
  | 0 => malformed
  | fuel + 1 => do
    match ← peek with
    | some (.version major) =>
      skip
      if 0 < versions || major != 1 then malformed else readDirectives 1 handles fuel
    | some (.tagPrefix handle full) =>
      skip
      if (handles.lookup handle).isSome then malformed
      else readDirectives versions ((handle, full) :: handles) fuel
    | some .reserved =>
      skip
      readDirectives versions handles fuel
    | _ => modify fun c => { c with handles := handles ++ usualHandles }

/-- Skips the marks behind a document. -/
def skipEnds : Nat → Building Unit
  | 0 => malformed
  | fuel + 1 => do if ← accept .documentEnd then skipEnds fuel

/-- Reads the only document of a text; nothing at all is no document. -/
def readDocument (fuel : Nat) : Building (Option Node) := do
  match ← peek with
  | none => return none
  | some token =>
    let explicit :=
      match token with
      | .version _ | .tagPrefix .. | .reserved | .documentStart => true
      | _ => false
    let node ←
      if explicit then
        readDirectives 0 [] fuel
        expect .documentStart
        match ← peek with
        | none | some .documentStart | some .documentEnd | some .reserved | some (.version _)
        | some (.tagPrefix ..) => pure empty
        | _ => read true false fuel
      else read true false fuel
    skipEnds fuel
    if (← peek).isSome then
      readDirectives 0 [] fuel
      malformed
    else return some node

/-- The node of the only document of a text. -/
def ofTokens (tokens : Except Halt (List Token)) : Except Fault (Option Node) :=
  let (tokens, pending) :=
    match tokens with
    | .ok tokens => (tokens, none)
    | .error halt => (halt.tokens, some halt.fault)
  (readDocument (5 * tokens.length + 8)).run' ⟨tokens, pending, [], usualHandles, 0⟩

end Node

end Assemblage.Yaml
