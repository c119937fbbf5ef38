import Assemblage.Base64
import Assemblage.Binary64.Read
import Assemblage.Value
import Assemblage.Yaml.Node

/-!
From nodes to values. The collections of a document are filled level by level, so that of several
faults the one nearest to the root is found first; a fault carries its level until then. Merge keys
and value keys are followed from one mapping into another as far as the stack has room. A mapping
that takes in one around it contains itself by the entry on the way down; the names of the entries
are those of the outer one, which are not known here, so that an entry of its own stands for them.
-/

namespace Assemblage.Yaml
set_option autoImplicit false
open Assemblage.Text

namespace Content

/-- The value of a node, or the level of the first fault in it and the fault. -/
abbrev Outcome (α : Type) := Except (Nat × Fault) α

/-- Both outcomes; of two faults the one on the lower level, the left one on the same level. -/
def both {α β : Type} : Outcome α → Outcome β → Outcome (α × β)
  | .ok a, .ok b => .ok (a, b)
  | .error e, .ok _ => .error e
  | .ok _, .error e => .error e
  | .error e, .error f => .error (if f.1 < e.1 then f else e)

/-! ## Scalars -/

/-- Drops the two characters of a base at the front. -/
def dropBase (letter : Char) (s : List Char) : List Char :=
  match s with
  | '0' :: c :: rest => if lowerAscii c == letter then rest else s
  | _ => s

/-- The value of a digit in any base up to sixteen. -/
def digitIn? (base : Nat) (c : Char) : Option Nat :=
  ((hexValue? c).or (digitValue? c)).filter (· < base)

/-- Reads an integer in a base; blanks, a sign and the mark of the base may stand in front. -/
def integerIn? (base : Nat) (letter : Option Char) (s : List Char) : Option Int :=
  let (negative, s) := Numeral.cutSign (trim isBlank s)
  let digits := ((letter.map fun l => dropBase l s).getD s).map (digitIn? base)
  if digits.isEmpty || digits.any (· == none) then none
  else
    let n := digits.foldl (fun n d => n * base + d.getD 0) 0
    some (if negative then -(n : Int) else n)

def decimalInteger? (s : List Char) : Option Int :=
  if decimalLimit < (s.filter isDigit).length then none else integerIn? 10 none s

def splitColon (s : List Char) : List (List Char) :=
  s.foldr
    (fun c parts =>
      match parts with
      | part :: rest => if c == ':' then [] :: part :: rest else (c :: part) :: rest
      | [] => [])
    [[]]

/-- The unsigned integer that a text writes. -/
def magnitude? (s : List Char) : Option Int :=
  match s with
  | ['0'] => some 0
  | '0' :: 'b' :: rest => integerIn? 2 (some 'b') rest
  | '0' :: 'x' :: rest => integerIn? 16 (some 'x') rest
  | '0' :: _ => integerIn? 8 (some 'o') s
  | _ =>
    if s.contains ':' then do
      let places ← (splitColon s).mapM decimalInteger?
      some (places.foldl (fun n place => n * 60 + place) 0)
    else decimalInteger? s

def integer (content : List Char) : Except Fault Value :=
  let s := content.filter (· != '_')
  let (negative, digits) := Numeral.cutSign s
  if digits.isEmpty then .error .emptyNumber
  else
    match magnitude? digits with
    | none => .error .impossible
    | some n => .ok (.integer (if negative then -n else n))

/-- The sum of sexagesimal places, the last one first, in the arithmetic of reals. The weight of
a place is an integer that has to become a real. -/
def sumPlaces (sum : Binary64) (weight : Nat) : List Binary64 → Except Fault Binary64
  | [] => .ok sum
  | place :: rest =>
    let factor := Binary64.ofInt weight
    if factor.isFinite then sumPlaces (sum.add (place.mul factor)) (weight * 60) rest
    else .error .tooLarge

def real (content : List Char) : Except Fault Value :=
  let s := (content.filter (· != '_')).map lowerAscii
  let (negative, digits) := Numeral.cutSign s
  let signed (x : Binary64) : Value := .real (if negative then x.neg else x)
  if s.isEmpty then .error .emptyNumber
  else if digits == ".inf".toList then .ok (signed (.infinite false))
  else if digits == ".nan".toList then .ok (.real .nan)
  else if digits.contains ':' then
    match (splitColon digits).mapM Numeral.real? with
    | none => .error .impossible
    | some places => (sumPlaces .zero 1 places.reverse).map signed
  else
    match Numeral.real? digits with
    | none => .error .impossible
    | some x => .ok (signed x)

def flag (content : List Char) : Except Fault Value :=
  let word := String.ofList (content.map lowerAscii)
  if ["yes", "true", "on"].contains word then .ok (.flag true)
  else if ["no", "false", "off"].contains word then .ok (.flag false)
  else .error .unknownFlag

def timestamp (content : List Char) : Except Fault Value :=
  let s := if content.getLast? == some '\n' then content.dropLast else content
  match Stamp.read s with
  | .ok stamp => .ok (.ofStamp stamp)
  | .error .form => .error .notTimestamp
  | .error .impossible => .error .impossible

def binary (content : RawText) : Except Fault Value :=
  match content.toChars? with
  | none => .error .malformed
  | some s =>
    if s.any fun c => 0x80 ≤ c.toNat then .error .malformed
    else
      match Base64.decodeLenient s with
      | none => .error .malformed
      | some bytes => .ok (.bytes bytes)

def scalar (kind : Kind) (content : RawText) : Except Fault Value :=
  match kind with
  | .null => .ok .null
  | .flag => flag content.toChars
  | .integer => integer content.toChars
  | .real => real content.toChars
  | .binary => binary content
  | .timestamp => timestamp content.toChars
  | .text => .ok (.text content)
  | _ => .error .malformed

/-! ## Mappings -/

def kindOf : Node → Kind
  | .scalar kind _ | .sequence kind _ | .mapping kind _ => kind
  | .cycle .. => .unknown

/-- The key that holds the scalar of a mapping is a text among other keys. -/
def asKey : Node → Node
  | .scalar .value content => .scalar .text content
  | .sequence .value items => .sequence .text items
  | .mapping .value entries => .mapping .text entries
  | key => key

/-- The entries that a merge key takes in through so many collections out of one that is around
them. A mapping takes nothing new out of itself. -/
def takenAround (through out : Nat) (isMapping : Bool) : List (Node × Node) :=
  if out < through then [] else [(.scalar .text [], .cycle out isMapping)]

variable [Stack]

mutual

/-- The entries that a merge key takes in through so many collections: those of a mapping, or those
of every mapping in a sequence, the first mapping last. -/
def taken (through : Nat) : Node → Except Fault (List (Node × Node))
  | .mapping _ entries =>
    if Stack.merges < through then .error .tooDeep
    else (split through entries).map fun p => p.1 ++ p.2
  | .sequence _ items => takenFrom (through + 1) items
  | .cycle out isMapping => .ok (takenAround through out isMapping)
  | .scalar .. => .error .malformed

def takenFrom (through : Nat) : List Node → Except Fault (List (Node × Node))
  | [] => .ok []
  | .mapping _ entries :: rest => do
    if Stack.merges < through then throw .tooDeep
    let (merged, own) ← split through entries
    return (← takenFrom through rest) ++ (merged ++ own)
  | .cycle out true :: rest => return (← takenFrom through rest) ++ takenAround through out true
  | _ :: _ => .error .malformed

/-- The entries that the merge keys of a mapping take in, and its own. -/
def split (through : Nat) :
    List (Node × Node) → Except Fault (List (Node × Node) × List (Node × Node))
  | [] => .ok ([], [])
  | (key, value) :: rest => do
    if kindOf key == .merge then
      let first ← taken (through + 1) value
      let (merged, own) ← split through rest
      return (first ++ merged, own)
    else
      let (merged, own) ← split through rest
      return (merged, (asKey key, value) :: own)

end

/-- The entries of a mapping, those that its merge keys take in before its own. -/
def flatten (entries : List (Node × Node)) : Except Fault (List (Node × Node)) :=
  (split 0 entries).map fun p => p.1 ++ p.2

/-- The scalar of a node: its own, or the one that a mapping holds under the value key. -/
def scalarOf (through : Nat) : Node → Except Fault RawText
  | .scalar _ content => .ok content
  | .mapping _ entries =>
    if Stack.merges < through then .error .tooDeep else inEntries (through + 1) entries
  | .sequence .. => .error .malformed
  | .cycle out _ => .error (if out < through then .tooDeep else .malformed)
where
  inEntries (through : Nat) : List (Node × Node) → Except Fault RawText
    | [] => .error .malformed
    | (key, value) :: rest =>
      if kindOf key == .value then scalarOf through value else inEntries through rest

def isScalar : Node → Bool
  | .scalar .. => true
  | _ => false

/-- Whether a value of this kind is made of the scalar of its node. -/
def hasScalar (kind : Kind) : Bool :=
  [.null, .flag, .integer, .real, .binary, .timestamp, .text].contains kind

/-- The value of a node that has a scalar. The form of a timestamp is looked for in the node
itself. -/
def single (node : Node) : Except Fault Value := do
  if !hasScalar (kindOf node) then throw .malformed
  let content ← scalarOf 0 node
  if kindOf node == .timestamp && !isScalar node then throw .notText
  scalar (kindOf node) content

/-! ## Nodes -/

/-- More levels than the node has. -/
def size : Node → Nat
  | .scalar .. | .cycle .. => 1
  | .sequence _ items => sizeItems items + 1
  | .mapping _ entries => sizeEntries entries + 1
where
  sizeItems : List Node → Nat
    | [] => 0
    | item :: rest => size item + sizeItems rest
  sizeEntries : List (Node × Node) → Nat
    | [] => 0
    | (key, value) :: rest => size key + size value + sizeEntries rest

def atLevel {α : Type} (level : Nat) (r : Except Fault α) : Outcome α :=
  r.mapError fun fault => (level, fault)

/-- A key has to be a value that can be compared; a collection is found out on its own level. -/
def checkKey (level : Nat) : Outcome Value → Outcome Value
  | .ok v => if v.isKey then .ok v else .error (level, .malformed)
  | .error (l, fault) => .error (level, if l = level then fault else .malformed)

/-- Every outcome of a list, or the first fault of the lowest level. -/
def all {α : Type} : List (Outcome α) → Outcome (List α)
  | [] => .ok []
  | x :: xs => (both x (all xs)).map fun p => p.1 :: p.2

/-- The value of a node met on a level; its items are met on the next one. -/
def build (level : Nat) (node : Node) : Nat → Outcome Value
  | 0 => .error (level, .malformed)
  | fuel + 1 =>
    let inner := level + 1
    let pair (entry : Node × Node) : Outcome (Value × Value) :=
      both (checkKey inner (build inner entry.1 fuel)) (build inner entry.2 fuel)
    let entries (node : Node) : Outcome (List (Value × Value)) :=
      match node with
      | .mapping _ entries =>
        match flatten entries with
        | .error fault => .error (inner, fault)
        | .ok flat => all (flat.map pair)
      | _ => .error (inner, .malformed)
    let pairOf (item : Node) : Outcome Value :=
      match item with
      | .mapping _ [(key, value)] =>
        (both (build inner key fuel) (build inner value fuel)).map fun p => .tuple [p.1, p.2]
      | _ => .error (inner, .malformed)
    match kindOf node, node with
    | _, .cycle .. => .ok .cycle
    | .sequence, .sequence _ items => (all (items.map fun item => build inner item fuel)).map .list
    | .sequence, _ => .error (inner, .malformed)
    | .mapping, node => (entries node).map .ofEntries
    | .set, node => (entries node).map fun es => .ofItems (es.map Prod.fst)
    | .orderedPairs, .sequence _ items => (all (items.map pairOf)).map .list
    | .orderedPairs, _ => .error (inner, .malformed)
    | .pairs, .sequence _ items => (all (items.map pairOf)).map .list
    | .pairs, _ => .error (inner, .malformed)
    | _, node => atLevel level (single node)

end Content

/-- The value of the only document of a text; nothing at all is null. -/
def load [Stack] (s : List Char) : Except Fault Value := do
  match ← Node.ofTokens (tokens s) with
  | none => .ok .null
  | some node => (Content.build 0 node (Content.size node + 1)).mapError Prod.snd

end Assemblage.Yaml
