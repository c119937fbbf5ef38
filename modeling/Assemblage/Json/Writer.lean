import Assemblage.Value

/-!
Writing a value as JSON without spaces. The keys of a mapping are sorted by code points, which is
the order of their UTF-8 bytes, so that the text does not depend on the order of the entries.
-/

namespace Assemblage.Json
set_option autoImplicit false
open Assemblage.Text

/-- The letter that stands for a control character behind a backslash. -/
def escapeLetter? (c : Char) : Option Char :=
  match c with
  | '\x08' => some 'b'
  | '\t' => some 't'
  | '\n' => some 'n'
  | '\x0c' => some 'f'
  | '\r' => some 'r'
  | '"' => some '"'
  | '\\' => some '\\'
  | _ => none

def writeChar (c : Char) : List Char :=
  match escapeLetter? c with
  | some letter => ['\\', letter]
  | none => if c < ' ' then '\\' :: 'u' :: hexDigits false 4 c.toNat else [c]

def writeChars (s : List Char) : List Char := '"' :: s.flatMap writeChar ++ ['"']

/-- A text in quotes; there is none for half of a surrogate pair. -/
def writeText? (t : RawText) : Option (List Char) := t.toChars?.map writeChars

def joined : List (List Char) → List Char
  | [] => []
  | [x] => x
  | x :: xs => x ++ ',' :: joined xs

def sorted (entries : List (RawText × List Char)) : List (RawText × List Char) :=
  entries.mergeSort fun a b => RawText.le a.1 b.1

mutual

/-- The text of a value; none for a value that the format does not know. -/
def write? : Value → Option (List Char)
  | .null => some "null".toList
  | .flag b => some (if b then "true" else "false").toList
  | .integer n => some (toString n).toList
  | .real x => some (Layout.payload.write x)
  | .text t => writeText? t
  | .list xs => (writeItems? xs).map fun items => '[' :: joined items ++ [']']
  | .mapping es =>
    (writeEntries? es).map fun entries => '\x7b' :: joined ((sorted entries).map (·.2)) ++ ['\x7d']
  | _ => none

def writeItems? : List Value → Option (List (List Char))
  | [] => some []
  | x :: xs => do
    let item ← write? x
    return item :: (← writeItems? xs)

/-- The entries, each with the key it is sorted by. -/
def writeEntries? : List (Value × Value) → Option (List (RawText × List Char))
  | [] => some []
  | (.text t, v) :: es => do
    let key ← writeText? t
    let value ← write? v
    return (t, key ++ ':' :: value) :: (← writeEntries? es)
  | _ :: _ => none

end

end Assemblage.Json
