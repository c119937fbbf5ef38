import Assemblage.Binary64.Layout
import Assemblage.Calendar
import Assemblage.Text.Quoted

/-!
Values of documents. Beside the values that a payload can carry there are those that only scene
and configuration files know: bytes, dates, sets, tuples, mappings with any keys, and the mark
of a collection that contains itself.
-/

namespace Assemblage
set_option autoImplicit false
open Assemblage.Text (Bytes)

inductive Value where
  | null
  | flag (b : Bool)
  | integer (n : Int)
  | real (x : Binary64)
  | text (t : RawText)
  | bytes (b : Bytes)
  | date (d : Date)
  | moment (m : Moment)
  | list (items : List Value)
  | tuple (items : List Value)
  | set (items : List Value)
  | mapping (entries : List (Value × Value))
  /-- A collection around this place, met again. -/
  | cycle
  deriving Inhabited

namespace Value

def ofString (s : String) : Value := text (RawText.ofString s)

def ofStrings (xs : List String) : Value := list (xs.map ofString)

/-- A mapping with texts as keys. -/
def record (fields : List (String × Value)) : Value :=
  mapping (fields.map fun field => (ofString field.1, field.2))

def ofStamp : Stamp → Value
  | .date d => date d
  | .moment m => moment m

/-- The name of the kind of a value. -/
def kindName : Value → String
  | null => "NoneType"
  | flag _ => "bool"
  | integer _ => "int"
  | real _ => "float"
  | text _ => "str"
  | bytes _ => "bytes"
  | date _ => "date"
  | moment _ => "datetime"
  | list _ => "list"
  | tuple _ => "tuple"
  | set _ => "set"
  | mapping _ => "dict"
  | cycle => "list"

/-! ## Equality -/

mutual

/-- Equality of values: of numbers by their size, of mappings and sets regardless of order. -/
def same : Value → Value → Bool
  | null, null => true
  | text s, text t => s == t
  | bytes a, bytes b => a == b
  | date d, date e => d == e
  | moment m, moment n => m == n
  | list xs, list ys => sameItems xs ys
  | tuple xs, tuple ys => sameItems xs ys
  | set xs, set ys => xs.length == ys.length && covers xs ys
  | mapping es, mapping fs => es.length == fs.length && coversEntries es fs
  | v, w => sameNumber v w

def sameItems : List Value → List Value → Bool
  | [], [] => true
  | x :: xs, y :: ys => same x y && sameItems xs ys
  | _, _ => false

def covers : List Value → List Value → Bool
  | [], _ => true
  | x :: xs, ys => ys.any (same x) && covers xs ys

def coversEntries : List (Value × Value) → List (Value × Value) → Bool
  | [], _ => true
  | (k, v) :: es, fs => fs.any (fun f => same k f.1 && same v f.2) && coversEntries es fs

/-- Equality of numbers, a flag being zero or one. -/
def sameNumber : Value → Value → Bool
  | flag a, flag b => a == b
  | flag a, integer n => (if a then 1 else 0) == n
  | flag a, real x => x.toInt? == some (if a then 1 else 0)
  | integer n, flag b => n == (if b then 1 else 0)
  | integer n, integer k => n == k
  | integer n, real x => x.toInt? == some n
  | real x, flag b => x.toInt? == some (if b then 1 else 0)
  | real x, integer n => x.toInt? == some n
  | real x, real y => x.sameNumber y
  | _, _ => false

end

/-- Puts an entry into a mapping: the last value of a key wins, at the place of the first. -/
def insert (key value : Value) : List (Value × Value) → List (Value × Value)
  | [] => [(key, value)]
  | (k, v) :: rest => if same k key then (k, value) :: rest else (k, v) :: insert key value rest

/-- The mapping of a run of entries. -/
def ofEntries (entries : List (Value × Value)) : Value :=
  mapping (entries.foldl (fun es e => insert e.1 e.2 es) [])

/-- The set of a run of items. -/
def ofItems (items : List Value) : Value :=
  set (items.foldl (fun xs x => if xs.any (same x) then xs else xs ++ [x]) [])

/-- The value of a text key in a mapping. -/
def lookup (key : String) : List (Value × Value) → Option Value
  | [] => none
  | (text t, v) :: rest => if t == RawText.ofString key then some v else lookup key rest
  | _ :: rest => lookup key rest

/-- Whether a value can be a key: no collection but a tuple of such values. -/
def isKey : Value → Bool
  | list _ | set _ | mapping _ | cycle => false
  | tuple items => isKeys items
  | _ => true
where
  isKeys : List Value → Bool
    | [] => true
    | x :: xs => isKey x && isKeys xs

/-! ## Quotations -/

def quotedDate (d : Date) : List Char :=
  s!"datetime.date({d.year}, {d.month}, {d.day})".toList

/-- A zone is quoted by whole days and the seconds that are left. -/
def quotedZone (minutes : Int) : List Char :=
  if minutes = 0 then "datetime.timezone.utc".toList
  else
    let days := minutes.fdiv 1440
    let seconds := minutes.fmod 1440 * 60
    let parts := (if days = 0 then "" else s!"days={days}, ") ++ s!"seconds={seconds}"
    s!"datetime.timezone(datetime.timedelta({parts}))".toList

def quotedMoment (m : Moment) : List Char :=
  let tail := if m.micro = 0 then (if m.second = 0 then [] else [m.second]) else [m.second, m.micro]
  let parts := [m.date.year, m.date.month, m.date.day, m.hour, m.minute] ++ tail
  "datetime.datetime(".toList ++ (", ".intercalate (parts.map toString)).toList ++
    ((m.offset.map fun minutes => ", tzinfo=".toList ++ quotedZone minutes).getD []) ++ [')']

def separated : List (List Char) → List Char
  | [] => []
  | [x] => x
  | x :: xs => x ++ ',' :: ' ' :: separated xs

mutual

/-- The quotation of a value in a message. -/
def quoted : Value → List Char
  | null => "None".toList
  | flag true => "True".toList
  | flag false => "False".toList
  | integer n => (toString n).toList
  | real x => Layout.message.write x
  | text t => Text.quoted t
  | bytes b => Text.quotedBytes b
  | date d => quotedDate d
  | moment m => quotedMoment m
  | list xs => '[' :: separated (quotedItems xs) ++ [']']
  | tuple [x] => '(' :: quoted x ++ [',', ')']
  | tuple xs => '(' :: separated (quotedItems xs) ++ [')']
  | set [] => "set()".toList
  | set xs => '\x7b' :: separated (quotedItems xs) ++ ['\x7d']
  | mapping es => '\x7b' :: separated (quotedEntries es) ++ ['\x7d']
  | cycle => "[...]".toList

def quotedItems : List Value → List (List Char)
  | [] => []
  | x :: xs => quoted x :: quotedItems xs

def quotedEntries : List (Value × Value) → List (List Char)
  | [] => []
  | (k, v) :: es => (quoted k ++ ':' :: ' ' :: quoted v) :: quotedEntries es

end

/-! ## Nesting -/

mutual

/-- How many collections stand around one another at most, those of keys aside. -/
def depth : Value → Nat
  | list xs => 1 + depthItems xs
  | tuple xs => 1 + depthItems xs
  | set xs => 1 + depthItems xs
  | mapping es => 1 + depthEntries es
  | _ => 0

def depthItems : List Value → Nat
  | [] => 0
  | x :: xs => max (depth x) (depthItems xs)

def depthEntries : List (Value × Value) → Nat
  | [] => 0
  | (_, v) :: es => max (depth v) (depthEntries es)

end

end Value

end Assemblage
