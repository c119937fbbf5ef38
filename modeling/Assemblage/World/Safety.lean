import Assemblage.Json.Reader
import Assemblage.Schema
import Assemblage.Stack

/-!
What a payload can carry: nulls, truth values, texts, integers of 64 bits, finite numbers, lists,
and mappings with texts as keys. The first value that it cannot carry is found in the order of the
document, with its place; a key is looked at before its value.

Not every offence can be told. A search that goes deeper than the stack has room ends without a
message (`Value.prune`), and so does a message that would have to write an integer of more digits
than may be written (`Offence.text?`).
-/

namespace Assemblage
set_option autoImplicit false

/-! ## Quotations that can be written -/

namespace Value

mutual

/-- Whether every integer in the quotation of a value can be written. -/
def isQuotable : Value → Bool
  | integer n => Text.fitsDecimals n
  | list xs | tuple xs | set xs => areQuotable xs
  | mapping es => areQuotableEntries es
  | _ => true

def areQuotable : List Value → Bool
  | [] => true
  | x :: xs => isQuotable x && areQuotable xs

def areQuotableEntries : List (Value × Value) → Bool
  | [] => true
  | (k, v) :: es => isQuotable k && isQuotable v && areQuotableEntries es

end

end Value

/-! ## Offences -/

/-- What a payload cannot carry. -/
inductive Offence where
  | integer (n : Int)
  | notFinite (x : Binary64)
  | timestamp (text : List Char)
  | key (k : Value)
  | kind (name : String)
  /-- A collection that contains itself, or what is deeper than the stack has room. -/
  | endless

/-- What is said of an offence, if it can be written. -/
def Offence.text? : Offence → Option String
  | integer n =>
    if Text.fitsDecimals n then some s!"integer {n} exceeds 64-bit range" else none
  | notFinite x =>
    some ("non-finite number " ++ String.ofList (Layout.message.write x) ++ " is not supported")
  | timestamp text =>
    some ("timestamp " ++ String.ofList text ++ " is not supported; quote it to keep it as text")
  | key k =>
    if k.isQuotable then some ("mapping key " ++ String.ofList k.quoted ++ " must be a string")
    else none
  | kind name => some ("unsupported value of type " ++ name)
  | endless => none

/-- An offence and its place. -/
structure Offender where
  place : List Step
  offence : Offence

namespace Offender

def under (step : Step) (o : Offender) : Offender := { o with place := step :: o.place }

def stepText : Step → String
  | .name t => "." ++ t.toString
  | .number n => s!"[{n}]"

/-- The place as it is written behind the name of the whole. -/
def placeText (root : String) (place : List Step) : String :=
  place.foldl (fun s step => s ++ stepText step) root

/-- The message, if there is one. -/
def message? (root : String) (o : Offender) : Option String :=
  o.offence.text?.map fun text => placeText root o.place ++ ": " ++ text

def isEndless (o : Offender) : Bool :=
  match o.offence with
  | .endless => true
  | _ => false

end Offender

/-! ## The search -/

namespace Value

mutual

/-- The first value in a value that a payload cannot carry. -/
def offender? : Value → Option Offender
  | null => none
  | flag _ => none
  | text _ => none
  | integer n => if Json.isNarrow n then none else some ⟨[], .integer n⟩
  | real x => if x.isFinite then none else some ⟨[], .notFinite x⟩
  | date d => some ⟨[], .timestamp d.iso⟩
  | moment m => some ⟨[], .timestamp m.iso⟩
  | list xs => itemOffender? 0 xs
  | mapping es => entryOffender? es
  | bytes _ => some ⟨[], .kind "bytes"⟩
  | tuple _ => some ⟨[], .kind "tuple"⟩
  | set _ => some ⟨[], .kind "set"⟩
  | cycle => some ⟨[], .endless⟩

def itemOffender? (start : Nat) : List Value → Option Offender
  | [] => none
  | x :: xs =>
    match offender? x with
    | some o => some (o.under (.number start))
    | none => itemOffender? (start + 1) xs

def entryOffender? : List (Value × Value) → Option Offender
  | [] => none
  | (text t, v) :: es =>
    match offender? v with
    | some o => some (o.under (.name t))
    | none => entryOffender? es
  | (k, _) :: _ => some ⟨[], .key k⟩

end

mutual

/-- The value as a search of so many levels meets it: behind the last one it comes to no end. -/
def prune : Nat → Value → Value
  | 0, _ => cycle
  | n + 1, list xs => list (pruneItems n xs)
  | n + 1, mapping es => mapping (pruneEntries n es)
  | _ + 1, v => v

def pruneItems (n : Nat) : List Value → List Value
  | [] => []
  | x :: xs => prune n x :: pruneItems n xs

def pruneEntries (n : Nat) : List (Value × Value) → List (Value × Value)
  | [] => []
  | (k, v) :: es => (k, prune n v) :: pruneEntries n es

end

/-- The first value that a payload cannot carry, as far as the stack has room for the search. -/
def found? [Stack] (v : Value) : Option Offender := (v.prune Stack.values).offender?

end Value

end Assemblage
