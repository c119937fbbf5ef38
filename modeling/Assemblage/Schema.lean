import Assemblage.Binary64.Read
import Assemblage.Value

/-!
Checking values against what is expected of them. A check either gives the checked value or the
list of all problems, each with its place; records are checked field by field, and the problems
stand in the order of the fields.
-/

namespace Assemblage
set_option autoImplicit false
open Assemblage.Text

/-- A step from a collection to what is in it. -/
inductive Step where
  | name (t : RawText)
  | number (n : Int)
  deriving DecidableEq

/-- What is wrong at a place. -/
inductive Mismatch where
  | missing
  | text
  | textEncoding
  | flag
  | flagText
  | integer
  | integerText
  | integerFraction
  | integerSize
  | notFinite
  | notAbove
  | notAtLeast
  | list
  | tuple
  | mapping
  | record
  | choice
  | path
  | tooFew
  | nesting
  | bytes
  deriving DecidableEq, Repr

structure Problem where
  place : List Step
  mismatch : Mismatch
  deriving DecidableEq

/-- The outcome of a check: the value, or every problem. -/
inductive Checked (α : Type) where
  | ok (value : α)
  | bad (problems : List Problem)

namespace Checked

/-- Both values; the problems of the first stand before those of the second. -/
def seq {α β : Type} : Checked (α → β) → (Unit → Checked α) → Checked β
  | ok f, x =>
    match x () with
    | ok a => ok (f a)
    | bad ps => bad ps
  | bad ps, x =>
    match x () with
    | ok _ => bad ps
    | bad qs => bad (ps ++ qs)

instance : Applicative Checked where
  pure := ok
  seq := seq

def fail {α : Type} (m : Mismatch) : Checked α := bad [⟨[], m⟩]

/-- The problems seen from one step further out. -/
def under {α : Type} (step : Step) : Checked α → Checked α
  | ok a => ok a
  | bad ps => bad (ps.map fun p => { p with place := step :: p.place })

/-- Checks the value further. -/
def andThen {α β : Type} : Checked α → (α → Checked β) → Checked β
  | ok a, f => f a
  | bad ps, _ => bad ps

def toExcept {α : Type} : Checked α → Except (List Problem) α
  | ok a => .ok a
  | bad ps => .error ps

end Checked

namespace Schema

/-! ## Scalars -/

/-- A text, or bytes that are UTF-8. -/
def text : Value → Checked RawText
  | .text t => .ok t
  | .bytes b =>
    match decodeUtf8 b with
    | .ok s => .ok (RawText.ofChars s)
    | .error _ => .fail .textEncoding
  | _ => .fail .text

/-- A text as a string of characters. Half of a surrogate pair is none; the replacement character
stands for it from here on. -/
def string (v : Value) : Checked String := RawText.toString <$> text v

/-- What may be null. -/
def optional {α : Type} (check : Value → Checked α) : Value → Checked (Option α)
  | .null => .ok none
  | v => some <$> check v

def flagWords : List (String × Bool) :=
  [("0", false), ("off", false), ("f", false), ("false", false), ("n", false), ("no", false),
    ("1", true), ("on", true), ("t", true), ("true", true), ("y", true), ("yes", true)]

/-- The word of a text, if it is one: texts, and bytes that are UTF-8. -/
def word? : Value → Option (List Char)
  | .text t => some t.toChars
  | .bytes b =>
    match decodeUtf8 b with
    | .ok s => some s
    | .error _ => none
  | _ => none

/-- The largest size of a number of 64 bits with a sign, which no number reaches. -/
def signedLimit : Int := 9223372036854775808

def flagOfInteger (n : Int) : Checked Bool :=
  if n = 0 then .ok false
  else if n = 1 then .ok true
  else if -signedLimit ≤ n && n < signedLimit then .fail .flagText
  else .fail .flag

/-- A truth value, also as a number or as a word. -/
def flag (v : Value) : Checked Bool :=
  match v with
  | .flag b => .ok b
  | .integer n => flagOfInteger n
  | .real x =>
    match x.toInt? with
    | some n => if n.natAbs < signedLimit then flagOfInteger n else .fail .flag
    | none => .fail .flag
  | v =>
    match word? v with
    | some s =>
      match flagWords.lookup (String.ofList (s.map lowerAscii)) with
      | some b => .ok b
      | none => .fail .flagText
    | none => .fail .flag

/-- Drops a fraction of nothing but zeros, and of one at least. -/
def dropZeroFraction (s : List Char) : List Char :=
  let zeros := (s.dropWhile (· != '.')).drop 1
  if !zeros.isEmpty && zeros.all (· == '0') then s.takeWhile (· != '.') else s

/-- Reads an integer in decimal; a single underscore may stand between two digits. -/
def readInteger? (s : List Char) : Option Int :=
  let (negative, digits) := Numeral.cutSign (dropZeroFraction (trim Numeral.isMargin s))
  match Numeral.dropUnderscores Stamp.isDecimal digits with
  | some digits =>
    if digits.isEmpty || !digits.all Stamp.isDecimal then none
    else
      let n : Int := Stamp.decimal digits
      some (if negative then -n else n)
  | none => none

/-- An integer, also as a truth value, as a real number without a fraction, or in digits, of which
it may not have too many. -/
def integer (v : Value) : Checked Int :=
  match v with
  | .integer n => .ok n
  | .flag b => .ok (if b then 1 else 0)
  | .real x =>
    match x.isFinite, x.toInt? with
    | false, _ => .fail .notFinite
    | true, none => .fail .integerFraction
    | true, some n => if n.natAbs < signedLimit then .ok n else .fail .integerSize
  | .text _ | .bytes _ =>
    match (word? v).bind readInteger? with
    | some n => if fitsDecimals n then .ok n else .fail .integerSize
    | none => .fail .integerText
  | _ => .fail .integer

def atLeast (least : Int) (n : Int) : Checked Int :=
  if least ≤ n then .ok n else .fail .notAtLeast

def above (bound : Int) (n : Int) : Checked Int := if bound < n then .ok n else .fail .notAbove

/-- One of some words. -/
def choice {α : Type} (words : List (String × α)) (v : Value) : Checked α :=
  match v with
  | .text t =>
    match words.lookup t.toString with
    | some a => .ok a
    | none => .fail .choice
  | _ => .fail .choice

def bytes : Value → Checked Bytes
  | .bytes b => .ok b
  | .text t => .ok (encodeUtf8 t.toChars)
  | _ => .fail .bytes

/-! ## Collections -/

/-- Checks every item, from the given number on. -/
def itemsFrom {α : Type} (check : Value → Checked α) (start : Nat) :
    List Value → Checked (List α)
  | [] => .ok []
  | x :: xs =>
    List.cons <$> (check x).under (.number start) <*> itemsFrom check (start + 1) xs

/-- The items of a list, a tuple or a set. -/
def items? : Value → Option (List Value)
  | .list xs | .tuple xs | .set xs => some xs
  | _ => none

def listOf {α : Type} (check : Value → Checked α) (v : Value) : Checked (List α) :=
  match items? v with
  | some xs => itemsFrom check 0 xs
  | none => .fail .list

def tupleOf {α : Type} (check : Value → Checked α) (v : Value) : Checked (List α) :=
  match items? v with
  | some xs => itemsFrom check 0 xs
  | none => .fail .tuple

/-- A list with an item at least; if there is none, the problems of the items come first. -/
def someOf {α : Type} (check : Value → Checked α) (v : Value) : Checked (List α) :=
  match items? v with
  | none => .fail .tuple
  | some xs =>
    let isGood (x : Value) : Bool :=
      match check x with
      | .ok _ => true
      | .bad _ => false
    if xs.any isGood then itemsFrom check 0 xs
    else (fun items _ => items) <$> itemsFrom check 0 xs <*> (.fail .tooFew : Checked Unit)

/-- The place of a key in a mapping. -/
def keyStep : Value → Step
  | .text t => .name t
  | .integer n => .number n
  | .flag b => .number (if b then 1 else 0)
  | k => .name (RawText.ofChars k.quoted)

/-- An entry in front of others. A later value of its key wins, at the place of the first. -/
def inFront (t : RawText) (v : Value) (rest : List (RawText × Value)) : List (RawText × Value) :=
  (t, (rest.lookup t).getD v) :: rest.filter fun e => e.1 != t

/-- A mapping with texts as keys and any values. -/
def dictionary : Value → Checked (List (RawText × Value))
  | .mapping es => entries es
  | _ => .fail .mapping
where
  entries : List (Value × Value) → Checked (List (RawText × Value))
    | [] => .ok []
    | (k, v) :: es =>
      (fun t rest => inFront t v rest) <$>
        ((text k).under (.name (RawText.ofString "[key]"))).under (keyStep k) <*> entries es

/-! ## Records -/

/-- The entries of a record. -/
def record {α : Type} (check : List (Value × Value) → Checked α) : Value → Checked α
  | .mapping es => check es
  | _ => .fail .record

/-- A field that must be there. -/
def required {α : Type} (es : List (Value × Value)) (name : String) (check : Value → Checked α) :
    Checked α :=
  match Value.lookup name es with
  | some v => (check v).under (.name (RawText.ofString name))
  | none => (Checked.fail .missing).under (.name (RawText.ofString name))

/-- A field with a value for where it is not there. -/
def defaulted {α : Type} (es : List (Value × Value)) (name : String) (value : α)
    (check : Value → Checked α) : Checked α :=
  match Value.lookup name es with
  | some v => (check v).under (.name (RawText.ofString name))
  | none => .ok value

end Schema

end Assemblage
