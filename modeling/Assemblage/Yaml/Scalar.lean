import Assemblage.Calendar
import Assemblage.Text.Raw

/-!
The kinds of plain scalars. A scalar without quotes and tag is a truth value, a number, a
timestamp or another special word if it is written like one, and text otherwise.
-/

namespace Assemblage.Yaml
set_option autoImplicit false

/-- The standard tags. -/
inductive Kind where
  | null
  | flag
  | integer
  | real
  | binary
  | timestamp
  | text
  | sequence
  | mapping
  | set
  | orderedPairs
  | pairs
  /-- The key that takes in the entries of another mapping. -/
  | merge
  /-- The key that holds the scalar of a mapping. -/
  | value
  /-- The marks of the language itself. -/
  | mark
  | unknown
  deriving DecidableEq, Repr

namespace Kind

/-- The name of a standard tag behind its prefix. -/
def ofName (name : String) : Kind :=
  match name with
  | "null" => null
  | "bool" => flag
  | "int" => integer
  | "float" => real
  | "binary" => binary
  | "timestamp" => timestamp
  | "str" => text
  | "seq" => sequence
  | "map" => mapping
  | "set" => set
  | "omap" => orderedPairs
  | "pairs" => pairs
  | "merge" => merge
  | "value" => value
  | "yaml" => mark
  | _ => unknown

def standardPrefix : List Char := "tag:yaml.org,2002:".toList

def ofTag (tag : List Char) : Kind :=
  if standardPrefix.isPrefixOf tag then
    ofName (String.ofList (tag.drop standardPrefix.length))
  else unknown

end Kind

/-! ## Forms of plain scalars -/

namespace Plain

def nullWords : List String := ["", "~", "null", "Null", "NULL"]

def flagWords : List String :=
  ["yes", "Yes", "YES", "no", "No", "NO", "true", "True", "TRUE", "false", "False", "FALSE",
    "on", "On", "ON", "off", "Off", "OFF"]

def isDecimal (c : Char) : Bool := '0' ≤ c && c ≤ '9'

def isDecimalOrGap (c : Char) : Bool := isDecimal c || c == '_'

def dropSign : List Char → List Char
  | '+' :: rest => rest
  | '-' :: rest => rest
  | rest => rest

def isSign (c : Char) : Bool := c == '+' || c == '-'

/-- Whether the digits of a sexagesimal place follow, and what is behind them: one digit, or two
of which the first is at most five. -/
def cutSixty : List Char → Option (List Char)
  | ':' :: a :: b :: rest =>
    if '0' ≤ a && a ≤ '5' && isDecimal b then some rest
    else if isDecimal a then some (b :: rest)
    else none
  | [':', a] => if isDecimal a then some [] else none
  | _ => none

/-- Skips the sexagesimal places. -/
def skipSixties (s : List Char) : Nat → List Char
  | 0 => s
  | fuel + 1 =>
    match cutSixty s with
    | some rest => skipSixties rest fuel
    | none => s

def isHexOrGap (c : Char) : Bool :=
  isDecimalOrGap c || ('a' ≤ c && c ≤ 'f') || ('A' ≤ c && c ≤ 'F')

/-- Whether the text is written like an integer: binary, octal, decimal, hexadecimal, or decimal
with sexagesimal places behind it. -/
def isInteger (s : List Char) : Bool :=
  match dropSign s with
  | ['0'] => true
  | '0' :: 'b' :: rest => !rest.isEmpty && rest.all fun c => c == '0' || c == '1' || c == '_'
  | '0' :: 'x' :: rest => !rest.isEmpty && rest.all isHexOrGap
  | '0' :: rest => rest.all fun c => ('0' ≤ c && c ≤ '7') || c == '_'
  | c :: rest =>
    isDecimal c && (skipSixties (rest.dropWhile isDecimalOrGap) rest.length).isEmpty
  | [] => false

/-- Whether nothing follows, or an exponent with its sign. -/
def isExponent : List Char → Bool
  | [] => true
  | e :: sign :: digits =>
    (e == 'e' || e == 'E') && isSign sign && !digits.isEmpty && digits.all isDecimal
  | _ => false

/-- Whether a fraction follows: a point, then digits, then perhaps an exponent. -/
def isFraction (exponent : Bool) : List Char → Bool
  | '.' :: rest =>
    let tail := rest.dropWhile isDecimalOrGap
    tail.isEmpty || (exponent && isExponent tail)
  | _ => false

def infinityWords : List String := [".inf", ".Inf", ".INF"]

def nanWords : List String := [".nan", ".NaN", ".NAN"]

/-- Whether the text is written like a real number: it has a point, and an exponent has a sign. -/
def isReal (s : List Char) : Bool :=
  nanWords.contains (String.ofList s) || infinityWords.contains (String.ofList (dropSign s)) ||
    (match s with
      | '.' :: c :: rest => isDecimal c && isExponent (rest.dropWhile isDecimalOrGap)
      | _ => false) ||
    (match dropSign s with
      | c :: rest =>
        let tail := rest.dropWhile isDecimalOrGap
        let places := skipSixties tail tail.length
        isDecimal c && (isFraction true tail ||
          (places.length != tail.length && isFraction false places))
      | [] => false)

/-- Whether the text is written like a timestamp; a date alone needs all its digits. -/
def isTimestamp (s : List Char) : Bool :=
  match Stamp.form? s with
  | some (full, .date _) => full
  | some (_, .moment _) => true
  | none => false

/-- The kind of a scalar without quotes and tag. A line feed at the very end is overlooked. -/
def kind (s : List Char) : Kind :=
  let s := if s.getLast? == some '\n' then s.dropLast else s
  let word := String.ofList s
  if nullWords.contains word then .null
  else if flagWords.contains word then .flag
  else if isReal s then .real
  else if isInteger s then .integer
  else if isTimestamp s then .timestamp
  else if word == "<<" then .merge
  else if word == "=" then .value
  else if word == "!" || word == "&" || word == "*" then .mark
  else .text

end Plain

end Assemblage.Yaml
