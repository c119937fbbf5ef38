import Assemblage.Value

/-!
Reading JSON strictly. `Limits` says how deep collections may be nested, whether integers beyond
64 bits stay integers, and whether an escape may name half of a surrogate pair.
-/

namespace Assemblage.Json
set_option autoImplicit false
open Assemblage.Text

structure Limits where
  /-- The most collections that may stand around one another. -/
  depth : Nat
  /-- Whether an integer beyond 64 bits is kept; it becomes a real number otherwise. -/
  wide : Bool
  /-- Whether half of a surrogate pair is let through. -/
  halves : Bool

def isSpace (c : Char) : Bool := c == ' ' || c == '\t' || c == '\n' || c == '\r'

def isDecimal (c : Char) : Bool := '0' ≤ c && c ≤ '9'

def skipSpace (s : List Char) : List Char := s.dropWhile isSpace

def cutWord (word : String) (s : List Char) : Option (List Char) :=
  if word.toList.isPrefixOf s then some (s.drop word.length) else none

/-! ## Numbers -/

/-- The bounds of the integers that a payload carries. -/
def leastInteger : Int := -9223372036854775808

def greatestInteger : Int := 18446744073709551615

def isNarrow (n : Int) : Bool := leastInteger ≤ n && n ≤ greatestInteger

/-- The whole part of a number: a zero, or digits that do not start with one. -/
def cutWhole (s : List Char) : Option (List Char × List Char) :=
  match s with
  | '0' :: rest => some (['0'], rest)
  | _ =>
    let digits := s.takeWhile isDecimal
    if digits.isEmpty then none else some (digits, s.drop digits.length)

/-- The digits behind a point; none at all without a point. -/
def cutFraction (s : List Char) : Option (Option (List Char) × List Char) :=
  match s with
  | '.' :: rest =>
    let digits := rest.takeWhile isDecimal
    if digits.isEmpty then none else some (some digits, rest.drop digits.length)
  | _ => some (none, s)

def cutExponent (s : List Char) : Option (Option Int × List Char) :=
  match s with
  | e :: rest =>
    if e == 'e' || e == 'E' then
      let (negative, rest) :=
        match rest with
        | '-' :: rest => (true, rest)
        | '+' :: rest => (false, rest)
        | _ => (false, rest)
      let digits := rest.takeWhile isDecimal
      if digits.isEmpty then none
      else
        let n : Int := Stamp.decimal digits
        some (some (if negative then -n else n), rest.drop digits.length)
    else some (none, s)
  | [] => some (none, s)

/-- A real number, which must not be too large. -/
def finite? (x : Binary64) : Option Value := if x.isFinite then some (.real x) else none

/-- Reads what stands behind the sign of a number. -/
def unsigned? (limits : Limits) (negative : Bool) (s : List Char) :
    Option (Value × List Char) := do
  let (whole, s) ← cutWhole s
  let (fraction, s) ← cutFraction s
  let (exponent, s) ← cutExponent s
  let digits := Stamp.decimal (whole ++ fraction.getD [])
  match fraction, exponent with
  | none, none =>
    let n : Int := if negative then -(digits : Int) else digits
    if limits.wide || isNarrow n then return (.integer n, s)
    else return (← finite? (.ofDecimal negative digits 0), s)
  | _, _ =>
    let places : Int := (fraction.getD []).length
    return (← finite? (.ofDecimal negative digits (exponent.getD 0 - places)), s)

/-- Reads a number. -/
def number? (limits : Limits) (s : List Char) : Option (Value × List Char) :=
  match s with
  | '-' :: rest => unsigned? limits true rest
  | _ => unsigned? limits false s

/-! ## Texts -/

/-- The character of a letter behind a backslash. -/
def escaped? (c : Char) : Option Char :=
  match c with
  | '"' => some '"'
  | '\\' => some '\\'
  | '/' => some '/'
  | 'b' => some '\x08'
  | 'f' => some '\x0c'
  | 'n' => some '\n'
  | 'r' => some '\r'
  | 't' => some '\t'
  | _ => none

/-- The four hexadecimal digits of an escape. -/
def cutCode (s : List Char) : Option (Nat × List Char) :=
  let digits := s.take 4
  if digits.length = 4 && digits.all isHex then some (hexNumber digits, s.drop 4) else none

/-- The second half of a surrogate pair, if its escape comes next. -/
def cutLowHalf (s : List Char) : Option (Nat × List Char) :=
  match s with
  | '\\' :: 'u' :: rest =>
    match cutCode rest with
    | some (code, rest) => if 0xdc00 ≤ code && code < 0xe000 then some (code, rest) else none
    | none => none
  | _ => none

/-- The character that an escape by number stands for; two halves of a pair are one character. -/
def cutEscape (limits : Limits) (s : List Char) : Option (RawChar × List Char) := do
  let (code, rest) ← cutCode s
  let low := if 0xd800 ≤ code && code < 0xdc00 then cutLowHalf rest else none
  match low with
  | some (second, rest) =>
    return (.char (Char.ofNat (0x10000 + (code - 0xd800) * 1024 + (second - 0xdc00))), rest)
  | none =>
    match ← RawChar.ofCode? code with
    | .char c => return (.char c, rest)
    | .half offset => if limits.halves then return (.half offset, rest) else none

/-- Reads a text behind its opening quote. -/
def text? (limits : Limits) (s : List Char) : Nat → Option (RawText × List Char)
  | 0 => none
  | fuel + 1 => do
    match s with
    | [] => none
    | '"' :: rest => return ([], rest)
    | '\\' :: 'u' :: rest =>
      let (c, rest) ← cutEscape limits rest
      let (t, rest) ← text? limits rest fuel
      return (c :: t, rest)
    | '\\' :: c :: rest =>
      let c ← escaped? c
      let (t, rest) ← text? limits rest fuel
      return (.char c :: t, rest)
    | c :: rest =>
      if c < ' ' || c == '\\' then none
      else
        let (t, rest) ← text? limits rest fuel
        return (.char c :: t, rest)

/-! ## Values -/

mutual

/-- Reads a value; `depth` collections are still allowed. -/
def value? (limits : Limits) (depth : Nat) (s : List Char) : Nat → Option (Value × List Char)
  | 0 => none
  | fuel + 1 => do
    match skipSpace s with
    | [] => none
    | '[' :: rest =>
      if depth = 0 then none
      else
        match skipSpace rest with
        | ']' :: rest => return (.list [], rest)
        | rest =>
          let (items, rest) ← items? limits (depth - 1) rest fuel
          return (.list items, rest)
    | '\x7b' :: rest =>
      if depth = 0 then none
      else
        match skipSpace rest with
        | '\x7d' :: rest => return (.mapping [], rest)
        | rest =>
          let (entries, rest) ← entries? limits (depth - 1) rest fuel
          return (.ofEntries entries, rest)
    | '"' :: rest =>
      let (t, rest) ← text? limits rest (rest.length + 1)
      return (.text t, rest)
    | 't' :: rest => return (.flag true, ← cutWord "rue" rest)
    | 'f' :: rest => return (.flag false, ← cutWord "alse" rest)
    | 'n' :: rest => return (.null, ← cutWord "ull" rest)
    | s => number? limits s
termination_by structural fuel => fuel

/-- Reads the items of a list, one at least, and its end. -/
def items? (limits : Limits) (depth : Nat) (s : List Char) :
    Nat → Option (List Value × List Char)
  | 0 => none
  | fuel + 1 => do
    let (item, rest) ← value? limits depth s fuel
    match skipSpace rest with
    | ']' :: rest => return ([item], rest)
    | ',' :: rest =>
      let (items, rest) ← items? limits depth rest fuel
      return (item :: items, rest)
    | _ => none
termination_by structural fuel => fuel

/-- Reads the entries of a mapping, one at least, and its end. -/
def entries? (limits : Limits) (depth : Nat) (s : List Char) :
    Nat → Option (List (Value × Value) × List Char)
  | 0 => none
  | fuel + 1 => do
    let key ← cutWord "\"" (skipSpace s)
    let (t, rest) ← text? limits key (key.length + 1)
    let rest ← cutWord ":" (skipSpace rest)
    let (value, rest) ← value? limits depth rest fuel
    match skipSpace rest with
    | '\x7d' :: rest => return ([(.text t, value)], rest)
    | ',' :: rest =>
      let (entries, rest) ← entries? limits depth rest fuel
      return ((.text t, value) :: entries, rest)
    | _ => none
termination_by structural fuel => fuel

end

/-- The value of a text that holds one value and nothing else. -/
def read? (limits : Limits) (s : List Char) : Option Value := do
  let (v, rest) ← value? limits limits.depth s (2 * s.length + 2)
  if (skipSpace rest).isEmpty then some v else none

end Assemblage.Json
