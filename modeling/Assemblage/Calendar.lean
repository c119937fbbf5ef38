import Assemblage.Text.Digit

/-!
Dates and moments: their validity, their texts, and reading them from the form
`year-month-day hour:minute:second.fraction offset`.
-/

namespace Assemblage
set_option autoImplicit false
open Assemblage.Text

/-- A day of the calendar. -/
structure Date where
  year : Nat
  month : Nat
  day : Nat
  deriving DecidableEq, Repr

/-- A time of a day, with the offset of its zone in minutes where one is given. -/
structure Moment where
  date : Date
  hour : Nat
  minute : Nat
  second : Nat
  micro : Nat
  offset : Option Int
  deriving DecidableEq, Repr

namespace Date

def isLeap (year : Nat) : Bool := year % 4 == 0 && (year % 100 != 0 || year % 400 == 0)

def daysIn (year month : Nat) : Nat :=
  if month = 2 then (if isLeap year then 29 else 28)
  else if month = 4 || month = 6 || month = 9 || month = 11 then 30
  else 31

def isValid (d : Date) : Bool :=
  1 ≤ d.year && d.year ≤ 9999 && 1 ≤ d.month && d.month ≤ 12 && 1 ≤ d.day &&
    d.day ≤ daysIn d.year d.month

/-- The date as year, month and day with hyphens. -/
def iso (d : Date) : List Char :=
  padded 4 d.year ++ '-' :: padded 2 d.month ++ '-' :: padded 2 d.day

end Date

namespace Moment

/-- Whether the time exists and the offset is less than a day. -/
def isValid (m : Moment) : Bool :=
  m.date.isValid && m.hour < 24 && m.minute < 60 && m.second < 60 && m.micro < 1000000 &&
    m.offset.all fun minutes => minutes.natAbs < 1440

def isoOffset (minutes : Int) : List Char :=
  (if minutes < 0 then '-' else '+') :: padded 2 (minutes.natAbs / 60) ++
    ':' :: padded 2 (minutes.natAbs % 60)

/-- The date and the time with a `T` between them; a fraction only where there is one. -/
def iso (m : Moment) : List Char :=
  m.date.iso ++ 'T' :: padded 2 m.hour ++ ':' :: padded 2 m.minute ++ ':' :: padded 2 m.second ++
    (if m.micro = 0 then [] else '.' :: padded 6 m.micro) ++
    (m.offset.map isoOffset).getD []

end Moment

/-! ## Reading -/

/-- A date, or a moment. -/
inductive Stamp where
  | date (d : Date)
  | moment (m : Moment)
  deriving DecidableEq, Repr

namespace Stamp

/-- Why a text is no timestamp. -/
inductive Fault where
  /-- The text has not the form of one. -/
  | form
  /-- The form is right, but there is no such day, time or zone. -/
  | impossible
  deriving DecidableEq, Repr

def isValid : Stamp → Bool
  | date d => d.isValid
  | moment m => m.isValid

def isDecimal (c : Char) : Bool := '0' ≤ c && c ≤ '9'

def decimal (digits : List Char) : Nat :=
  digits.foldl (fun n c => n * 10 + (c.toNat - '0'.toNat)) 0

/-- Takes at least `least` and at most `most` digits off the front. -/
def cutNumber (least most : Nat) (s : List Char) : Option (List Char × List Char) :=
  let digits := (s.take most).takeWhile isDecimal
  if least ≤ digits.length then some (digits, s.drop digits.length) else none

def cutChar (c : Char) : List Char → Option (List Char)
  | d :: rest => if c == d then some rest else none
  | [] => none

/-- Takes the mark between a date and a time: a `t`, or spaces and tabs. -/
def cutSeparator : List Char → Option (List Char)
  | [] => none
  | c :: rest =>
    if c == 't' || c == 'T' then some rest
    else if c == ' ' || c == '\t' then some (rest.dropWhile fun c => c == ' ' || c == '\t')
    else none

/-- The millionths that the digits of a fraction write, further digits being dropped. -/
def millionths (digits : List Char) : Nat :=
  decimal ((digits ++ List.replicate 6 '0').take 6)

/-- Reads a zone up to the end of the text; nothing at all is no zone. -/
def zone? (s : List Char) : Option (Option Int) :=
  match s with
  | [] => some none
  | _ =>
    match s.dropWhile fun c => c == ' ' || c == '\t' with
    | ['Z'] => some (some 0)
    | sign :: rest =>
      if sign == '+' || sign == '-' then do
        let (hours, rest) ← cutNumber 1 2 rest
        let minutes ←
          match rest with
          | [] => some []
          | ':' :: rest =>
            match cutNumber 2 2 rest with
            | some (minutes, []) => some minutes
            | _ => none
          | _ => none
        let offset : Int := decimal hours * 60 + decimal minutes
        some (some (if sign == '-' then -offset else offset))
      else none
    | [] => none

/-- Reads the digits of a fraction, which may be missing. -/
def cutFraction : List Char → List Char × List Char
  | '.' :: rest => (rest.takeWhile isDecimal, rest.dropWhile isDecimal)
  | rest => ([], rest)

/-- Reads the form of a stamp, without a look at the calendar. The flag says that month and day
have two digits each. -/
def form? (s : List Char) : Option (Bool × Stamp) := do
  let (year, s) ← cutNumber 4 4 s
  let s ← cutChar '-' s
  let (month, s) ← cutNumber 1 2 s
  let s ← cutChar '-' s
  let (day, s) ← cutNumber 1 2 s
  let date : Date := ⟨decimal year, decimal month, decimal day⟩
  let full := month.length == 2 && day.length == 2
  if s.isEmpty then some (full, .date date)
  else
    let s ← cutSeparator s
    let (hour, s) ← cutNumber 1 2 s
    let s ← cutChar ':' s
    let (minute, s) ← cutNumber 2 2 s
    let s ← cutChar ':' s
    let (second, s) ← cutNumber 2 2 s
    let (fraction, s) := cutFraction s
    let offset ← zone? s
    some (full, .moment ⟨date, decimal hour, decimal minute, decimal second, millionths fraction,
      offset⟩)

def read (s : List Char) : Except Fault Stamp :=
  match form? s with
  | none => .error .form
  | some (_, stamp) => if stamp.isValid then .ok stamp else .error .impossible

end Stamp

end Assemblage
