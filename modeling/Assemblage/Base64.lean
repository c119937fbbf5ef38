import Assemblage.Text.Utf8

/-!
Base64 with the standard alphabet. Encoding goes three bytes at a time. Strict decoding refuses
every character outside the alphabet and every padding that does not close a group; lenient
decoding skips foreign characters and stops at a closed group.
-/

namespace Assemblage.Base64
set_option autoImplicit false
open Assemblage.Text (Bytes)

/-- The character of a six-bit value. -/
def digit (n : Nat) : Char :=
  if n < 26 then Char.ofNat ('A'.toNat + n)
  else if n < 52 then Char.ofNat ('a'.toNat + (n - 26))
  else if n < 62 then Char.ofNat ('0'.toNat + (n - 52))
  else if n = 62 then '+' else '/'

/-- The six-bit value of a character of the alphabet. -/
def value? (c : Char) : Option Nat :=
  if 'A' ≤ c && c ≤ 'Z' then some (c.toNat - 'A'.toNat)
  else if 'a' ≤ c && c ≤ 'z' then some (c.toNat - 'a'.toNat + 26)
  else if '0' ≤ c && c ≤ '9' then some (c.toNat - '0'.toNat + 52)
  else if c == '+' then some 62
  else if c == '/' then some 63
  else none

def encode : Bytes → List Char
  | [] => []
  | [a] => [digit (a.toNat / 4), digit (a.toNat % 4 * 16), '=', '=']
  | [a, b] =>
    [digit (a.toNat / 4), digit (a.toNat % 4 * 16 + b.toNat / 16), digit (b.toNat % 16 * 4), '=']
  | a :: b :: c :: rest =>
    digit (a.toNat / 4) :: digit (a.toNat % 4 * 16 + b.toNat / 16) ::
      digit (b.toNat % 16 * 4 + c.toNat / 64) :: digit (c.toNat % 64) :: encode rest

/-- The bytes of a run of six-bit values; the bits that fill no byte are dropped. -/
def bytesOf : List Nat → Bytes
  | a :: b :: c :: d :: rest =>
    UInt8.ofNat (a * 4 + b / 16) :: UInt8.ofNat (b % 16 * 16 + c / 4) ::
      UInt8.ofNat (c % 4 * 64 + d) :: bytesOf rest
  | [a, b, c] => [UInt8.ofNat (a * 4 + b / 16), UInt8.ofNat (b % 16 * 16 + c / 4)]
  | [a, b] => [UInt8.ofNat (a * 4 + b / 16)]
  | _ => []

/-! ## Strict decoding -/

/-- Why a text is no base64. -/
inductive Fault where
  /-- A character outside ASCII. -/
  | foreign
  /-- A character outside the alphabet, or a padding that closes no group. -/
  | malformed
  deriving DecidableEq, Repr

/-- Whether padding of this length closes the last group: none is missing, and behind whole groups
any padding is let through. -/
def closes (digits pads : Nat) : Bool :=
  match digits % 4 with
  | 0 => 0 < digits || pads == 0
  | 2 => pads == 2
  | 3 => pads == 1
  | _ => false

def decode (s : List Char) : Except Fault Bytes :=
  if s.any fun c => 0x80 ≤ c.toNat then .error .foreign
  else
    let digits := s.takeWhile fun c => (value? c).isSome
    let pads := s.dropWhile fun c => (value? c).isSome
    if pads.all (· == '=') && closes digits.length pads.length then
      .ok (bytesOf (digits.filterMap value?))
    else .error .malformed

/-! ## Lenient decoding -/

/-- The values up to the padding that closes a group; `held` counts the digits of the open group
and `pads` the padding seen in it. `none` if the text ends inside a group. -/
def lenientValues (held pads : Nat) : List Char → Option (List Nat)
  | [] => if held = 0 then some [] else none
  | c :: rest =>
    if c == '=' then
      if 2 ≤ held && 4 ≤ held + pads + 1 then some []
      else lenientValues held (if 2 ≤ held then pads + 1 else pads) rest
    else
      match value? c with
      | none => lenientValues held pads rest
      | some n => (lenientValues ((held + 1) % 4) 0 rest).map (n :: ·)

def decodeLenient (s : List Char) : Option Bytes := (lenientValues 0 0 s).map bytesOf

end Assemblage.Base64
