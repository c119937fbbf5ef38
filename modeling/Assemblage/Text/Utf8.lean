/-!
UTF-8: reading bytes as characters. Only the shortest form of a scalar value is accepted, so
surrogates, overlong forms and values past the last code point are refused; the place of the first
sequence that cannot be read is reported.
-/

namespace Assemblage.Text
set_option autoImplicit false

abbrev Bytes := List UInt8

/-- The bytes that can follow a lead byte, given as the range of the second byte and the number of
bytes in all; `none` for a byte that leads no sequence. -/
def leadOf (b : UInt8) : Option (UInt8 × UInt8 × Nat) :=
  if b < 0x80 then some (0, 0, 1)
  else if b < 0xc2 then none
  else if b < 0xe0 then some (0x80, 0xbf, 2)
  else if b == 0xe0 then some (0xa0, 0xbf, 3)
  else if b == 0xed then some (0x80, 0x9f, 3)
  else if b < 0xf0 then some (0x80, 0xbf, 3)
  else if b == 0xf0 then some (0x90, 0xbf, 4)
  else if b < 0xf4 then some (0x80, 0xbf, 4)
  else if b == 0xf4 then some (0x80, 0x8f, 4)
  else none

def isContinuation (b : UInt8) : Bool := 0x80 ≤ b && b ≤ 0xbf

/-- The low six bits of a continuation byte. -/
def lowBits (b : UInt8) : Nat := b.toNat % 64

/-- Reads the first character off the bytes; `none` where no character starts. -/
def takeChar? : Bytes → Option (Char × Bytes)
  | [] => none
  | b :: rest =>
    match leadOf b, rest with
    | some (_, _, 1), rest => some (Char.ofNat b.toNat, rest)
    | some (lo, hi, 2), c :: rest =>
      if lo ≤ c && c ≤ hi then
        some (Char.ofNat (b.toNat % 32 * 64 + lowBits c), rest)
      else none
    | some (lo, hi, 3), c :: d :: rest =>
      if lo ≤ c && c ≤ hi && isContinuation d then
        some (Char.ofNat ((b.toNat % 16 * 64 + lowBits c) * 64 + lowBits d), rest)
      else none
    | some (lo, hi, 4), c :: d :: e :: rest =>
      if lo ≤ c && c ≤ hi && isContinuation d && isContinuation e then
        some (Char.ofNat (((b.toNat % 8 * 64 + lowBits c) * 64 + lowBits d) * 64 + lowBits e), rest)
      else none
    | _, _ => none

theorem takeChar?_length {s : Bytes} {c : Char} {rest : Bytes} (h : takeChar? s = some (c, rest)) :
    rest.length < s.length := by
  unfold takeChar? at h
  split at h
  · cases h
  · split at h
    all_goals (try split at h) <;> simp_all <;> omega

/-- The characters of the bytes, or the bytes from the first sequence on that is no character. -/
def decodeAll (s : Bytes) : Except Bytes (List Char) :=
  match s with
  | [] => .ok []
  | b :: rest =>
    match _h : takeChar? (b :: rest) with
    | none => .error (b :: rest)
    | some (c, tail) => (decodeAll tail).map (c :: ·)
termination_by s.length
decreasing_by exact takeChar?_length _h

/-- The characters of the bytes, or the offset of the first sequence that is no character. -/
def decodeUtf8 (s : Bytes) : Except Nat (List Char) :=
  (decodeAll s).mapError fun bad => s.length - bad.length

/-- The bytes of a character. -/
def encodeChar (c : Char) : Bytes :=
  let n := c.toNat
  if n < 0x80 then [UInt8.ofNat n]
  else if n < 0x800 then [UInt8.ofNat (0xc0 + n / 64), UInt8.ofNat (0x80 + n % 64)]
  else if n < 0x10000 then
    [UInt8.ofNat (0xe0 + n / 4096), UInt8.ofNat (0x80 + n / 64 % 64), UInt8.ofNat (0x80 + n % 64)]
  else
    [UInt8.ofNat (0xf0 + n / 262144), UInt8.ofNat (0x80 + n / 4096 % 64),
      UInt8.ofNat (0x80 + n / 64 % 64), UInt8.ofNat (0x80 + n % 64)]

def encodeUtf8 (s : List Char) : Bytes := s.flatMap encodeChar

/-! ## The byte-order mark -/

/-- The bytes of a byte-order mark. -/
def markBytes : Bytes := [0xef, 0xbb, 0xbf]

def dropMark (s : Bytes) : Bytes := if markBytes.isPrefixOf s then s.drop 3 else s

/-- A file that is only the beginning of a byte-order mark reads as empty. -/
def isCutMark (s : Bytes) : Bool := s == [0xef] || s == [0xef, 0xbb]

/-- The characters of a file: one leading byte-order mark is dropped, and the offset of a bad
sequence counts from behind it. -/
def decodeFile (s : Bytes) : Except Nat (List Char) :=
  if isCutMark s then .ok [] else decodeUtf8 (dropMark s)

end Assemblage.Text
