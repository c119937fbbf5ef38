/-!
Texts that may hold half of a surrogate pair. An escape can name such a half; no encoding carries
it. A raw text without one is an ordinary string, and `RawText.toString?` finds it.
-/

namespace Assemblage
set_option autoImplicit false

/-- A character, or the half of a surrogate pair at `0xD800` plus an offset. -/
inductive RawChar where
  | char (c : Char)
  | half (offset : Fin 2048)
  deriving DecidableEq, Inhabited

abbrev RawText := List RawChar

namespace RawChar

/-- The code point. -/
def code : RawChar → Nat
  | char c => c.toNat
  | half offset => 0xD800 + offset.val

/-- The character or half with this code point, if there is one. -/
def ofCode? (n : Nat) : Option RawChar :=
  if h : 0xD800 ≤ n ∧ n < 0xE000 then some (half ⟨n - 0xD800, by omega⟩)
  else if n < 0x110000 then some (char (Char.ofNat n))
  else none

def char? : RawChar → Option Char
  | char c => some c
  | half _ => none

end RawChar

namespace RawText

def ofChars (s : List Char) : RawText := s.map RawChar.char

def ofString (s : String) : RawText := ofChars s.toList

/-- The characters, if none is half of a surrogate pair. -/
def toChars? (t : RawText) : Option (List Char) := t.mapM RawChar.char?

def toString? (t : RawText) : Option String := (toChars? t).map String.ofList

/-- The characters, a replacement character standing for each half of a surrogate pair. -/
def toChars (t : RawText) : List Char := t.map fun r => (r.char?).getD '\ufffd'

def toString (t : RawText) : String := String.ofList (toChars t)

/-- The order by code points. -/
def le : RawText → RawText → Bool
  | [], _ => true
  | _ :: _, [] => false
  | a :: s, b :: t => a.code < b.code || (a.code == b.code && le s t)

@[simp] theorem toChars?_ofChars (s : List Char) : toChars? (ofChars s) = some s := by
  induction s with
  | nil => rfl
  | cons c s ih =>
    simp only [toChars?, ofChars, List.map_cons, List.mapM_cons] at ih ⊢
    simp [RawChar.char?, ih]

@[simp] theorem toString?_ofString (s : String) : toString? (ofString s) = some s := by
  simp [toString?, ofString]

end RawText

end Assemblage
