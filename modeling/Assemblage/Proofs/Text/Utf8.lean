import Assemblage.Text.Utf8
import Mathlib.Tactic.SplitIfs

/-!
# Bytes and characters

The bytes of a text are read back as that text, and no other bytes are read as it
(`decodeUtf8_eq_ok`). A character has one to four bytes; each length has a lemma for its lead byte,
one for reading it and one for the bytes that were read.
-/

namespace Assemblage.Text
set_option autoImplicit false

/-! ## Lead bytes -/

theorem leadOf_one {b : UInt8} (h : b.toNat < 0x80) : leadOf b = some (0, 0, 1) := by
  have hb : b < 0x80 := UInt8.lt_iff_toNat_lt.mpr h
  simp [leadOf, hb]

theorem leadOf_two {b : UInt8} (h : 0xc2 ≤ b.toNat) (h' : b.toNat < 0xe0) :
    leadOf b = some (0x80, 0xbf, 2) := by
  simp only [leadOf, UInt8.lt_iff_toNat_lt]
  rw [if_neg (by simp; omega), if_neg (by simp; omega), if_pos (by simp; omega)]

theorem leadOf_three {b : UInt8} (h : 0xe0 ≤ b.toNat) (h' : b.toNat < 0xf0) :
    leadOf b = some (if b.toNat = 0xe0 then 0xa0 else 0x80,
      if b.toNat = 0xed then 0x9f else 0xbf, 3) := by
  simp only [leadOf, UInt8.lt_iff_toNat_lt, beq_iff_eq, ← UInt8.toNat_inj]
  simp
  split_ifs <;> first | rfl | omega

theorem leadOf_four {b : UInt8} (h : 0xf0 ≤ b.toNat) (h' : b.toNat < 0xf5) :
    leadOf b = some (if b.toNat = 0xf0 then 0x90 else 0x80,
      if b.toNat = 0xf4 then 0x8f else 0xbf, 4) := by
  simp only [leadOf, UInt8.lt_iff_toNat_lt, beq_iff_eq, ← UInt8.toNat_inj]
  simp
  split_ifs <;> first | rfl | omega

/-- What a byte that leads a sequence says of the byte behind it. -/
inductive Leads (b : UInt8) : UInt8 → UInt8 → Nat → Prop
  | one (h : b.toNat < 0x80) : Leads b 0 0 1
  | two (h : 0xc2 ≤ b.toNat) (h' : b.toNat < 0xe0) : Leads b 0x80 0xbf 2
  | three (h : 0xe0 ≤ b.toNat) (h' : b.toNat < 0xf0) :
    Leads b (if b.toNat = 0xe0 then 0xa0 else 0x80) (if b.toNat = 0xed then 0x9f else 0xbf) 3
  | four (h : 0xf0 ≤ b.toNat) (h' : b.toNat < 0xf5) :
    Leads b (if b.toNat = 0xf0 then 0x90 else 0x80) (if b.toNat = 0xf4 then 0x8f else 0xbf) 4

theorem leads_of_leadOf {b lo hi : UInt8} {n : Nat} (h : leadOf b = some (lo, hi, n)) :
    Leads b lo hi n := by
  by_cases h1 : b.toNat < 0x80
  · rw [leadOf_one h1] at h
    cases h
    exact .one h1
  by_cases h2 : b.toNat < 0xc2
  · simp only [leadOf, UInt8.lt_iff_toNat_lt] at h
    rw [if_neg (by simp; omega), if_pos (by simp; omega)] at h
    cases h
  by_cases h3 : b.toNat < 0xe0
  · rw [leadOf_two (by omega) h3] at h
    cases h
    exact .two (by omega) h3
  by_cases h4 : b.toNat < 0xf0
  · rw [leadOf_three (by omega) h4] at h
    cases h
    exact .three (by omega) h4
  by_cases h5 : b.toNat < 0xf5
  · rw [leadOf_four (by omega) h5] at h
    cases h
    exact .four (by omega) h5
  · simp only [leadOf, UInt8.lt_iff_toNat_lt, beq_iff_eq, ← UInt8.toNat_inj] at h
    simp at h
    split_ifs at h <;> omega

theorem isContinuation_of_mod (n : Nat) : isContinuation (UInt8.ofNat (0x80 + n % 64)) = true := by
  simp [isContinuation, UInt8.le_iff_toNat_le]
  omega

theorem isContinuation_iff {b : UInt8} :
    isContinuation b = true ↔ 0x80 ≤ b.toNat ∧ b.toNat ≤ 0xbf := by
  simp [isContinuation, UInt8.le_iff_toNat_le]

theorem lowBits_of_mod (n : Nat) : lowBits (UInt8.ofNat (0x80 + n % 64)) = n % 64 := by
  simp [lowBits]
  omega

/-! ## One character -/

section
variable {b c d e lo hi : UInt8} {rest : Bytes}

theorem takeChar?_of_one (hb : leadOf b = some (lo, hi, 1)) :
    takeChar? (b :: rest) = some (Char.ofNat b.toNat, rest) := by
  unfold takeChar?
  simp only [hb]

theorem takeChar?_of_two (hb : leadOf b = some (lo, hi, 2)) (hc : (lo ≤ c && c ≤ hi) = true) :
    takeChar? (b :: c :: rest) =
      some (Char.ofNat (b.toNat % 32 * 64 + lowBits c), rest) := by
  unfold takeChar?
  simp only [hb, hc, if_true]

theorem takeChar?_of_three (hb : leadOf b = some (lo, hi, 3)) (hc : (lo ≤ c && c ≤ hi) = true)
    (hd : isContinuation d = true) :
    takeChar? (b :: c :: d :: rest) =
      some (Char.ofNat ((b.toNat % 16 * 64 + lowBits c) * 64 + lowBits d), rest) := by
  unfold takeChar?
  simp only [hb, hc, hd, Bool.and_true, if_true]

theorem takeChar?_of_four (hb : leadOf b = some (lo, hi, 4)) (hc : (lo ≤ c && c ≤ hi) = true)
    (hd : isContinuation d = true) (he : isContinuation e = true) :
    takeChar? (b :: c :: d :: e :: rest) =
      some (Char.ofNat (((b.toNat % 8 * 64 + lowBits c) * 64 + lowBits d) * 64 + lowBits e),
        rest) := by
  unfold takeChar?
  simp only [hb, hc, hd, he, Bool.and_true, if_true]

end

theorem takeChar?_one (n : Nat) (rest : Bytes) (h : n < 0x80) :
    takeChar? (UInt8.ofNat n :: rest) = some (Char.ofNat n, rest) := by
  have hlead : (UInt8.ofNat n).toNat = n := by
    simp
    omega
  rw [takeChar?_of_one (leadOf_one (by omega)), hlead]

theorem takeChar?_two (n : Nat) (rest : Bytes) (h : 0x80 ≤ n) (h' : n < 0x800) :
    takeChar? (UInt8.ofNat (0xc0 + n / 64) :: UInt8.ofNat (0x80 + n % 64) :: rest) =
      some (Char.ofNat n, rest) := by
  have hlead : (UInt8.ofNat (0xc0 + n / 64)).toNat = 0xc0 + n / 64 := by
    simp
    omega
  rw [takeChar?_of_two (leadOf_two (by omega) (by omega)) (isContinuation_of_mod n), hlead,
    lowBits_of_mod]
  congr 3
  omega

theorem takeChar?_three (n : Nat) (rest : Bytes) (h : 0x800 ≤ n) (h' : n < 0x10000)
    (hhalf : n < 0xd800 ∨ 0xe000 ≤ n) :
    takeChar? (UInt8.ofNat (0xe0 + n / 4096) :: UInt8.ofNat (0x80 + n / 64 % 64) ::
      UInt8.ofNat (0x80 + n % 64) :: rest) = some (Char.ofNat n, rest) := by
  have hlead : (UInt8.ofNat (0xe0 + n / 4096)).toNat = 0xe0 + n / 4096 := by
    simp
    omega
  -- the lead byte narrows the second one, which the bounds on the code point respect
  rw [takeChar?_of_three (leadOf_three (by omega) (by omega)) ?_ (isContinuation_of_mod n), hlead,
    lowBits_of_mod, lowBits_of_mod]
  · congr 3
    omega
  · rw [hlead]
    split_ifs <;> simp [UInt8.le_iff_toNat_le] <;> omega

theorem takeChar?_four (n : Nat) (rest : Bytes) (h : 0x10000 ≤ n) (h' : n < 0x110000) :
    takeChar? (UInt8.ofNat (0xf0 + n / 262144) :: UInt8.ofNat (0x80 + n / 4096 % 64) ::
      UInt8.ofNat (0x80 + n / 64 % 64) :: UInt8.ofNat (0x80 + n % 64) :: rest) =
      some (Char.ofNat n, rest) := by
  have hlead : (UInt8.ofNat (0xf0 + n / 262144)).toNat = 0xf0 + n / 262144 := by
    simp
    omega
  rw [takeChar?_of_four (leadOf_four (by omega) (by omega)) ?_ (isContinuation_of_mod (n / 64))
    (isContinuation_of_mod n), hlead, lowBits_of_mod, lowBits_of_mod, lowBits_of_mod]
  · congr 3
    omega
  · rw [hlead]
    split_ifs <;> simp [UInt8.le_iff_toNat_le] <;> omega

theorem takeChar?_encodeChar (c : Char) (rest : Bytes) :
    takeChar? (encodeChar c ++ rest) = some (c, rest) := by
  have hvalid : c.toNat < 0xd800 ∨ 0xdfff < c.toNat ∧ c.toNat < 0x110000 := c.valid
  have hself : Char.ofNat c.toNat = c := Char.ofNat_toNat c
  unfold encodeChar
  simp only
  by_cases h1 : c.toNat < 0x80
  · have hread := takeChar?_one c.toNat rest h1
    rw [hself] at hread
    rw [if_pos h1]
    exact hread
  by_cases h2 : c.toNat < 0x800
  · have hread := takeChar?_two c.toNat rest (by omega) h2
    rw [hself] at hread
    rw [if_neg h1, if_pos h2]
    exact hread
  by_cases h3 : c.toNat < 0x10000
  · have hread := takeChar?_three c.toNat rest (by omega) h3 (by omega)
    rw [hself] at hread
    rw [if_neg h1, if_neg h2, if_pos h3]
    exact hread
  · have hread := takeChar?_four c.toNat rest (by omega) (by omega)
    rw [hself] at hread
    rw [if_neg h1, if_neg h2, if_neg h3]
    exact hread

/-! ## The bytes of a character that was read -/

theorem toNat_ofNat {n : Nat} (h : n < 0xd800 ∨ 0xdfff < n ∧ n < 0x110000) :
    (Char.ofNat n).toNat = n := by
  rw [Char.ofNat, dif_pos h]
  rfl

theorem ofNat_eq {a : UInt8} {n : Nat} (h : n = a.toNat) : UInt8.ofNat n = a := by
  rw [h, UInt8.ofNat_toNat]

section
variable {b c d e lo hi : UInt8} {rest : Bytes}

theorem encodeChar_one (h : b.toNat < 0x80) : encodeChar (Char.ofNat b.toNat) = [b] := by
  unfold encodeChar
  simp only [toNat_ofNat (.inl (show b.toNat < 0xd800 by omega))]
  rw [if_pos h, ofNat_eq rfl]

theorem encodeChar_two (hb : Leads b lo hi 2) (hc : (lo ≤ c && c ≤ hi) = true) :
    encodeChar (Char.ofNat (b.toNat % 32 * 64 + lowBits c)) = [b, c] := by
  cases hb with
  | two h h' =>
    obtain ⟨hc1, hc2⟩ := isContinuation_iff.mp hc
    have hn : (Char.ofNat (b.toNat % 32 * 64 + lowBits c)).toNat = b.toNat % 32 * 64 + lowBits c :=
      toNat_ofNat (by unfold lowBits; omega)
    unfold encodeChar
    simp only [hn]
    unfold lowBits
    rw [if_neg (by omega), if_pos (by omega), ofNat_eq (a := b) (by omega),
      ofNat_eq (a := c) (by omega)]

theorem encodeChar_three (hb : Leads b lo hi 3) (hc : (lo ≤ c && c ≤ hi) = true)
    (hd : isContinuation d = true) :
    encodeChar (Char.ofNat ((b.toNat % 16 * 64 + lowBits c) * 64 + lowBits d)) = [b, c, d] := by
  cases hb with
  | three h h' =>
    obtain ⟨hd1, hd2⟩ := isContinuation_iff.mp hd
    simp only [UInt8.le_iff_toNat_le, Bool.and_eq_true, decide_eq_true_eq] at hc
    have hc1 : 0x80 ≤ c.toNat ∧ (b.toNat = 0xe0 → 0xa0 ≤ c.toNat) := by
      have hlo := hc.1
      split_ifs at hlo <;> simp at hlo <;> omega
    have hc2 : c.toNat ≤ 0xbf ∧ (b.toNat = 0xed → c.toNat ≤ 0x9f) := by
      have hhi := hc.2
      split_ifs at hhi <;> simp at hhi <;> omega
    have hn : (Char.ofNat ((b.toNat % 16 * 64 + lowBits c) * 64 + lowBits d)).toNat =
        (b.toNat % 16 * 64 + lowBits c) * 64 + lowBits d :=
      toNat_ofNat (by unfold lowBits; omega)
    unfold encodeChar
    simp only [hn]
    unfold lowBits
    rw [if_neg (by omega), if_neg (by omega), if_pos (by omega), ofNat_eq (a := b) (by omega),
      ofNat_eq (a := c) (by omega), ofNat_eq (a := d) (by omega)]

theorem encodeChar_four (hb : Leads b lo hi 4) (hc : (lo ≤ c && c ≤ hi) = true)
    (hd : isContinuation d = true) (he : isContinuation e = true) :
    encodeChar (Char.ofNat (((b.toNat % 8 * 64 + lowBits c) * 64 + lowBits d) * 64 + lowBits e)) =
      [b, c, d, e] := by
  cases hb with
  | four h h' =>
    obtain ⟨hd1, hd2⟩ := isContinuation_iff.mp hd
    obtain ⟨he1, he2⟩ := isContinuation_iff.mp he
    simp only [UInt8.le_iff_toNat_le, Bool.and_eq_true, decide_eq_true_eq] at hc
    have hc1 : 0x80 ≤ c.toNat ∧ (b.toNat = 0xf0 → 0x90 ≤ c.toNat) := by
      have hlo := hc.1
      split_ifs at hlo <;> simp at hlo <;> omega
    have hc2 : c.toNat ≤ 0xbf ∧ (b.toNat = 0xf4 → c.toNat ≤ 0x8f) := by
      have hhi := hc.2
      split_ifs at hhi <;> simp at hhi <;> omega
    have hn : (Char.ofNat
        (((b.toNat % 8 * 64 + lowBits c) * 64 + lowBits d) * 64 + lowBits e)).toNat =
          ((b.toNat % 8 * 64 + lowBits c) * 64 + lowBits d) * 64 + lowBits e :=
      toNat_ofNat (by unfold lowBits; omega)
    unfold encodeChar
    simp only [hn]
    unfold lowBits
    rw [if_neg (by omega), if_neg (by omega), if_neg (by omega), ofNat_eq (a := b) (by omega),
      ofNat_eq (a := c) (by omega), ofNat_eq (a := d) (by omega), ofNat_eq (a := e) (by omega)]
end

theorem eq_encodeChar_append {s : Bytes} {c : Char} {rest : Bytes}
    (h : takeChar? s = some (c, rest)) : s = encodeChar c ++ rest := by
  unfold takeChar? at h
  split at h
  · cases h
  · next b tail =>
    split at h
    · next lo hi hlead =>
      cases h
      cases leads_of_leadOf hlead with
      | one hb => rw [encodeChar_one hb, List.singleton_append]
    · next lo hi d tail hlead =>
      split at h
      · next hd =>
        cases h
        rw [encodeChar_two (leads_of_leadOf hlead) hd]
        rfl
      · cases h
    · next lo hi d tail hlead =>
      split at h
      · next hd =>
        cases h
        simp only [Bool.and_eq_true] at hd
        rw [encodeChar_three (leads_of_leadOf hlead) (by simpa using hd.1) hd.2]
        rfl
      · cases h
    · next lo hi d tail hlead =>
      split at h
      · next hd =>
        cases h
        simp only [Bool.and_eq_true] at hd
        rw [encodeChar_four (leads_of_leadOf hlead) (by simpa using hd.1.1) hd.1.2 hd.2]
        rfl
      · cases h
    · cases h

/-! ## A text -/

theorem decodeAll_cons {s tail : Bytes} {c : Char} (h : takeChar? s = some (c, tail)) :
    decodeAll s = (decodeAll tail).map (c :: ·) := by
  cases s with
  | nil => cases h
  | cons b rest =>
    rw [decodeAll]
    split
    · next hnone =>
      rw [h] at hnone
      cases hnone
    · next found hsome =>
      rw [h] at hsome
      cases hsome
      rfl

theorem decodeAll_encodeUtf8 (s : List Char) : decodeAll (encodeUtf8 s) = .ok s := by
  induction s with
  | nil => rw [encodeUtf8, List.flatMap_nil, decodeAll]
  | cons c s ih =>
    have h : takeChar? (encodeUtf8 (c :: s)) = some (c, encodeUtf8 s) := takeChar?_encodeChar c _
    rw [decodeAll_cons h, ih]
    rfl

/-- The bytes of a text are read back as that text. -/
theorem decodeUtf8_encodeUtf8 (s : List Char) : decodeUtf8 (encodeUtf8 s) = .ok s := by
  rw [decodeUtf8, decodeAll_encodeUtf8]
  rfl

/-- No text but one that starts with the mark has its bytes in front. -/
theorem dropMark_encodeUtf8 {s : List Char} (h : s.head? ≠ some '\ufeff') :
    dropMark (encodeUtf8 s) = encodeUtf8 s := by
  unfold dropMark
  rw [if_neg]
  intro hprefix
  obtain ⟨rest, hrest⟩ := List.isPrefixOf_iff_prefix.mp hprefix
  have hmark : takeChar? (encodeUtf8 s) = some ('\ufeff', rest) := by
    rw [← hrest]
    exact takeChar?_encodeChar '\ufeff' rest
  cases s with
  | nil => cases hmark
  | cons c s =>
    have hfirst : takeChar? (encodeUtf8 (c :: s)) = some (c, encodeUtf8 s) := takeChar?_encodeChar c _
    rw [hfirst] at hmark
    cases hmark
    exact h rfl


theorem decodeAll_eq_ok {s : Bytes} {t : List Char} (h : decodeAll s = .ok t) :
    s = encodeUtf8 t := by
  fun_induction decodeAll s generalizing t with
  | case1 =>
    cases h
    rfl
  | case2 => cases h
  | case3 b rest c tail htake ih =>
    cases hd : decodeAll tail with
    | error bad =>
      rw [hd] at h
      cases h
    | ok u =>
      rw [hd] at h
      cases h
      rw [eq_encodeChar_append htake, ih hd]
      rfl

/-- What is read from bytes has exactly those bytes. -/
theorem decodeUtf8_eq_ok {s : Bytes} {t : List Char} : decodeUtf8 s = .ok t ↔ s = encodeUtf8 t := by
  constructor
  · intro h
    unfold decodeUtf8 at h
    cases hd : decodeAll s with
    | error bad =>
      rw [hd] at h
      cases h
    | ok u =>
      rw [hd] at h
      cases h
      exact decodeAll_eq_ok hd
  · rintro rfl
    exact decodeUtf8_encodeUtf8 t

end Assemblage.Text
