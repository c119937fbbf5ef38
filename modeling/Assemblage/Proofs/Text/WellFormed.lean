import Assemblage.Proofs.Text.Utf8

/-!
# Well-formed bytes

Which bytes are UTF-8, and of which text, is said here without decoding anything: one to four bytes
carry the bits of a number (`Carries`), and a text is written as the shortest bytes that carry its
code points, none of which is a surrogate or past the last one (`Utf8`). Those are the bytes that
the encoder writes (`utf8_iff`), so the decoder accepts exactly the well-formed ones
(`decodeUtf8_iff`, `not_wellFormed_iff`).
-/

namespace Assemblage.Text
set_option autoImplicit false

/-- Bytes that carry a number: a lead byte that says how many they are, and continuation bytes with
six bits each. -/
inductive Carries : Bytes → Nat → Prop where
  | one {b : UInt8} {n : Nat} (hb : b.toNat / 128 = 0) (hn : n = b.toNat) : Carries [b] n
  | two {b c : UInt8} {n : Nat} (hb : b.toNat / 32 = 0b110) (hc : c.toNat / 64 = 0b10)
      (hn : n = b.toNat % 32 * 64 + c.toNat % 64) : Carries [b, c] n
  | three {b c d : UInt8} {n : Nat} (hb : b.toNat / 16 = 0b1110) (hc : c.toNat / 64 = 0b10)
      (hd : d.toNat / 64 = 0b10)
      (hn : n = (b.toNat % 16 * 64 + c.toNat % 64) * 64 + d.toNat % 64) : Carries [b, c, d] n
  | four {b c d e : UInt8} {n : Nat} (hb : b.toNat / 8 = 0b11110) (hc : c.toNat / 64 = 0b10)
      (hd : d.toNat / 64 = 0b10) (he : e.toNat / 64 = 0b10)
      (hn : n = ((b.toNat % 8 * 64 + c.toNat % 64) * 64 + d.toNat % 64) * 64 + e.toNat % 64) :
      Carries [b, c, d, e] n

/-- The bytes of a text: the shortest ones for each of its scalar values. -/
inductive Utf8 : Bytes → List Char → Prop where
  | nil : Utf8 [] []
  | cons {s rest : Bytes} {n : Nat} {t : List Char} (carries : Carries s n)
      (shortest : ∀ s', Carries s' n → s.length ≤ s'.length)
      (scalar : n < 0xd800 ∨ 0xdfff < n ∧ n ≤ 0x10ffff) (more : Utf8 rest t) :
      Utf8 (s ++ rest) (Char.ofNat n :: t)

def WellFormed (s : Bytes) : Prop := ∃ t, Utf8 s t

/-! ## The shortest bytes -/

theorem carries_encodeChar (c : Char) : Carries (encodeChar c) c.toNat := by
  have hlast : c.toNat < 0x110000 := by
    have hvalid : c.toNat < 0xd800 ∨ 0xdfff < c.toNat ∧ c.toNat < 0x110000 := c.valid
    omega
  unfold encodeChar
  generalize c.toNat = n at hlast
  dsimp only
  split_ifs with h1 h2 h3
  · exact .one (by simp; omega) (by simp; omega)
  · exact .two (by simp; omega) (by simp; omega) (by simp; omega)
  · exact .three (by simp; omega) (by simp; omega) (by simp; omega) (by simp; omega)
  · exact .four (by simp; omega) (by simp; omega) (by simp; omega) (by simp; omega)
      (by simp; omega)

/-- Fewer bytes do not carry the code point of a character. -/
theorem Carries.length_encodeChar_le {s : Bytes} {c : Char} (h : Carries s c.toNat) :
    (encodeChar c).length ≤ s.length := by
  unfold encodeChar
  generalize c.toNat = n at h
  dsimp only
  cases h with
  | one hb hn =>
    rw [if_pos (by omega)]
    simp
  | two hb hc hn =>
    split_ifs
    · simp
    · simp
    · omega
    · omega
  | three hb hc hd hn =>
    split_ifs
    · simp
    · simp
    · simp
    · omega
  | four hb hc hd he hn => split_ifs <;> simp

/-- As many bytes carry a number in one way only. -/
theorem Carries.eq {s s' : Bytes} {n : Nat} (h : Carries s n) (h' : Carries s' n)
    (hlength : s.length = s'.length) : s = s' := by
  have hbyte : ∀ {a a' : UInt8}, a.toNat = a'.toNat → a = a' := UInt8.toNat_inj.mp
  cases h with
  | one hb hn =>
    cases h' with
    | one hb' hn' => rw [hbyte (hn.symm.trans hn')]
    | _ => cases hlength
  | two hb hc hn =>
    cases h' with
    | two hb' hc' hn' =>
      simp only [List.cons.injEq, and_true]
      exact ⟨hbyte (by omega), hbyte (by omega)⟩
    | _ => cases hlength
  | three hb hc hd hn =>
    cases h' with
    | three hb' hc' hd' hn' =>
      simp only [List.cons.injEq, and_true]
      exact ⟨hbyte (by omega), hbyte (by omega), hbyte (by omega)⟩
    | _ => cases hlength
  | four hb hc hd he hn =>
    cases h' with
    | four hb' hc' hd' he' hn' =>
      simp only [List.cons.injEq, and_true]
      exact ⟨hbyte (by omega), hbyte (by omega), hbyte (by omega), hbyte (by omega)⟩
    | _ => cases hlength

theorem eq_encodeChar {s : Bytes} {n : Nat} (hcarries : Carries s n)
    (hshortest : ∀ s', Carries s' n → s.length ≤ s'.length)
    (hscalar : n < 0xd800 ∨ 0xdfff < n ∧ n ≤ 0x10ffff) : s = encodeChar (Char.ofNat n) := by
  have hn : (Char.ofNat n).toNat = n := toNat_ofNat (by omega)
  have hwritten := carries_encodeChar (Char.ofNat n)
  rw [hn] at hwritten
  refine hcarries.eq hwritten (Nat.le_antisymm (hshortest _ hwritten) ?_)
  exact Carries.length_encodeChar_le (by rwa [hn])

/-! ## The bytes of a text -/

/-- **The bytes of a text are those that the encoder writes.** -/
theorem utf8_iff {s : Bytes} {t : List Char} : Utf8 s t ↔ s = encodeUtf8 t := by
  constructor
  · intro h
    induction h with
    | nil => rfl
    | cons hcarries hshortest hscalar _ ih =>
      rw [eq_encodeChar hcarries hshortest hscalar, ih]
      rfl
  · rintro rfl
    induction t with
    | nil => exact .nil
    | cons c t ih =>
      have hscalar : c.toNat < 0xd800 ∨ 0xdfff < c.toNat ∧ c.toNat ≤ 0x10ffff := by
        have hvalid : c.toNat < 0xd800 ∨ 0xdfff < c.toNat ∧ c.toNat < 0x110000 := c.valid
        omega
      have hcons := Utf8.cons (carries_encodeChar c) (fun _ h => h.length_encodeChar_le) hscalar ih
      rwa [Char.ofNat_toNat] at hcons

theorem decodeUtf8_iff {s : Bytes} {t : List Char} : decodeUtf8 s = .ok t ↔ Utf8 s t := by
  rw [decodeUtf8_eq_ok, utf8_iff]

theorem not_wellFormed_iff {s : Bytes} :
    ¬ WellFormed s ↔ ∃ offset, decodeUtf8 s = .error offset := by
  unfold WellFormed
  cases h : decodeUtf8 s with
  | ok t => simpa using ⟨t, decodeUtf8_iff.mp h⟩
  | error offset =>
    simp only [Except.error.injEq, exists_eq', iff_true, not_exists]
    intro t ht
    rw [decodeUtf8_iff.mpr ht] at h
    cases h

end Assemblage.Text
