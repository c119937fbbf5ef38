import Assemblage.Text.Raw

/-!
# The order of raw texts

Raw texts are ordered by code points, and no two characters have one code point. So the order is
total, and two texts that stand in it both ways are the same.
-/

namespace Assemblage
set_option autoImplicit false

theorem RawChar.code_injective : Function.Injective RawChar.code := by
  intro a b h
  have hvalid : ∀ (c : Char) (k : Fin 2048), c.toNat ≠ 0xD800 + k.val := by
    intro c k
    have hc : c.toNat < 0xD800 ∨ (0xDFFF < c.toNat ∧ c.toNat < 0x110000) := c.valid
    omega
  cases a with
  | char c =>
    cases b with
    | char d => exact congrArg char (Char.toNat_inj.mp h)
    | half k => exact absurd h (hvalid c k)
  | half k =>
    cases b with
    | char d => exact absurd h.symm (hvalid d k)
    | half l =>
      have hkl : 0xD800 + k.val = 0xD800 + l.val := h
      exact congrArg half (Fin.ext (by omega))

namespace RawText

theorem le_cons (a b : RawChar) (s t : RawText) :
    le (a :: s) (b :: t) = true ↔ a.code < b.code ∨ a.code = b.code ∧ le s t = true := by
  simp [le]

theorem le_total (s t : RawText) : (le s t || le t s) = true := by
  rw [Bool.or_eq_true]
  induction s generalizing t with
  | nil => exact .inl rfl
  | cons a s ih =>
    cases t with
    | nil => exact .inr rfl
    | cons b t =>
      rw [le_cons, le_cons]
      rcases Nat.lt_trichotomy a.code b.code with hlt | heq | hgt
      · exact .inl (.inl hlt)
      · rcases ih t with hst | hts
        · exact .inl (.inr ⟨heq, hst⟩)
        · exact .inr (.inr ⟨heq.symm, hts⟩)
      · exact .inr (.inl hgt)

theorem le_trans (s t u : RawText) (hst : le s t = true) (htu : le t u = true) :
    le s u = true := by
  induction s generalizing t u with
  | nil => rfl
  | cons a s ih =>
    cases t with
    | nil => cases hst
    | cons b t =>
      cases u with
      | nil => cases htu
      | cons c u =>
        rw [le_cons] at hst htu ⊢
        have hsu := ih t u
        rcases hst with hab | ⟨hab, hst⟩
        · left
          rcases htu with hbc | ⟨hbc, -⟩ <;> omega
        · rcases htu with hbc | ⟨hbc, htu⟩
          · left
            omega
          · exact .inr ⟨hab.trans hbc, hsu hst htu⟩

theorem le_antisymm (s t : RawText) (hst : le s t = true) (hts : le t s = true) : s = t := by
  induction s generalizing t with
  | nil =>
    cases t with
    | nil => rfl
    | cons => cases hts
  | cons a s ih =>
    cases t with
    | nil => cases hst
    | cons b t =>
      rw [le_cons] at hst hts
      rcases hst with hab | ⟨hab, hst⟩
      · rcases hts with hba | ⟨hba, -⟩ <;> omega
      · rcases hts with hba | ⟨-, hts⟩
        · omega
        · rw [RawChar.code_injective hab, ih t hst hts]

end RawText

end Assemblage
