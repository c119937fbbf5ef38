import Assemblage.Base64
import Assemblage.Proofs.Text.Lines
import Assemblage.Proofs.Text.Utf8

/-!
# Base64 read back

A text in base64 is a run of digits, each for a value of six bits, with a padding behind it
(`encode_eq`). The values lose none of the bytes (`bytesOf_sextets`), and the padding is the one
that closes the last group (`closes_padding`), so that strict decoding gives the bytes back
(`decode_encode_bytes`). How long the text is, and whether it ends in a padding, depends on the
number of bytes alone (`form_encode`).
-/

namespace Assemblage.Base64
set_option autoImplicit false
open Assemblage.Text (Bytes isAnyBreak ofNat_eq)

/-! ## Digits and padding -/

/-- The six-bit values of bytes. -/
def sextets : Bytes → List Nat
  | [] => []
  | [a] => [a.toNat / 4, a.toNat % 4 * 16]
  | [a, b] => [a.toNat / 4, a.toNat % 4 * 16 + b.toNat / 16, b.toNat % 16 * 4]
  | a :: b :: c :: rest =>
    a.toNat / 4 :: (a.toNat % 4 * 16 + b.toNat / 16) :: (b.toNat % 16 * 4 + c.toNat / 64) ::
      c.toNat % 64 :: sextets rest

/-- How many characters of padding bytes need. -/
def pads : Bytes → Nat
  | [] => 0
  | [_] => 2
  | [_, _] => 1
  | _ :: _ :: _ :: rest => pads rest

theorem encode_eq (bytes : Bytes) :
    encode bytes = (sextets bytes).map digit ++ List.replicate (pads bytes) '=' := by
  fun_induction encode bytes with
  | case1 => rfl
  | case2 a => rfl
  | case3 a b => rfl
  | case4 a b c rest ih => simp [sextets, pads, ih]

theorem sextets_lt (bytes : Bytes) : ∀ n ∈ sextets bytes, n < 64 := by
  fun_induction sextets bytes with
  | case1 => simp
  | case2 a =>
    have ha := a.toNat_lt
    simp only [List.forall_mem_cons]
    exact ⟨by omega, by omega, by simp⟩
  | case3 a b =>
    have ha := a.toNat_lt
    have hb := b.toNat_lt
    simp only [List.forall_mem_cons]
    exact ⟨by omega, by omega, by omega, by simp⟩
  | case4 a b c rest ih =>
    have ha := a.toNat_lt
    have hb := b.toNat_lt
    have hc := c.toNat_lt
    simp only [List.forall_mem_cons]
    exact ⟨by omega, by omega, by omega, by omega, ih⟩

theorem bytesOf_sextets (bytes : Bytes) : bytesOf (sextets bytes) = bytes := by
  fun_induction sextets bytes with
  | case1 => rfl
  | case2 a => rw [bytesOf, ofNat_eq (a := a) (by omega)]
  | case3 a b =>
    have hb := b.toNat_lt
    rw [bytesOf, ofNat_eq (a := a) (by omega), ofNat_eq (a := b) (by omega)]
  | case4 a b c rest ih =>
    have hb := b.toNat_lt
    have hc := c.toNat_lt
    rw [bytesOf, ih, ofNat_eq (a := a) (by omega), ofNat_eq (a := b) (by omega),
      ofNat_eq (a := c) (by omega)]

theorem closes_add_four {digits pads : Nat} (h : closes digits pads = true) :
    closes (digits + 4) pads = true := by
  unfold closes at h ⊢
  rw [Nat.add_mod_right]
  split at h
  · simp
  · exact h
  · exact h
  · cases h

theorem closes_padding (bytes : Bytes) : closes (sextets bytes).length (pads bytes) = true := by
  fun_induction sextets bytes with
  | case1 => rfl
  | case2 a => rfl
  | case3 a b => rfl
  | case4 a b c rest ih => exact closes_add_four ih

/-! ## The alphabet -/

theorem value?_digit {n : Nat} (h : n < 64) : value? (digit n) = some n := by
  have hall : ∀ n : Fin 64, value? (digit n) = some n.val := by decide
  exact hall ⟨n, h⟩

/-- No character of a base64 text lies outside ASCII, ends a text constant or a line, or starts an
escape. -/
theorem plain_of_mem_encode {bytes : Bytes} {c : Char} (h : c ∈ encode bytes) :
    c.toNat < 0x80 ∧ c ≠ '"' ∧ c ≠ '\\' ∧ isAnyBreak c = false := by
  have hall : ∀ n : Fin 64, (digit n).toNat < 0x80 ∧ digit n ≠ '"' ∧ digit n ≠ '\\' ∧
      isAnyBreak (digit n) = false := by decide
  rw [encode_eq, List.mem_append] at h
  rcases h with h | h
  · obtain ⟨n, hn, rfl⟩ := List.mem_map.mp h
    exact hall ⟨n, sextets_lt bytes n hn⟩
  · rw [List.eq_of_mem_replicate h]
    decide

theorem filterMap_value?_digits {ns : List Nat} (h : ∀ n ∈ ns, n < 64) :
    (ns.map digit).filterMap value? = ns := by
  induction ns with
  | nil => rfl
  | cons n ns ih =>
    obtain ⟨hn, hns⟩ := List.forall_mem_cons.mp h
    rw [List.map_cons, List.filterMap_cons_some (value?_digit hn), ih hns]

/-! ## The form of a text -/

/-- The standard alphabet, in the order of the values. -/
def alphabet : List Char :=
  "ABCDEFGHIJKLMNOPQRSTUVWXYZabcdefghijklmnopqrstuvwxyz0123456789+/".toList

theorem alphabet_getElem? {n : Nat} (h : n < 64) : alphabet[n]? = some (digit n) := by
  have hall : ∀ n : Fin 64, alphabet[n.val]? = some (digit n) := by decide +kernel
  exact hall ⟨n, h⟩

theorem pads_eq (bytes : Bytes) : pads bytes = (3 - bytes.length % 3) % 3 := by
  fun_induction pads bytes with
  | case1 => rfl
  | case2 a => rfl
  | case3 a b => rfl
  | case4 a b c rest ih =>
    simp only [List.length_cons, ih]
    omega

theorem length_sextets (bytes : Bytes) :
    (sextets bytes).length + pads bytes = 4 * ((bytes.length + 2) / 3) := by
  fun_induction sextets bytes with
  | case1 => rfl
  | case2 a => simp [pads]
  | case3 a b => simp [pads]
  | case4 a b c rest ih =>
    simp only [List.length_cons, pads]
    omega

/-- What a base64 text of so many bytes looks like: a group of four characters for each three bytes
that are begun, where only characters of the alphabet stand in front of the padding. -/
structure Form (count : Nat) (text : List Char) : Prop where
  length : text.length = 4 * ((count + 2) / 3)
  padded : ∃ digits padding, text = digits ++ padding ∧ (∀ c ∈ digits, c ∈ alphabet) ∧
    (∀ c ∈ padding, c = '=') ∧ padding.length ≤ 2 ∧ (padding ≠ [] ↔ ¬ 3 ∣ count)
  unbroken : ∀ c ∈ text, isAnyBreak c = false

theorem form_encode (bytes : Bytes) : Form bytes.length (encode bytes) where
  length := by
    rw [encode_eq, List.length_append, List.length_map, List.length_replicate, length_sextets]
  padded := by
    refine ⟨_, _, encode_eq bytes, ?_, fun c hc => List.eq_of_mem_replicate hc, ?_, ?_⟩
    · intro c hc
      obtain ⟨n, hn, rfl⟩ := List.mem_map.mp hc
      exact List.mem_of_getElem? (alphabet_getElem? (sextets_lt bytes n hn))
    · rw [List.length_replicate, pads_eq]
      omega
    · rw [Ne, List.replicate_eq_nil_iff, pads_eq]
      omega
  unbroken := fun _ hc => (plain_of_mem_encode hc).2.2.2

/-! ## Reading -/

/-- **Bytes are read back from their base64 text.** -/
theorem decode_encode_bytes (bytes : Bytes) : decode (encode bytes) = .ok bytes := by
  have hascii : (encode bytes).any (fun c => 0x80 ≤ c.toNat) = false := by
    rw [List.any_eq_false]
    intro c hc
    simpa using (plain_of_mem_encode hc).1
  have hdigits : ∀ c ∈ (sextets bytes).map digit, (value? c).isSome = true := by
    intro c hc
    obtain ⟨n, hn, rfl⟩ := List.mem_map.mp hc
    rw [value?_digit (sextets_lt bytes n hn)]
    rfl
  have hpadding : ∀ c ∈ (List.replicate (pads bytes) '=').head?, (value? c).isSome = false := by
    intro c hc
    rw [List.eq_of_mem_replicate (List.mem_of_mem_head? hc)]
    decide
  have htake := Text.takeWhile_append_stop hdigits hpadding
  have hdrop := Text.dropWhile_append_stop hdigits hpadding
  rw [← encode_eq] at htake hdrop
  have hall : (List.replicate (pads bytes) '=').all (· == '=') = true := by simp
  have hcloses : closes ((sextets bytes).map digit).length
      (List.replicate (pads bytes) '=').length = true := by
    rw [List.length_map, List.length_replicate]
    exact closes_padding bytes
  unfold decode
  simp only [hascii, htake, hdrop, hall, hcloses, Bool.and_self, if_true,
    filterMap_value?_digits (sextets_lt bytes), bytesOf_sextets]
  rfl

end Assemblage.Base64
