import Assemblage.Proofs.Json.RoundTrip
import Assemblage.Proofs.Text.Utf8
import Assemblage.Proofs.World.Arrangement
import Assemblage.World.Payload

/-!
# Payloads read back

Whatever world has a payload, decoding that payload gives the world back, up to the order of
components and of keys (`decode_encode`).
-/

namespace Assemblage.Payload
set_option autoImplicit false

/-- A world has a payload if nothing in it is unfit, it is not nested too deep and its value can be
written; the payload is then the text in UTF-8. -/
theorem encode_eq_ok {w : World} {b : Text.Bytes} :
    encode w = .ok b ↔ w.toValue.offender? = none ∧ w.toValue.depth ≤ deepest ∧
      ∃ s, Json.write? w.toValue = some s ∧ b = Text.encodeUtf8 s := by
  unfold encode encodeChars
  simp only
  cases w.toValue.offender? with
  | some o => simp [Except.map]
  | none =>
    by_cases hdepth : deepest < w.toValue.depth
    · simp [hdepth, Except.map]
    · cases Json.write? w.toValue with
      | none => simp [hdepth, Except.map]
      | some s =>
        have hle := Nat.le_of_not_lt hdepth
        simp [hdepth, hle, Except.map, eq_comm]

/-- What keeps a world from its payload is an offender, or that it cannot be written. -/
theorem encode_eq_error {w : World} {f : EncodeFault} (h : encode w = .error f) :
    f = .unencodable ∨ ∃ o, w.toValue.offender? = some o ∧ f = .unfit o := by
  unfold encode encodeChars at h
  simp only at h
  cases ho : w.toValue.offender? with
  | some o =>
    rw [ho] at h
    cases h
    exact .inr ⟨o, rfl, rfl⟩
  | none =>
    rw [ho] at h
    split at h
    · contradiction
    · left
      split at h
      · cases h
        rfl
      · split at h
        · cases h
        · cases h
          rfl

/-- Bytes are a payload if they are the text of a value that is checked as a world. -/
theorem decode_eq_ok {b : Text.Bytes} {w : World} :
    decode b = .ok w ↔ ∃ s v, Text.decodeUtf8 b = .ok s ∧ Json.read? limits s = some v ∧
      World.check v = .ok w := by
  constructor
  · intro h
    unfold decode at h
    split at h
    · cases h
    · next s hs =>
      split at h
      · cases h
      · next v hv =>
        cases hw : World.check v with
        | ok w' =>
          rw [hw] at h
          cases h
          exact ⟨s, v, hs, hv, hw⟩
        | bad ps =>
          rw [hw] at h
          cases h
  · rintro ⟨s, v, hs, hv, hw⟩
    rw [decode, hs]
    simp only [hv, hw]
    rfl

theorem decode_of_encode {w : World} (hw : w.Proper) {b : Text.Bytes} (h : encode w = .ok b) :
    decode b = .ok w.arranged := by
  obtain ⟨hoffender, hdepth, s, hwrite, rfl⟩ := encode_eq_ok.mp h
  have hread : Json.read? limits s = some w.toValue.arranged :=
    Json.read?_write? (World.distinct_toValue hw) hoffender hwrite limits
      (Nat.le_trans hdepth (by decide))
  have hcheck := World.check_arranged hw (Nat.le_trans hdepth (by decide))
  exact decode_eq_ok.mpr ⟨s, _, Text.decodeUtf8_encodeUtf8 s, hread, hcheck⟩

/-- **A payload is decoded as the world that it was encoded from.** Decoding succeeds and gives the
world with its components and mappings sorted by their keys, which is alike the world: the same
capacity, the same entities in the same order, and every value with its type. -/
theorem decode_encode {w : World} (hw : w.Proper) {b : Text.Bytes} (h : encode w = .ok b) :
    decode b = .ok w.arranged ∧ w.Alike w.arranged :=
  ⟨decode_of_encode hw h, w.alike_arranged⟩

/-- A world with a child, real numbers, an escape, and components and keys that are not in order. -/
theorem decode_encode_nested :
    let w : World := ⟨some 3,
      [⟨some (RawText.ofString "a\n\""), false,
        [(RawText.ofString "y", .list [.real (.ofDecimal true 1 16), .real (.ofDecimal true 0 0)]),
          (RawText.ofString "x", .record [("q", .integer 18446744073709551615), ("p", .null)])],
        [⟨none, true, [], []⟩]⟩]⟩
    w.Proper ∧ ∃ b, encode w = .ok b ∧ decode b = .ok w.arranged ∧ w.Alike w.arranged := by
  intro w
  have hproper : w.Proper := by
    refine ⟨by simp [w], ⟨by decide, ?_, ⟨by simp, by simp, trivial⟩, trivial⟩, trivial⟩
    intro c hc
    rcases List.mem_pair.mp hc with rfl | rfl
    · exact ⟨trivial, trivial, trivial⟩
    · exact ⟨Value.nodup_record (show ["q", "p"].Nodup by decide), trivial, trivial, trivial⟩
  have hoffender : w.toValue.offender?.isNone = true := by decide +kernel
  have hwrite : (Json.write? w.toValue).isSome = true := by decide +kernel
  obtain ⟨s, hs⟩ := Option.isSome_iff_exists.mp hwrite
  have hencode : encode w = .ok (Text.encodeUtf8 s) :=
    encode_eq_ok.mpr ⟨Option.isNone_iff_eq_none.mp hoffender, by decide +kernel, s, hs, rfl⟩
  exact ⟨hproper, _, hencode, decode_encode hproper hencode⟩

end Assemblage.Payload
