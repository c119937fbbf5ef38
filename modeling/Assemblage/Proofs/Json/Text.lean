import Assemblage.Json.Reader
import Assemblage.Json.Writer
import Mathlib.Tactic.Common

/-!
# Texts read back

A character is written as itself, as a letter behind a backslash, or by its number; each form is
read as that character (`text?_writeChar`), and so a text in quotes is read back
(`text?_writeText?`).
-/

namespace Assemblage.Json
set_option autoImplicit false
open Assemblage.Text

/-! ## Characters by number -/

theorem hexValue?_hexDigit {n : Nat} (h : n < 16) : hexValue? (hexDigit false n) = some n := by
  have hall : ∀ n < 16, hexValue? (hexDigit false n) = some n := by decide
  exact hall n h

theorem cutCode_hexDigits {n : Nat} (h : n < 0x10000) (rest : List Char) :
    cutCode (hexDigits false 4 n ++ rest) = some (n, rest) := by
  have hdigit : ∀ k, hexValue? (hexDigit false (k % 16)) = some (k % 16) :=
    fun k => hexValue?_hexDigit (Nat.mod_lt k (by decide))
  unfold cutCode
  simp only [hexDigits, List.nil_append, List.cons_append, List.take_succ_cons, List.take_zero,
    List.drop_succ_cons, List.drop_zero, List.length_cons, List.length_nil, List.all_cons,
    List.all_nil, isHex, hexNumber, List.foldl_cons, List.foldl_nil, hdigit, Option.isSome_some,
    Option.getD_some, Bool.and_true, decide_true, if_true]
  congr 2
  omega

theorem cutEscape_hexDigits (limits : Limits) {c : Char} (hc : c < ' ') (rest : List Char) :
    cutEscape limits (hexDigits false 4 c.toNat ++ rest) = some (.char c, rest) := by
  have hlt : c.toNat < 32 := hc
  have hlow : (0xd800 ≤ c.toNat && c.toNat < 0xdc00) = false := by
    simp
    omega
  have hcode : RawChar.ofCode? c.toNat = some (.char c) := by
    rw [RawChar.ofCode?, dif_neg (by omega), if_pos (by omega), Char.ofNat_toNat]
  unfold cutEscape
  simp only [cutCode_hexDigits (show c.toNat < 0x10000 by omega), hlow, hcode,
    Option.bind_eq_bind, Option.bind_some, Bool.false_eq_true, if_false]
  rfl

/-! ## Characters -/

theorem escaped?_of_escapeLetter? {c letter : Char} (h : escapeLetter? c = some letter) :
    escaped? letter = some c ∧ letter ≠ 'u' := by
  unfold escapeLetter? at h
  split at h
  all_goals cases h <;> exact ⟨rfl, by decide⟩

theorem escapeLetter?_eq_none {c : Char} (h : escapeLetter? c = none) : c ≠ '"' ∧ c ≠ '\\' := by
  constructor <;> rintro rfl <;> cases h

/-- Whatever form a character is written in, it is read as itself. -/
theorem text?_writeChar (limits : Limits) (c : Char) (rest : List Char) (fuel : Nat) :
    text? limits (writeChar c ++ rest) (fuel + 1) =
      (text? limits rest fuel).map fun read => (.char c :: read.1, read.2) := by
  unfold writeChar
  cases hletter : escapeLetter? c with
  | some letter =>
    obtain ⟨hescaped, hu⟩ := escaped?_of_escapeLetter? hletter
    simp only [List.cons_append, List.nil_append]
    rw [text?]
    · rw [hescaped]
      cases text? limits rest fuel <;> rfl
    · exact fun h => hu h
  | none =>
    obtain ⟨hquote, hbackslash⟩ := escapeLetter?_eq_none hletter
    by_cases hc : c < ' '
    · simp only [hc, if_true, List.cons_append]
      rw [text?, cutEscape_hexDigits limits hc]
      simp only [Option.bind_eq_bind, Option.bind_some]
      cases text? limits rest fuel <;> rfl
    · simp only [hc, if_false, List.cons_append, List.nil_append]
      rw [text?]
      · rw [if_neg (by simp [hc, hbackslash])]
        cases text? limits rest fuel <;> rfl
      · exact fun h => hquote h
      · exact fun _ h _ => hbackslash h
      · exact fun _ _ h _ => hbackslash h

/-! ## Texts -/

theorem writeChar_ne_nil (c : Char) : writeChar c ≠ [] := by
  unfold writeChar
  split
  · simp
  · split <;> simp

theorem length_le_flatMap_writeChar (cs : List Char) :
    cs.length ≤ (cs.flatMap writeChar).length := by
  induction cs with
  | nil => simp
  | cons c cs ih =>
    have hpos := List.length_pos_iff.mpr (writeChar_ne_nil c)
    rw [List.flatMap_cons, List.length_append, List.length_cons]
    omega

theorem text?_chars (limits : Limits) (cs rest : List Char) {fuel : Nat} (h : cs.length < fuel) :
    text? limits (cs.flatMap writeChar ++ '"' :: rest) fuel = some (RawText.ofChars cs, rest) := by
  induction cs generalizing fuel with
  | nil =>
    obtain ⟨fuel, rfl⟩ := Nat.exists_eq_succ_of_ne_zero (Nat.ne_of_gt h)
    rfl
  | cons c cs ih =>
    obtain ⟨fuel, rfl⟩ := Nat.exists_eq_succ_of_ne_zero (Nat.ne_of_gt (Nat.zero_lt_of_lt h))
    rw [List.flatMap_cons, List.append_assoc, text?_writeChar, ih (Nat.lt_of_succ_lt_succ h)]
    rfl

theorem ofChars_of_toChars? {t : RawText} {cs : List Char} (h : t.toChars? = some cs) :
    RawText.ofChars cs = t := by
  unfold RawText.toChars? at h
  induction t generalizing cs with
  | nil =>
    cases h
    rfl
  | cons r t ih =>
    cases r with
    | half offset => simp [List.mapM_cons, RawChar.char?] at h
    | char c =>
      rw [List.mapM_cons] at h
      obtain ⟨ds, hds, hcs⟩ : ∃ ds, t.mapM RawChar.char? = some ds ∧ c :: ds = cs := by
        simpa [RawChar.char?, Option.bind_eq_some_iff] using h
      subst hcs
      rw [← ih hds]
      rfl

/-- **A text is read back from its quoted form.** -/
theorem text?_writeText? (limits : Limits) {t : RawText} {s : List Char} (h : writeText? t = some s)
    (rest : List Char) :
    ∃ body, s = '"' :: body ∧
      text? limits (body ++ rest) ((body ++ rest).length + 1) = some (t, rest) := by
  obtain ⟨cs, hcs, rfl⟩ := Option.map_eq_some_iff.mp h
  refine ⟨cs.flatMap writeChar ++ ['"'], rfl, ?_⟩
  have hlength := length_le_flatMap_writeChar cs
  rw [List.append_assoc, List.singleton_append, text?_chars, ofChars_of_toChars? hcs]
  rw [List.length_append]
  omega

end Assemblage.Json
