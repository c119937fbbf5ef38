import Assemblage.Embed.Container
import Assemblage.Proofs.Text.Identifier
import Mathlib.Data.List.Forall2

/-!
# Names of containers

The name of a container is an underscore and the stem of the owner, character for character:
letters and numbers stay, and every other character becomes an underscore. Letters, decimal digits
and underscores are parts of identifiers, but the numbers of category No also stay, and these are
not (`isIdentifierPart_nameChar`).

Main statement: `container_identifier`.
-/

namespace Assemblage.Blob
set_option autoImplicit false
open Assemblage.Text

/-- What may stand in a name in place of a character of the stem. -/
structure Replaces (c d : Char) : Prop where
  same_or_underscore : d = c ∨ d = '_'
  letter : isLetter c = true → d = c
  digit : isDigit c = true → d = c
  otherNumber : isOtherNumber c = true → d = c
  foreign : isIdentifierPart c = false → isOtherNumber c = false → d = '_'

theorem nameChar_of_isAlnum {c : Char} (h : isAlnum c = true) : nameChar c = c := by
  simp [nameChar, h]

theorem nameChar_of_not_isAlnum {c : Char} (h : isAlnum c = false) : nameChar c = '_' := by
  by_cases hc : c = '_' <;> simp [nameChar, h, hc]

theorem replaces_nameChar (c : Char) : Replaces c (nameChar c) := by
  by_cases h : isAlnum c = true
  · rw [nameChar_of_isAlnum h]
    refine ⟨.inl rfl, fun _ => rfl, fun _ => rfl, fun _ => rfl, fun hforeign hnumber => ?_⟩
    rcases isIdentifierPart_of_isAlnum h with hpart | hother
    · rw [hforeign] at hpart
      cases hpart
    · rw [hnumber] at hother
      cases hother
  · rw [Bool.not_eq_true] at h
    have hclasses := h
    simp only [isAlnum_eq, Bool.or_eq_false_iff] at hclasses
    obtain ⟨hletter, -, hdigit, hother⟩ := hclasses
    rw [nameChar_of_not_isAlnum h]
    exact ⟨.inr rfl, by simp [hletter], by simp [hdigit], by simp [hother], fun _ _ => rfl⟩

/-- A character of the stem spoils the name exactly if it is one of the other numbers. -/
theorem isIdentifierPart_nameChar (c : Char) :
    isIdentifierPart (nameChar c) = !isOtherNumber c := by
  have hunderscore : isIdentifierPart '_' = true := by decide +kernel
  cases hother : isOtherNumber c with
  | true =>
    have halnum : isAlnum c = true := by simp [isAlnum_eq, hother]
    rw [nameChar_of_isAlnum halnum, isIdentifierPart_of_isOtherNumber hother]
    rfl
  | false =>
    rw [Bool.not_false]
    by_cases h : isAlnum c = true
    · rw [nameChar_of_isAlnum h]
      exact (isIdentifierPart_of_isAlnum h).resolve_right (by simp [hother])
    · rw [nameChar_of_not_isAlnum (by simpa using h), hunderscore]

theorem stem_ne_nil (owner : List Char) : stem owner ≠ [] := by
  have hscene : "scene".toList ≠ [] := by decide
  unfold stem
  simp only
  split
  · exact hscene
  · next h => simpa using h

/-- **The name of a container** is an underscore and at least one character more. The characters
behind the underscore stand one for one for those of the stem, and all of them are parts of
identifiers exactly if no character of the stem is a number of category No. -/
theorem container_identifier (b : Blob) :
    ∃ name, b.container.toList = '_' :: name ∧ name ≠ [] ∧
      List.Forall₂ Replaces (stem b.owner.toList) name ∧
      ((∀ c ∈ b.container.toList, isIdentifierPart c = true) ↔
        ∀ c ∈ stem b.owner.toList, isOtherNumber c = false) := by
  have hname : b.container.toList = '_' :: (stem b.owner.toList).map nameChar := by
    rw [container, String.toList_ofList]
    rfl
  have hunderscore : isIdentifierPart '_' = true := by decide +kernel
  refine ⟨(stem b.owner.toList).map nameChar, hname, ?_, ?_, ?_⟩
  · simpa using stem_ne_nil b.owner.toList
  · rw [List.forall₂_map_right_iff, List.forall₂_same]
    exact fun c _ => replaces_nameChar c
  · rw [hname, List.forall_mem_cons, and_iff_right hunderscore, List.forall_mem_map]
    simp only [isIdentifierPart_nameChar, Bool.not_eq_true']

/-- A superscript stays in the name, and the name is no identifier. -/
theorem container_superscript :
    (Blob.ofPayload "x²" []).container = "_x²" ∧ isIdentifierPart '²' = false ∧
      ¬ ∀ c ∈ (Blob.ofPayload "x²" []).container.toList, isIdentifierPart c = true := by
  have hname : (Blob.ofPayload "x²" []).container = "_x²" := by decide +kernel
  have hsuperscript : isIdentifierPart '²' = false := by decide +kernel
  refine ⟨hname, hsuperscript, fun hall => ?_⟩
  have hpart : isIdentifierPart '²' = true := hall '²' (by rw [hname]; decide)
  rw [hsuperscript] at hpart
  cases hpart

end Assemblage.Blob
