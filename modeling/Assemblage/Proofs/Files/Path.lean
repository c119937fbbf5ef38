import Assemblage.Files.Path
import Mathlib.Data.List.Basic

/-!
# Parts of paths

A path that is read from a text has parts without slashes (`Path.clean_ofString`), so that its stem,
which names an assembly, has none either (`Path.Clean.stem`). A text without a slash is the only
part of its path (`Path.ofString_of_name`).
-/

namespace Assemblage.Path
set_option autoImplicit false

/-! ## Cutting at slashes -/

theorem splitSlashes_cons (c : Char) (s : List Char) :
    ∃ part rest, splitSlashes s = part :: rest ∧
      splitSlashes (c :: s) = if c == '/' then [] :: part :: rest else (c :: part) :: rest := by
  have hne : splitSlashes s ≠ [] := by
    induction s with
    | nil => simp [splitSlashes]
    | cons d s ih =>
      intro h
      unfold splitSlashes at h ih
      rw [List.foldr_cons] at h
      split at h
      · split at h <;> cases h
      · next hnil => exact ih hnil
  obtain ⟨part, rest, hs⟩ := List.exists_cons_of_ne_nil hne
  refine ⟨part, rest, hs, ?_⟩
  unfold splitSlashes at hs ⊢
  rw [List.foldr_cons, hs]

/-- No piece holds a slash. -/
theorem slash_not_mem_splitSlashes (s : List Char) :
    ∀ part ∈ splitSlashes s, '/' ∉ part := by
  induction s with
  | nil => simp [splitSlashes]
  | cons c s ih =>
    obtain ⟨part, rest, hs, hcons⟩ := splitSlashes_cons c s
    rw [hs, List.forall_mem_cons] at ih
    rw [hcons]
    split
    · simpa using ih
    · next hc =>
      rw [List.forall_mem_cons]
      refine ⟨?_, ih.2⟩
      rintro (_ | ⟨_, hmem⟩)
      · exact hc rfl
      · exact ih.1 hmem

theorem splitSlashes_of_name {s : List Char} (h : '/' ∉ s) : splitSlashes s = [s] := by
  induction s with
  | nil => rfl
  | cons c s ih =>
    rw [List.mem_cons, not_or] at h
    obtain ⟨part, rest, hs, hcons⟩ := splitSlashes_cons c s
    rw [ih h.2] at hs
    cases hs
    rw [hcons, if_neg (by simpa using Ne.symm h.1)]

/-- A text without a slash is the only part of its path, unless it is empty or a point. -/
theorem ofString_of_name {s : String} (hslash : '/' ∉ s.toList) (hempty : s.toList ≠ [])
    (hpoint : s.toList ≠ ['.']) : ofString s = ⟨0, [s]⟩ := by
  have htake : s.toList.takeWhile (· == '/') = [] := by
    cases hs : s.toList with
    | nil => rfl
    | cons c rest =>
      rw [hs, List.mem_cons, not_or] at hslash
      rw [List.takeWhile_cons, if_neg (by simpa using Ne.symm hslash.1)]
  unfold ofString
  rw [htake, splitSlashes_of_name hslash]
  simp [hempty, hpoint]

/-! ## Clean paths -/

/-- Whether no part of a path holds a slash. -/
def Clean (p : Path) : Prop := ∀ part ∈ p.parts, '/' ∉ part.toList

theorem clean_ofString (s : String) : (ofString s).Clean := by
  intro part hpart
  obtain ⟨chars, hchars, rfl⟩ := List.mem_map.mp hpart
  rw [String.toList_ofList]
  exact slash_not_mem_splitSlashes _ _ (List.mem_of_mem_filter hchars)

/-- The stem of a clean path holds no slash. -/
theorem Clean.stem {p : Path} (h : p.Clean) : '/' ∉ p.stem.toList := by
  have hname : '/' ∉ p.name.toList := by
    unfold name
    cases hparts : p.parts.getLast? with
    | none => simp [List.getLastD_eq_getLast?, hparts]
    | some part =>
      rw [List.getLastD_eq_getLast?, hparts]
      exact h part (List.mem_of_getLast? hparts)
  rw [Path.stem, String.toList_ofList]
  unfold stemOf
  dsimp only
  split
  · exact hname
  · exact fun hmem => hname (List.mem_of_mem_take hmem)

end Assemblage.Path
