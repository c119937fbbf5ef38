import Assemblage.Imports
import Mathlib.Data.List.Induction

/-!
# First occurrences

A list without its repetitions, in the order in which its members are first seen
(`List.eraseDups`), grows by one member at a time: `eraseDups_concat`. The imports of a build are
such a list. After any run of `Imports.add` they are the first occurrences among the normal forms
of all directives that were given, empty ones left out (`Imports.merge_eraseDups`).
-/

namespace Assemblage
set_option autoImplicit false

/-! ## First occurrences one at a time -/

theorem eraseDups_concat {α : Type} [BEq α] [LawfulBEq α] (xs : List α) (x : α) :
    (xs ++ [x]).eraseDups = if x ∈ xs then xs.eraseDups else xs.eraseDups ++ [x] := by
  rw [List.eraseDups_append]
  by_cases h : x ∈ xs
  · simp [List.removeAll, h]
  · simp [List.removeAll, h, List.eraseDups_cons]

theorem nodup_eraseDups {α : Type} [BEq α] [LawfulBEq α] (xs : List α) : xs.eraseDups.Nodup := by
  induction xs using List.reverseRecOn with
  | nil => simp
  | append_singleton xs x ih =>
    rw [eraseDups_concat]
    by_cases h : x ∈ xs
    · rw [if_pos h]
      exact ih
    · rw [if_neg h, List.nodup_append]
      refine ⟨ih, by simp, ?_⟩
      intro a ha b hb hab
      rw [List.mem_singleton] at hb
      rw [hab, hb] at ha
      exact h (List.mem_eraseDups.mp ha)

namespace Imports

/-! ## Normal forms -/

/-- The normal forms of directives, in order, without the empty ones. -/
def normalForms (raws : List (List Char)) : List (List Char) :=
  (raws.map Directive.normalize).filter fun d => !d.isEmpty

theorem normalForms_append (raws more : List (List Char)) :
    normalForms (raws ++ more) = normalForms raws ++ normalForms more := by
  simp only [normalForms, List.map_append, List.filter_append]

theorem normalForms_cons (raw : List Char) (raws : List (List Char)) :
    normalForms (raw :: raws) = normalForms [raw] ++ normalForms raws :=
  normalForms_append [raw] raws

/-! ## The imports after a run -/

theorem add_eraseDups (xs : List (List Char)) (raw : List Char) :
    (Imports.mk xs.eraseDups).add raw = ⟨(xs ++ normalForms [raw]).eraseDups⟩ := by
  unfold add
  by_cases he : (Directive.normalize raw).isEmpty
  · simp [he, normalForms]
  · have hf : normalForms [raw] = [Directive.normalize raw] := by simp [normalForms, he]
    rw [hf, eraseDups_concat]
    by_cases hm : Directive.normalize raw ∈ xs
    · simp [hm]
    · simp [he, hm]

theorem merge_eraseDups (xs raws : List (List Char)) :
    (Imports.mk xs.eraseDups).merge raws = ⟨(xs ++ normalForms raws).eraseDups⟩ := by
  induction raws generalizing xs with
  | nil => simp [merge, normalForms]
  | cons raw raws ih =>
    have h : (Imports.mk xs.eraseDups).merge (raw :: raws) =
        (Imports.mk (xs ++ normalForms [raw]).eraseDups).merge raws := by
      rw [← add_eraseDups]
      rfl
    rw [h, ih, List.append_assoc, ← normalForms_cons]

/-- The imports that a run starts with. -/
theorem ofList_eq (raws : List (List Char)) : ofList raws = ⟨(normalForms raws).eraseDups⟩ :=
  merge_eraseDups [] raws

end Imports

end Assemblage
