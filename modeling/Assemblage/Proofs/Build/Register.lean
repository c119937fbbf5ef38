import Assemblage.Proofs.Build.Imports
import Assemblage.Proofs.Text.Lines
import Mathlib.Data.Finset.Insert
import Mathlib.Data.List.DropRight

/-!
# Imports with a set beside them

The imports of a build are a list, and whether a directive is known can be asked of a set that grows
beside the list (`Register`). The set holds the members of the list after every step
(`Register.add_agrees`), so that both ways of keeping the imports give the same
(`Register.imports_run`). A normal form is its own normal form (`Directive.normalize_normalize`): a
directive is known in every form, or in none.

Main statement: `Register.run_first_seen`.
-/

namespace Assemblage
set_option autoImplicit false
open Assemblage.Text

/-! ## Normal forms -/

namespace Directive

theorem dropWhile_trim (p : Char → Bool) (s : List Char) : (trim p s).dropWhile p = trim p s := by
  have hfront : trim p s <+: s.dropWhile p := List.rdropWhile_prefix p _
  cases ht : trim p s with
  | nil => rfl
  | cons c t =>
    obtain ⟨rest, hrest⟩ := hfront
    have hc : p c = false := head?_dropWhile_false c (by rw [← hrest, ht]; rfl)
    exact List.dropWhile_cons_of_neg (by simp [hc])

/-- A normal form is its own normal form. -/
theorem normalize_normalize (raw : List Char) : normalize (normalize raw) = normalize raw := by
  unfold normalize
  conv_lhs => rw [trim, dropWhile_trim]
  exact List.rdropWhile_idempotent isMargin _

end Directive

namespace Imports

theorem normalize_of_mem_normalForms {raws : List (List Char)} {d : List Char}
    (h : d ∈ normalForms raws) : Directive.normalize d = d := by
  obtain ⟨raw, -, rfl⟩ := List.mem_map.mp (List.mem_of_mem_filter h)
  exact Directive.normalize_normalize raw

end Imports

/-! ## Registers -/

/-- Imports, and the set of all that was taken in. -/
structure Register where
  directives : List (List Char)
  seen : Finset (List Char)

namespace Register

def empty : Register := ⟨[], ∅⟩

/-- Takes in one directive, unless it is empty or in the set. -/
def add (r : Register) (raw : List Char) : Register :=
  let directive := Directive.normalize raw
  if directive = [] ∨ directive ∈ r.seen then r
  else ⟨r.directives ++ [directive], insert directive r.seen⟩

/-- Takes in directives, and gives back the whole list. -/
def merge (r : Register) (raws : List (List Char)) : Register × List (List Char) :=
  let r := raws.foldl add r
  (r, r.directives)

def ofList (raws : List (List Char)) : Register := (empty.merge raws).1

def contains (r : Register) (raw : List Char) : Bool := Directive.normalize raw ∈ r.seen

/-- The register after several merges. -/
def run (r : Register) (calls : List (List (List Char))) : Register :=
  calls.foldl (fun r raws => (r.merge raws).1) r

def imports (r : Register) : Imports := ⟨r.directives⟩

/-! ## The set and the list -/

/-- Whether the set holds the members of the list. -/
def Agrees (r : Register) : Prop := r.seen = r.directives.toFinset

/-- **One step** keeps the set and the list together, and does to the list what it does to the
imports. -/
theorem add_agrees {r : Register} (h : r.Agrees) (raw : List Char) :
    (r.add raw).Agrees ∧ (r.add raw).imports = r.imports.add raw := by
  unfold add Imports.add
  dsimp only
  have hknown : (Directive.normalize raw = [] ∨ Directive.normalize raw ∈ r.seen) ↔
      ((Directive.normalize raw).isEmpty ||
        r.imports.directives.contains (Directive.normalize raw)) = true := by
    rw [h, List.mem_toFinset, Bool.or_eq_true, List.isEmpty_iff, List.contains_iff_mem]
    rfl
  by_cases hold : Directive.normalize raw = [] ∨ Directive.normalize raw ∈ r.seen
  · rw [if_pos hold, if_pos (hknown.mp hold)]
    exact ⟨h, rfl⟩
  · rw [if_neg hold, if_neg (mt hknown.mpr hold)]
    refine ⟨?_, rfl⟩
    unfold Agrees at h ⊢
    ext d
    simp only [h, Finset.mem_insert, List.mem_toFinset, List.mem_append, List.mem_singleton]
    exact or_comm

theorem merge_agrees {r : Register} (h : r.Agrees) (raws : List (List Char)) :
    (r.merge raws).1.Agrees ∧ (r.merge raws).1.imports = r.imports.merge raws := by
  unfold merge Imports.merge
  dsimp only
  induction raws generalizing r with
  | nil => exact ⟨h, rfl⟩
  | cons raw raws ih =>
    obtain ⟨hadd, himports⟩ := add_agrees h raw
    rw [List.foldl_cons, List.foldl_cons, ← himports]
    exact ih hadd

/-- **A whole run** of merges does to the list what it does to the imports. -/
theorem run_agrees {r : Register} (h : r.Agrees) (calls : List (List (List Char))) :
    (r.run calls).Agrees ∧ (r.run calls).imports = calls.foldl Imports.merge r.imports := by
  induction calls generalizing r with
  | nil => exact ⟨h, rfl⟩
  | cons raws calls ih =>
    obtain ⟨hmerge, himports⟩ := merge_agrees h raws
    rw [List.foldl_cons, ← himports]
    exact ih hmerge

theorem ofList_agrees (raws : List (List Char)) :
    (ofList raws).Agrees ∧ (ofList raws).imports = Imports.ofList raws := by
  have hempty : empty.Agrees := rfl
  exact merge_agrees hempty raws

theorem imports_run (initial : List (List Char)) (calls : List (List (List Char))) :
    ((ofList initial).run calls).imports = calls.foldl Imports.merge (Imports.ofList initial) := by
  obtain ⟨hagrees, himports⟩ := ofList_agrees initial
  rw [← himports]
  exact (run_agrees hagrees calls).2

/-! ## Several merges as one -/

theorem merge_append (r : Register) (raws more : List (List Char)) :
    (r.merge (raws ++ more)).1 = ((r.merge raws).1.merge more).1 := List.foldl_append

theorem run_eq_merge (r : Register) (calls : List (List (List Char))) :
    r.run calls = (r.merge calls.flatten).1 := by
  induction calls generalizing r with
  | nil => rfl
  | cons raws calls ih =>
    rw [List.flatten_cons, merge_append]
    exact ih _

theorem run_ofList (initial : List (List Char)) (calls : List (List (List Char))) :
    (ofList initial).run calls = ofList (initial ++ calls.flatten) := by
  rw [run_eq_merge, ofList, ofList, merge_append]

theorem directives_ofList (raws : List (List Char)) :
    (ofList raws).directives = (Imports.normalForms raws).eraseDups := by
  have himports := (ofList_agrees raws).2
  rw [Imports.ofList_eq] at himports
  exact congrArg Imports.directives himports

theorem merge_ofList (raws next : List (List Char)) :
    ((ofList raws).merge next).2 = (Imports.normalForms (raws ++ next)).eraseDups := by
  have hmerge : ((ofList raws).merge next).1 = ofList (raws ++ next) :=
    (merge_append empty raws next).symm
  rw [← directives_ofList, ← hmerge]
  rfl

/-- Directives are added at the end. -/
theorem prefix_add (r : Register) (raw : List Char) : r.directives <+: (r.add raw).directives := by
  unfold add
  dsimp only
  split
  · exact List.prefix_refl _
  · exact List.prefix_append _ _

theorem prefix_merge (r : Register) (raws : List (List Char)) :
    r.directives <+: (r.merge raws).2 := by
  unfold merge
  dsimp only
  induction raws generalizing r with
  | nil => exact List.prefix_refl _
  | cons raw raws ih => exact (r.prefix_add raw).trans (ih _)

theorem contains_iff {r : Register} (h : r.Agrees) (raw : List Char) :
    r.contains raw = true ↔ Directive.normalize raw ∈ r.directives := by
  rw [contains, decide_eq_true_iff, h, List.mem_toFinset]

/-! ## The main statement -/

/-- **A register holds what was first seen of everything that it was given,** in normal form and
without empty directives, however that was divided into merges. It has each directive once, and
each is its own normal form. Every merge gives back the whole list, which only grows at its end. A
directive is known exactly if its normal form is in the list. The imports of a build are that
list, and know the same directives. -/
theorem run_first_seen (initial : List (List Char)) (calls : List (List (List Char))) :
    let given := initial ++ calls.flatten
    let r := (ofList initial).run calls
    let i := calls.foldl Imports.merge (Imports.ofList initial)
    r = ofList given ∧ r.directives = (Imports.normalForms given).eraseDups ∧
    r.directives.Nodup ∧ r.directives.map Directive.normalize = r.directives ∧
    (∀ next, (r.merge next).2 = (Imports.normalForms (given ++ next)).eraseDups ∧
      ∃ added, (r.merge next).2 = r.directives ++ added) ∧
    (∀ raw, r.contains raw = true ↔ Directive.normalize raw ∈ r.directives) ∧
    i.directives = r.directives ∧ ∀ raw, i.contains raw = r.contains raw := by
  intro given r i
  have hr : r = ofList given := run_ofList initial calls
  have hdirectives : r.directives = (Imports.normalForms given).eraseDups := by
    rw [hr, directives_ofList]
  have hcontains : ∀ raw, r.contains raw = true ↔ Directive.normalize raw ∈ r.directives := by
    rw [hr]
    exact contains_iff (ofList_agrees given).1
  have himports : i.directives = r.directives :=
    (congrArg Imports.directives (imports_run initial calls)).symm
  refine ⟨hr, hdirectives, ?_, ?_, ?_, hcontains, himports, ?_⟩
  · rw [hdirectives]
    exact nodup_eraseDups _
  · have hnormal : ∀ d ∈ r.directives, Directive.normalize d = id d := by
      intro d hd
      rw [hdirectives, List.mem_eraseDups] at hd
      exact Imports.normalize_of_mem_normalForms hd
    rw [List.map_congr_left hnormal, List.map_id]
  · intro next
    refine ⟨by rw [hr, merge_ofList], ?_⟩
    obtain ⟨added, hadded⟩ := r.prefix_merge next
    exact ⟨added, hadded.symm⟩
  · intro raw
    rw [Bool.eq_iff_iff, hcontains, Imports.contains, List.contains_iff_mem, himports]

end Register

end Assemblage
