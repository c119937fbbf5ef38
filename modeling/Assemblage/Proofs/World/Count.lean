import Assemblage.World.Basic
import Mathlib.Algebra.Ring.Nat

/-!
# Counting over a stack

The entities of a world are counted over a stack of entities that are still to be seen: a turn
takes the last one off and puts all of its children at the end. Neither the height of the stack nor
the depth of what is on it need become less, but each turn moves one entity from the forest on the
stack to those seen (`Turn.tally`). So every run of turns is one of as many turns as there are
entities, or can go on.

Main statement: `World.count_forest`.
-/

namespace Assemblage
set_option autoImplicit false

namespace Entity

/-! ## Forests -/

theorem countAll_eq_sum (es : List Entity) : countAll es = (es.map count).sum := by
  induction es with
  | nil => rfl
  | cons e es ih => rw [countAll, ih, List.map_cons, List.sum_cons]

theorem countAll_eq_zero {es : List Entity} : countAll es = 0 ↔ es = [] := by
  constructor
  · intro h
    cases es with
    | nil => rfl
    | cons e es =>
      rw [countAll, count_eq] at h
      omega
  · rintro rfl
    rfl

/-! ## One turn -/

/-- A stack with how many entities have been taken off it. -/
abbrev Pending := List Entity × Nat

/-- A turn: the last entity is taken off the stack, and its children are put at the end of it. -/
inductive Turn : Pending → Pending → Prop where
  | pop (below : List Entity) (e : Entity) (seen : Nat) :
      Turn (below ++ [e], seen) (below ++ e.children, seen + 1)

theorem exists_turn {s : Pending} (h : s.1 ≠ []) : ∃ s', Turn s s' := by
  obtain ⟨stack, seen⟩ := s
  have hturn := Turn.pop stack.dropLast (stack.getLast h) seen
  rw [List.dropLast_concat_getLast h] at hturn
  exact ⟨_, hturn⟩

theorem Turn.seen {s s' : Pending} (h : Turn s s') : s'.2 = s.2 + 1 := by
  cases h
  rfl

/-- A turn keeps the number of the entities seen and of those in the forest on the stack. -/
theorem Turn.tally {s s' : Pending} (h : Turn s s') :
    s'.2 + countAll s'.1 = s.2 + countAll s.1 := by
  cases h with
  | pop below e seen =>
    simp only [countAll_append, countAll, count_eq]
    omega

/-- A pile is the stack from its end on, so that a turn is one call of the count over piles. -/
theorem Turn.countPile {s s' : Pending} (h : Turn s s') :
    Entity.countPile s'.1.reverse s'.2 = Entity.countPile s.1.reverse s.2 := by
  cases h with
  | pop below e seen =>
    simp only [List.reverse_append, List.reverse_singleton, List.singleton_append]
    rw [Entity.countPile]

/-! ## Runs of turns -/

inductive Turns (s : Pending) : Nat → Pending → Prop where
  | none : Turns s 0 s
  | more {n : Nat} {s' s'' : Pending} (before : Turns s n s') (turn : Turn s' s'') :
      Turns s (n + 1) s''

variable {s s' : Pending} {n : Nat}

theorem Turns.seen (h : Turns s n s') : s'.2 = s.2 + n := by
  induction h with
  | none => rfl
  | more _ turn ih => rw [turn.seen, ih, Nat.add_assoc]

theorem Turns.tally (h : Turns s n s') : s'.2 + countAll s'.1 = s.2 + countAll s.1 := by
  induction h with
  | none => rfl
  | more _ turn ih => rw [turn.tally, ih]

theorem Turns.countPile (h : Turns s n s') :
    Entity.countPile s'.1.reverse s'.2 = Entity.countPile s.1.reverse s.2 := by
  induction h with
  | none => rfl
  | more _ turn ih => rw [turn.countPile, ih]

/-- What is left on the stack behind so many turns. -/
theorem Turns.left (h : Turns s n s') : n + countAll s'.1 = countAll s.1 := by
  have hseen := h.seen
  have htally := h.tally
  omega

/-- The turns go on until the stack is empty, and no further. -/
theorem exists_turns_iff : (∃ s', Turns s n s') ↔ n ≤ countAll s.1 := by
  constructor
  · rintro ⟨s', h⟩
    have hleft := h.left
    omega
  · intro hn
    induction n with
    | zero => exact ⟨s, .none⟩
    | succ n ih =>
      obtain ⟨s', h⟩ := ih (by omega)
      have hleft := h.left
      have hne : s'.1 ≠ [] := fun hnil => by
        rw [countAll_eq_zero.mpr hnil] at hleft
        omega
      obtain ⟨s'', hturn⟩ := exists_turn hne
      exact ⟨s'', .more h hturn⟩

theorem turns_nil_iff {stack : List Entity} {seen : Nat} :
    Turns (stack, 0) n ([], seen) ↔ n = countAll stack ∧ seen = countAll stack := by
  constructor
  · intro h
    have hleft : n + countAll [] = countAll stack := h.left
    have hseen : seen = 0 + n := h.seen
    rw [countAll] at hleft
    omega
  · rintro ⟨rfl, rfl⟩
    obtain ⟨⟨stack', seen⟩, h⟩ : ∃ s', Turns (stack, 0) (countAll stack) s' :=
      exists_turns_iff.mpr (Nat.le_refl _)
    have hleft : countAll stack + countAll stack' = countAll stack := h.left
    have hseen : seen = 0 + countAll stack := h.seen
    obtain rfl := countAll_eq_zero.mp (by omega : countAll stack' = 0)
    rw [hseen, Nat.zero_add] at h
    exact h

end Entity

namespace World

theorem count_eq_countAll (w : World) : w.count = Entity.countAll w.entities := by
  have h : Entity.Turns (w.entities, 0) (Entity.countAll w.entities)
      ([], Entity.countAll w.entities) := Entity.turns_nil_iff.mpr ⟨rfl, rfl⟩
  have hpile := h.countPile
  rw [List.reverse_nil, Entity.countPile] at hpile
  exact hpile.symm

/-- **Counting over a stack ends with the number of entities**: the sum over the entities of a
world, where an entity counts for one and for its children. The stack is empty behind as many turns
as there are entities, never before, and no turn is taken behind that. -/
theorem count_forest (w : World) :
    (∀ e : Entity, e.count = 1 + (e.children.map Entity.count).sum) ∧
    w.count = (w.entities.map Entity.count).sum ∧
    (∀ turns seen, Entity.Turns (w.entities, 0) turns ([], seen) ↔
      turns = w.count ∧ seen = w.count) ∧
    ∀ turns, (∃ last, Entity.Turns (w.entities, 0) turns last) ↔ turns ≤ w.count := by
  rw [count_eq_countAll]
  refine ⟨fun e => ?_, Entity.countAll_eq_sum w.entities, fun turns seen => Entity.turns_nil_iff,
    fun turns => Entity.exists_turns_iff⟩
  rw [Entity.count_eq, Entity.countAll_eq_sum]

end World

end Assemblage
