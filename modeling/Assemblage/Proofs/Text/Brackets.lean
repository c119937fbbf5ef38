import Mathlib.Data.List.Infix
import Mathlib.Data.List.Basic

/-!
# Brackets

For any two characters that open and close, `depth o c s` counts the brackets that a text opens and
does not close. A text is `Nested o c n` if it closes all that it opens, never closes what it has
not opened, and never has more than `n` brackets open.

Main statements: nested texts stay nested one behind another (`Nested.append`), and one pair of
brackets around a text is one level more, no more and no less (`nested_block`).
-/

namespace Assemblage.Brackets
set_option autoImplicit false

variable {o c : Char}

/-! ## Depths -/

def depth (o c : Char) (s : List Char) : Int := (s.count o : Int) - s.count c

/-- Whether a text has no bracket at all. -/
def Plain (o c : Char) (s : List Char) : Prop := o ∉ s ∧ c ∉ s

theorem depth_append (s t : List Char) : depth o c (s ++ t) = depth o c s + depth o c t := by
  simp only [depth, List.count_append]
  omega

theorem depth_cons (d : Char) (s : List Char) :
    depth o c (d :: s) = depth o c [d] + depth o c s :=
  depth_append [d] s

theorem depth_open (h : o ≠ c) : depth o c [o] = 1 := by simp [depth, h]

theorem depth_close (h : o ≠ c) : depth o c [c] = -1 := by simp [depth, h.symm]

theorem depth_other {d : Char} (ho : d ≠ o) (hc : d ≠ c) : depth o c [d] = 0 := by
  simp [depth, ho, hc]

theorem Plain.depth_eq {s : List Char} (h : Plain o c s) : depth o c s = 0 := by
  rw [depth, List.count_eq_zero.mpr h.1, List.count_eq_zero.mpr h.2]
  rfl

theorem Plain.of_prefix {a s : List Char} (h : Plain o c s) (ha : a <+: s) : Plain o c a :=
  ⟨fun hm => h.1 (ha.subset hm), fun hm => h.2 (ha.subset hm)⟩

/-- A prefix of two texts ends in the first one or goes on into the second. -/
theorem prefix_append_cases {a s t : List Char} (h : a <+: s ++ t) :
    a <+: s ∨ ∃ b, b <+: t ∧ a = s ++ b := by
  rcases List.prefix_or_prefix_of_prefix h (List.prefix_append s t) with ha | ⟨b, rfl⟩
  · exact .inl ha
  · exact .inr ⟨b, (List.prefix_append_right_inj s).mp h, rfl⟩

/-! ## Nested texts -/

structure Balanced (o c : Char) (s : List Char) : Prop where
  nonneg : ∀ a, a <+: s → 0 ≤ depth o c a
  closed : depth o c s = 0

structure Nested (o c : Char) (n : Int) (s : List Char) : Prop extends Balanced o c s where
  shallow : ∀ a, a <+: s → depth o c a ≤ n

instance (n : Int) (s : List Char) : Decidable (Nested o c n s) :=
  decidable_of_iff
    ((∀ a ∈ s.inits, 0 ≤ depth o c a ∧ depth o c a ≤ n) ∧ depth o c s = 0)
    ⟨fun h => ⟨⟨fun a ha => (h.1 a ((List.mem_inits a s).mpr ha)).1, h.2⟩,
        fun a ha => (h.1 a ((List.mem_inits a s).mpr ha)).2⟩,
      fun h => ⟨fun a ha => ⟨h.nonneg a ((List.mem_inits a s).mp ha),
        h.shallow a ((List.mem_inits a s).mp ha)⟩, h.closed⟩⟩

theorem Nested.of_plain {n : Int} (hn : 0 ≤ n) {s : List Char} (h : Plain o c s) :
    Nested o c n s where
  nonneg := fun _ ha => Int.le_of_eq (h.of_prefix ha).depth_eq.symm
  closed := h.depth_eq
  shallow := fun _ ha => by rw [(h.of_prefix ha).depth_eq]; exact hn

theorem Balanced.append {s t : List Char} (hs : Balanced o c s) (ht : Balanced o c t) :
    Balanced o c (s ++ t) where
  nonneg := by
    intro a ha
    rcases prefix_append_cases ha with ha | ⟨b, hb, rfl⟩
    · exact hs.nonneg a ha
    · rw [depth_append, hs.closed, Int.zero_add]
      exact ht.nonneg b hb
  closed := by rw [depth_append, hs.closed, ht.closed, Int.zero_add]

theorem Nested.append {n : Int} {s t : List Char} (hs : Nested o c n s) (ht : Nested o c n t) :
    Nested o c n (s ++ t) where
  toBalanced := hs.toBalanced.append ht.toBalanced
  shallow := by
    intro a ha
    rcases prefix_append_cases ha with ha | ⟨b, hb, rfl⟩
    · exact hs.shallow a ha
    · rw [depth_append, hs.closed, Int.zero_add]
      exact ht.shallow b hb

theorem Nested.of_append {n : Int} {s t : List Char} (hs : depth o c s = 0)
    (h : Nested o c n (s ++ t)) : Nested o c n t := by
  have hfront : ∀ a, a <+: t → s ++ a <+: s ++ t := fun a ha =>
    (List.prefix_append_right_inj s).mpr ha
  have hdepth : ∀ a, depth o c (s ++ a) = depth o c a := fun a => by
    rw [depth_append, hs, Int.zero_add]
  refine ⟨⟨fun a ha => ?_, ?_⟩, fun a ha => ?_⟩
  · rw [← hdepth]
    exact h.nonneg _ (hfront a ha)
  · rw [← hdepth]
    exact h.closed
  · rw [← hdepth]
    exact h.shallow _ (hfront a ha)

/-- A prefix of a block is empty, the whole block, or goes on from the bracket into the text. -/
theorem prefix_block_cases {a s : List Char} (h : a <+: o :: (s ++ [c])) :
    a = [] ∨ a = o :: (s ++ [c]) ∨ ∃ b, b <+: s ∧ a = o :: b := by
  cases a with
  | nil => exact .inl rfl
  | cons d a =>
    obtain ⟨rfl, ha⟩ := List.cons_prefix_cons.mp h
    rcases List.prefix_concat_iff.mp ha with rfl | ha
    · exact .inr (.inl (by simp))
    · exact .inr (.inr ⟨a, ha, rfl⟩)

/-- Brackets around a balanced text are one level more. -/
theorem nested_block (h : o ≠ c) {n : Int} (hn : 0 ≤ n) {s : List Char} (hs : Balanced o c s) :
    Nested o c (n + 1) (o :: (s ++ [c])) ↔ Nested o c n s := by
  have hinner : ∀ b, depth o c (o :: b) = 1 + depth o c b := fun b => by
    rw [depth_cons, depth_open h]
  have hwhole : depth o c (o :: (s ++ [c])) = 0 := by
    rw [hinner, depth_append, hs.closed, depth_close h]
    rfl
  have hnil : depth o c [] = 0 := rfl
  constructor
  · intro hblock
    refine ⟨hs, fun a ha => ?_⟩
    have hfront : o :: a <+: o :: (s ++ [c]) :=
      List.cons_prefix_cons.mpr ⟨rfl, ha.trans (List.prefix_append s [c])⟩
    have hle := hblock.shallow _ hfront
    rw [hinner] at hle
    omega
  · intro hnested
    refine ⟨⟨fun a ha => ?_, hwhole⟩, fun a ha => ?_⟩
    · rcases prefix_block_cases ha with rfl | rfl | ⟨b, hb, rfl⟩
      · omega
      · omega
      · have hb := hs.nonneg b hb
        rw [hinner]
        omega
    · rcases prefix_block_cases ha with rfl | rfl | ⟨b, hb, rfl⟩
      · omega
      · omega
      · have hb := hnested.shallow b hb
        rw [hinner]
        omega

end Assemblage.Brackets
