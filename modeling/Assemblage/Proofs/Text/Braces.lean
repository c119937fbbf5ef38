import Assemblage.Proofs.Text.Brackets

/-!
# Braces

`depth s` counts the braces that a text opens and does not close. A text is `Balanced` if it never
closes a brace that it has not opened, and closes all that it opens. Braces are counted wherever
they stand, in comments and in quotes too.

Main statements: balanced texts stay balanced one behind another (`Balanced.append`) and between
two braces (`Balanced.block`), and from its first brace on a block is deeper than its surroundings
until the brace that closes it (`one_le_depth_of_mem`).
-/

namespace Assemblage.Braces
set_option autoImplicit false
open Assemblage.Brackets (prefix_append_cases)

/-! ## Depths -/

def depth (s : List Char) : Int := (s.count '\x7b' : Int) - s.count '\x7d'

structure Balanced (s : List Char) : Prop where
  nonneg : ∀ a, a <+: s → 0 ≤ depth a
  closed : depth s = 0

/-- Whether a text has no brace at all. -/
def Plain (s : List Char) : Prop := '\x7b' ∉ s ∧ '\x7d' ∉ s

instance (s : List Char) : Decidable (Balanced s) :=
  decidable_of_iff ((∀ a ∈ s.inits, 0 ≤ depth a) ∧ depth s = 0)
    ⟨fun h => ⟨fun a ha => h.1 a ((List.mem_inits a s).mpr ha), h.2⟩,
      fun h => ⟨fun a ha => h.nonneg a ((List.mem_inits a s).mp ha), h.closed⟩⟩

instance (s : List Char) : Decidable (Plain s) := inferInstanceAs (Decidable (_ ∧ _))

theorem depth_nil : depth [] = 0 := rfl

theorem depth_append (s t : List Char) : depth (s ++ t) = depth s + depth t :=
  Brackets.depth_append s t

theorem depth_cons (c : Char) (s : List Char) : depth (c :: s) = depth [c] + depth s :=
  depth_append [c] s

/-! ## Texts without braces -/

theorem Plain.depth_eq {s : List Char} (h : Plain s) : depth s = 0 := Brackets.Plain.depth_eq h

theorem Plain.of_prefix {a s : List Char} (h : Plain s) (ha : a <+: s) : Plain a :=
  Brackets.Plain.of_prefix h ha

theorem Plain.balanced {s : List Char} (h : Plain s) : Balanced s :=
  ⟨fun _ ha => Int.le_of_eq (h.of_prefix ha).depth_eq.symm, h.depth_eq⟩

theorem Plain.append {s t : List Char} (hs : Plain s) (ht : Plain t) : Plain (s ++ t) :=
  ⟨fun hm => (List.mem_append.mp hm).elim hs.1 ht.1,
    fun hm => (List.mem_append.mp hm).elim hs.2 ht.2⟩

theorem Plain.flatMap {α : Type} {f : α → List Char} {xs : List α} (h : ∀ x ∈ xs, Plain (f x)) :
    Plain (xs.flatMap f) := by
  constructor
  · intro hm
    obtain ⟨x, hx, hc⟩ := List.mem_flatMap.mp hm
    exact (h x hx).1 hc
  · intro hm
    obtain ⟨x, hx, hc⟩ := List.mem_flatMap.mp hm
    exact (h x hx).2 hc

/-! ## Balanced texts -/

theorem Balanced.append {s t : List Char} (hs : Balanced s) (ht : Balanced t) :
    Balanced (s ++ t) := by
  have h := Brackets.Balanced.append ⟨hs.nonneg, hs.closed⟩ ⟨ht.nonneg, ht.closed⟩
  exact ⟨h.nonneg, h.closed⟩

theorem Balanced.flatMap {α : Type} {f : α → List Char} {xs : List α}
    (h : ∀ x ∈ xs, Balanced (f x)) : Balanced (xs.flatMap f) := by
  induction xs with
  | nil => exact ⟨fun a ha => by rw [List.prefix_nil.mp ha]; decide, rfl⟩
  | cons x xs ih =>
    rw [List.flatMap_cons]
    exact (h x List.mem_cons_self).append (ih fun y hy => h y (List.mem_cons_of_mem x hy))

/-- Behind a plain text and an opening brace the depth is one at least. -/
theorem one_le_depth_of_mem {head s : List Char} (hhead : Plain head) (hs : Balanced s)
    {a : List Char} (ha : a <+: head ++ '\x7b' :: s) (hmem : '\x7b' ∈ a) : 1 ≤ depth a := by
  rcases prefix_append_cases ha with ha | ⟨b, hb, rfl⟩
  · exact absurd hmem (hhead.of_prefix ha).1
  · cases b with
    | nil =>
      rw [List.append_nil] at hmem
      exact absurd hmem hhead.1
    | cons c b =>
      obtain ⟨rfl, hrest⟩ := List.cons_prefix_cons.mp hb
      have hopen : depth ['\x7b'] = 1 := by decide
      have hinner := hs.nonneg b hrest
      rw [depth_append, hhead.depth_eq, depth_cons, hopen]
      omega

/-- A balanced text between two braces, with texts without braces around it. -/
theorem Balanced.block {head s tail : List Char} (hhead : Plain head) (hs : Balanced s)
    (htail : Plain tail) : Balanced (head ++ '\x7b' :: s ++ '\x7d' :: tail) where
  nonneg := by
    intro a ha
    have hclose : depth ['\x7d'] = -1 := by decide
    have hfront : ∀ b, b <+: head ++ '\x7b' :: s → 0 ≤ depth b := by
      intro b hb
      by_cases hmem : '\x7b' ∈ b
      · exact Int.le_trans (by decide) (one_le_depth_of_mem hhead hs hb hmem)
      · have hplain : b <+: head := by
          rcases prefix_append_cases hb with hb | ⟨c, hc, rfl⟩
          · exact hb
          · cases c with
            | nil => simp
            | cons x c =>
              obtain ⟨rfl, -⟩ := List.cons_prefix_cons.mp hc
              exact absurd (by simp) hmem
        exact Int.le_of_eq (hhead.of_prefix hplain).depth_eq.symm
    rcases prefix_append_cases ha with ha | ⟨b, hb, rfl⟩
    · exact hfront a ha
    · have hone := one_le_depth_of_mem hhead hs (List.prefix_refl _) (by simp)
      rw [depth_append]
      cases b with
      | nil =>
        rw [depth_nil]
        omega
      | cons c b =>
        obtain ⟨rfl, hrest⟩ := List.cons_prefix_cons.mp hb
        rw [depth_cons, hclose, (htail.of_prefix hrest).depth_eq]
        omega
  closed := by
    have hopen : depth ['\x7b'] = 1 := by decide
    have hclose : depth ['\x7d'] = -1 := by decide
    rw [depth_append, depth_append, depth_cons _ s, depth_cons _ tail, hopen, hclose,
      hhead.depth_eq, hs.closed, htail.depth_eq]
    rfl

end Assemblage.Braces
