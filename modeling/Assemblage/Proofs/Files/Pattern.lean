import Assemblage.Files.Pattern
import Mathlib.Data.List.Forall2

/-!
# What patterns stand for

A pattern covers a name that can be cut into pieces, one for each piece of the pattern: any text for
an asterisk, one character for everything else (`Pattern.Covers`). Matching by search finds such a
cut if there is one (`Pattern.accepts_iff`).

A text without wildcards stands for itself alone (`covers_of_plain`), and behind an asterisk for every
name that ends in it (`covers_of_ending`).
-/

namespace Assemblage
set_option autoImplicit false

/-- The texts that a piece of a pattern stands for. -/
def Glyph.Covers : Glyph → List Char → Prop
  | .many, _ => True
  | g, s => ∃ c, s = [c] ∧ g.holds c = true

namespace Pattern

/-- Whether a text can be cut into one piece for each piece of a pattern. -/
def Covers (p : Pattern) (s : List Char) : Prop :=
  ∃ cut, List.Forall₂ Glyph.Covers p cut ∧ cut.flatten = s

theorem covers_nil {s : List Char} : Covers [] s ↔ s = [] := by
  simp [Covers, eq_comm]

theorem covers_cons {g : Glyph} {p : Pattern} {s : List Char} :
    Covers (g :: p) s ↔ ∃ a b, s = a ++ b ∧ g.Covers a ∧ Covers p b := by
  constructor
  · rintro ⟨cut, hcut, rfl⟩
    cases hcut with
    | cons ha hrest => exact ⟨_, _, List.flatten_cons, ha, _, hrest, rfl⟩
  · rintro ⟨a, b, rfl, ha, cut, hcut, rfl⟩
    exact ⟨a :: cut, .cons ha hcut, List.flatten_cons⟩

/-- An asterisk stands for nothing, or for one character more. -/
theorem covers_many {p : Pattern} {s : List Char} :
    Covers (.many :: p) s ↔ Covers p s ∨ ∃ c rest, s = c :: rest ∧ Covers (.many :: p) rest := by
  constructor
  · intro h
    obtain ⟨a, b, rfl, -, hb⟩ := covers_cons.mp h
    cases a with
    | nil => exact .inl hb
    | cons c a => exact .inr ⟨c, a ++ b, rfl, covers_cons.mpr ⟨a, b, rfl, trivial, hb⟩⟩
  · rintro (hs | ⟨c, rest, rfl, hrest⟩)
    · exact covers_cons.mpr ⟨[], s, rfl, trivial, hs⟩
    · obtain ⟨a, b, rfl, -, hb⟩ := covers_cons.mp hrest
      exact covers_cons.mpr ⟨c :: a, b, rfl, trivial, hb⟩

theorem covers_single {g : Glyph} (hg : g ≠ .many) {p : Pattern} {s : List Char} :
    Covers (g :: p) s ↔ ∃ c rest, s = c :: rest ∧ g.holds c = true ∧ Covers p rest := by
  have hcovers : ∀ a, g.Covers a ↔ ∃ c, a = [c] ∧ g.holds c = true := by
    intro a
    cases g with
    | many => exact absurd rfl hg
    | _ => exact Iff.rfl
  rw [covers_cons]
  simp only [hcovers]
  constructor
  · rintro ⟨a, b, rfl, ⟨c, rfl, hc⟩, hb⟩
    exact ⟨c, b, rfl, hc, hb⟩
  · rintro ⟨c, rest, rfl, hc, hrest⟩
    exact ⟨[c], rest, rfl, ⟨c, rfl, hc⟩, hrest⟩

/-- **Matching finds a cut** of the name into the pieces of the pattern. -/
theorem accepts_iff (p : Pattern) (s : List Char) : p.accepts s = true ↔ Covers p s := by
  fun_induction accepts p s with
  | case1 => simp [covers_nil]
  | case2 c s => simp [covers_nil]
  | case3 p ih => rw [ih, covers_many]; simp
  | case4 p c s ih ih' =>
    rw [Bool.or_eq_true, ih, ih', covers_many (s := c :: s)]
    simp
  | case5 g p c s hg ih =>
    rw [Bool.and_eq_true, ih, covers_single (by rintro rfl; exact hg rfl)]
    simp
  | case6 g p hg =>
    rw [covers_single (by rintro rfl; exact hg rfl)]
    simp

/-! ## Texts without wildcards -/

/-- Whether every character of a text stands for itself in a pattern. -/
def Plain (s : List Char) : Prop := ∀ c ∈ s, c ≠ '*' ∧ c ≠ '?' ∧ c ≠ '['

instance (s : List Char) : Decidable (Plain s) := List.decidableBAll _ s

theorem ofChars_plain {s : List Char} (h : Plain s) {fuel : Nat} (hfuel : s.length < fuel) :
    ofChars s fuel = s.map .char := by
  induction s generalizing fuel with
  | nil =>
    obtain ⟨fuel, rfl⟩ := Nat.exists_eq_add_one_of_ne_zero (Nat.ne_of_gt hfuel)
    rfl
  | cons c s ih =>
    obtain ⟨fuel, rfl⟩ := Nat.exists_eq_add_one_of_ne_zero (Nat.ne_of_gt (Nat.zero_lt_of_lt hfuel))
    obtain ⟨⟨hmany, hone, hset⟩, hs⟩ := List.forall_mem_cons.mp h
    have hrest : ofChars s fuel = s.map .char := ih hs (Nat.lt_of_succ_lt_succ hfuel)
    simp [ofChars, hrest]

theorem covers_plain {s t : List Char} : Covers (s.map .char) t ↔ t = s := by
  induction s generalizing t with
  | nil => exact covers_nil
  | cons c s ih =>
    rw [List.map_cons, covers_single (by simp)]
    simp only [Glyph.holds, beq_iff_eq, ih]
    constructor
    · rintro ⟨_, _, rfl, rfl, rfl⟩
      rfl
    · rintro rfl
      exact ⟨c, s, rfl, rfl, rfl⟩

end Pattern

open Pattern (Covers Plain)

theorem matchesAny_iff (patterns : List String) (name : String) :
    matchesAny patterns name = true ↔
      ∃ p ∈ patterns, Covers (Pattern.ofString p) name.toList := by
  simp [matchesAny, Pattern.accepts_iff]

theorem covers_of_plain {p : String} (h : Plain p.toList) (name : String) :
    Covers (Pattern.ofString p) name.toList ↔ name = p := by
  have hfuel : p.toList.length < p.length + 1 := Nat.lt_succ_self _
  rw [Pattern.ofString, Pattern.ofChars_plain h hfuel, Pattern.covers_plain, String.toList_inj]

theorem covers_of_ending {ending : String} (h : Plain ending.toList) (name : String) :
    Covers (Pattern.ofString ("*" ++ ending)) name.toList ↔ ending.toList <:+ name.toList := by
  have hfuel : ending.toList.length < ending.length + 1 := Nat.lt_succ_self _
  have hread : Pattern.ofString ("*" ++ ending) = .many :: ending.toList.map .char := by
    rw [Pattern.ofString, String.toList_append, String.length_append, Nat.add_comm "*".length]
    show Glyph.many :: Pattern.ofChars ending.toList (ending.length + 1) = _
    rw [Pattern.ofChars_plain h hfuel]
  rw [hread, Pattern.covers_cons]
  simp only [Pattern.covers_plain, Glyph.Covers, true_and]
  constructor
  · rintro ⟨a, b, hname, rfl⟩
    exact ⟨a, hname.symm⟩
  · rintro ⟨a, hname⟩
    exact ⟨a, _, hname.symm, rfl⟩

end Assemblage
