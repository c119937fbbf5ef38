import Assemblage.Text.Matcher
import Mathlib.Computability.Language

/-!
# The languages of matchers

A matcher matches a language if the rests that it leaves of a text are exactly those behind the
words of the language at the front of the text (`Matches`). The rests of a matcher come in an order
of preference, but its language does not depend on that order. Every combinator of matchers is an
operation of languages: a row is a product, an alternative is a sum, a repetition is a Kleene star.
-/

namespace Assemblage.Matcher
set_option autoImplicit false
open Computability

/-- The rests that a matcher leaves are those behind the words of the language. -/
def Matches (m : Matcher) (L : Language Char) : Prop :=
  ∀ s rest, rest ∈ m s ↔ ∃ w ∈ L, s = w ++ rest

/-! ## Classes of characters -/

/-- One character of a class. -/
def charIn (p : Char → Bool) : Language Char := {w | ∃ c, p c = true ∧ w = [c]}

theorem mem_charIn {c : Char} {w : List Char} : w ∈ charIn (· == c) ↔ w = [c] := by
  constructor
  · rintro ⟨d, hd, rfl⟩
    rw [eq_of_beq hd]
  · rintro rfl
    exact ⟨c, beq_self_eq_true c, rfl⟩

theorem mem_char_mul {c : Char} {L : Language Char} {w : List Char} :
    w ∈ charIn (· == c) * L ↔ ∃ v ∈ L, w = c :: v := by
  rw [Language.mem_mul]
  constructor
  · rintro ⟨a, ha, v, hv, rfl⟩
    rw [mem_charIn.mp ha]
    exact ⟨v, hv, rfl⟩
  · rintro ⟨v, hv, rfl⟩
    exact ⟨[c], mem_charIn.mpr rfl, v, hv, rfl⟩

theorem mem_mul_char {c : Char} {L : Language Char} {w : List Char} :
    w ∈ L * charIn (· == c) ↔ ∃ v ∈ L, w = v ++ [c] := by
  rw [Language.mem_mul]
  constructor
  · rintro ⟨v, hv, a, ha, rfl⟩
    rw [mem_charIn.mp ha]
    exact ⟨v, hv, rfl⟩
  · rintro ⟨v, hv, rfl⟩
    exact ⟨v, hv, [c], mem_charIn.mpr rfl, rfl⟩

/-- Any run of characters of a class. -/
def runOf (p : Char → Bool) : Language Char := {w | ∀ c ∈ w, p c = true}

/-- A word and nothing else. -/
def exactly (w : List Char) : Language Char := {w}

theorem mem_runOf {p : Char → Bool} {w : List Char} : w ∈ runOf p ↔ ∀ c ∈ w, p c = true := Iff.rfl

theorem nil_mem_runOf (p : Char → Bool) : [] ∈ runOf p := fun _ hc => absurd hc List.not_mem_nil

theorem matches_one (p : Char → Bool) : Matches (one p) (charIn p) := by
  intro s rest
  cases s with
  | nil =>
    constructor
    · intro h
      cases h
    · rintro ⟨w, ⟨c, -, rfl⟩, h⟩
      cases h
  | cons c s =>
    rw [one]
    constructor
    · intro h
      by_cases hc : p c = true
      · rw [if_pos hc, List.mem_singleton] at h
        exact ⟨[c], ⟨c, hc, rfl⟩, by rw [h]; rfl⟩
      · rw [if_neg hc] at h
        cases h
    · rintro ⟨w, ⟨d, hd, rfl⟩, h⟩
      obtain ⟨rfl, rfl⟩ := List.cons.inj h
      rw [if_pos hd]
      exact List.mem_singleton_self s

theorem matches_word (w : List Char) : Matches (word w) (exactly w) := by
  intro s rest
  unfold word
  constructor
  · intro h
    by_cases hp : w.isPrefixOf s = true
    · obtain ⟨tail, rfl⟩ := List.isPrefixOf_iff_prefix.mp hp
      rw [if_pos hp, List.drop_left, List.mem_singleton] at h
      exact ⟨w, rfl, by rw [h]⟩
    · rw [if_neg hp] at h
      cases h
  · rintro ⟨v, rfl, rfl⟩
    rw [if_pos (List.isPrefixOf_iff_prefix.mpr (List.prefix_append _ _)), List.drop_left]
    exact List.mem_singleton_self rest

theorem matches_fewest (p : Char → Bool) : Matches (fewest p) (runOf p) := by
  intro s
  induction s with
  | nil =>
    intro rest
    rw [fewest, List.mem_singleton]
    constructor
    · rintro rfl
      exact ⟨[], by simp [mem_runOf], rfl⟩
    · rintro ⟨w, -, h⟩
      exact (List.append_eq_nil_iff.mp h.symm).2
  | cons c s ih =>
    intro rest
    rw [fewest, List.mem_cons]
    constructor
    · rintro (rfl | h)
      · exact ⟨[], by simp [mem_runOf], rfl⟩
      · by_cases hc : p c = true
        · rw [if_pos hc] at h
          obtain ⟨w, hw, rfl⟩ := (ih rest).mp h
          refine ⟨c :: w, ?_, rfl⟩
          intro d hd
          rcases List.mem_cons.mp hd with rfl | hd
          · exact hc
          · exact hw d hd
        · rw [if_neg hc] at h
          cases h
    · rintro ⟨w, hw, h⟩
      cases w with
      | nil => exact .inl h.symm
      | cons d w =>
        obtain ⟨rfl, rfl⟩ := List.cons.inj h
        right
        rw [if_pos (hw c List.mem_cons_self)]
        exact (ih rest).mpr ⟨w, fun d hd => hw d (List.mem_cons_of_mem _ hd), rfl⟩

theorem matches_most (p : Char → Bool) : Matches (most p) (runOf p) := by
  intro s rest
  rw [most, List.mem_reverse]
  exact matches_fewest p s rest

/-! ## Combinations -/

variable {m n : Matcher} {L M : Language Char}

theorem Matches.seq (hm : Matches m L) (hn : Matches n M) : Matches (seq m n) (L * M) := by
  intro s rest
  rw [Matcher.seq, List.mem_flatMap]
  constructor
  · rintro ⟨middle, hmiddle, hrest⟩
    obtain ⟨v, hv, rfl⟩ := (hm s middle).mp hmiddle
    obtain ⟨w, hw, rfl⟩ := (hn middle rest).mp hrest
    exact ⟨v ++ w, Language.append_mem_mul hv hw, by rw [List.append_assoc]⟩
  · rintro ⟨x, hx, rfl⟩
    obtain ⟨v, hv, w, hw, rfl⟩ := Language.mem_mul.mp hx
    refine ⟨w ++ rest, (hm _ _).mpr ⟨v, hv, by rw [List.append_assoc]⟩, ?_⟩
    exact (hn _ _).mpr ⟨w, hw, rfl⟩

theorem matches_none : Matches (fun s => [s]) 1 := by
  intro s rest
  rw [List.mem_singleton]
  constructor
  · rintro rfl
    exact ⟨[], Language.nil_mem_one, rfl⟩
  · rintro ⟨w, hw, rfl⟩
    rw [(Language.mem_one w).mp hw, List.nil_append]

theorem Matches.alt (hm : Matches m L) (hn : Matches n M) : Matches (alt m n) (L + M) := by
  intro s rest
  rw [Matcher.alt, List.mem_append, hm s rest, hn s rest]
  constructor
  · rintro (⟨w, hw, h⟩ | ⟨w, hw, h⟩)
    · exact ⟨w, .inl hw, h⟩
    · exact ⟨w, .inr hw, h⟩
  · rintro ⟨w, hw | hw, h⟩
    · exact .inl ⟨w, hw, h⟩
    · exact .inr ⟨w, hw, h⟩

theorem Matches.opt (hm : Matches m L) : Matches (opt m) (L + 1) := hm.alt matches_none

/-- One character at least of a class. -/
def runOf1 (p : Char → Bool) : Language Char := charIn p * runOf p

theorem matches_most1 (p : Char → Bool) : Matches (most1 p) (runOf1 p) :=
  (matches_one p).seq (matches_most p)

theorem matches_oneOf_words (ws : List (List Char)) :
    Matches (oneOf (ws.map word)) {w | w ∈ ws} := by
  intro s rest
  rw [oneOf, List.mem_flatMap]
  constructor
  · rintro ⟨m, hm, hrest⟩
    obtain ⟨w, hw, rfl⟩ := List.mem_map.mp hm
    obtain ⟨v, rfl, h⟩ := (matches_word w s rest).mp hrest
    exact ⟨v, hw, h⟩
  · rintro ⟨w, hw, h⟩
    exact ⟨word w, List.mem_map_of_mem hw, (matches_word w s rest).mpr ⟨w, rfl, h⟩⟩

theorem Matches.many (hm : Matches m L) : Matches (many m) L∗ := by
  intro s
  induction h : s.length using Nat.strong_induction_on generalizing s with
  | _ k ih =>
    intro rest
    rw [Matcher.many, List.mem_append, List.mem_flatMap, List.mem_singleton]
    constructor
    · rintro (⟨middle, hmiddle, hrest⟩ | rfl)
      · by_cases hlt : middle.length < s.length
        · rw [if_pos hlt] at hrest
          obtain ⟨v, hv, hs⟩ := (hm s middle).mp hmiddle
          obtain ⟨w, hw, rfl⟩ := (ih _ (h ▸ hlt) middle rfl rest).mp hrest
          obtain ⟨ws, rfl, hws⟩ := Language.mem_kstar.mp hw
          refine ⟨v ++ ws.flatten, ?_, by rw [hs, List.append_assoc]⟩
          refine Language.mem_kstar.mpr ⟨v :: ws, rfl, ?_⟩
          intro y hy
          rcases List.mem_cons.mp hy with rfl | hy
          · exact hv
          · exact hws y hy
        · rw [if_neg hlt] at hrest
          cases hrest
      · exact ⟨[], Language.nil_mem_kstar L, rfl⟩
    · rintro ⟨w, hw, hs⟩
      obtain ⟨ws, rfl, hws⟩ := Language.mem_kstar_iff_exists_nonempty.mp hw
      cases ws with
      | nil => exact .inr hs.symm
      | cons v ws =>
        left
        obtain ⟨hv, hne⟩ := hws v List.mem_cons_self
        rw [List.flatten_cons, List.append_assoc] at hs
        have hlt : (ws.flatten ++ rest).length < s.length := by
          have hpos := List.length_pos_of_ne_nil hne
          rw [hs, @List.length_append _ v]
          omega
        refine ⟨ws.flatten ++ rest, (hm _ _).mpr ⟨v, hv, hs⟩, ?_⟩
        rw [if_pos hlt]
        refine (ih _ (h ▸ hlt) _ rfl rest).mpr ⟨ws.flatten, ?_, rfl⟩
        exact Language.join_mem_kstar fun y hy => (hws y (List.mem_cons_of_mem _ hy)).1

theorem Matches.row {ms : List Matcher} {Ls : List (Language Char)}
    (h : List.Forall₂ Matches ms Ls) : Matches (row ms) Ls.prod := by
  induction h with
  | nil => exact matches_none
  | cons hm _ ih =>
    rw [List.prod_cons]
    exact hm.seq ih

theorem flatten_mem_prod {ws : List (List Char)} {Ls : List (Language Char)}
    (h : List.Forall₂ (fun w (L : Language Char) => w ∈ L) ws Ls) : ws.flatten ∈ Ls.prod := by
  induction h with
  | nil => exact Language.nil_mem_one
  | cons hw _ ih =>
    rw [List.prod_cons, List.flatten_cons]
    exact Language.append_mem_mul hw ih

/-- A text is a word of the language if the matcher can match all of it. -/
theorem Matches.mem_iff (hm : Matches m L) {w : List Char} : w ∈ L ↔ [] ∈ m w := by
  rw [hm w []]
  constructor
  · intro hw
    exact ⟨w, hw, (List.append_nil w).symm⟩
  · rintro ⟨v, hv, rfl⟩
    rwa [List.append_nil]

theorem front_append (w rest : List Char) : front (w ++ rest) rest = w := by
  unfold front
  rw [List.length_append, Nat.add_sub_cancel, List.take_left]

end Assemblage.Matcher
