import Assemblage.Proofs.Text.Lines
import Assemblage.Proofs.Text.Matcher
import Mathlib.Order.CompletePartialOrder

/-!
# The preferred match

What a pattern matches is the head of the rests that its matcher leaves. Where no word of a language
goes on from another one (`PrefixFree`), a text has but one rest behind such words. A run behind
them is preferred as long as it can be (`Matches.head?_seq_most`).
-/

namespace Assemblage.Matcher
set_option autoImplicit false
open Assemblage.Text

variable {m : Matcher} {L M : Language Char} {p q : Char → Bool} {s rest : List Char}

/-! ## Rows -/

theorem seq_assoc (m n k : Matcher) : seq (seq m n) k = seq m (seq n k) := by
  funext s
  exact List.flatMap_assoc

theorem seq_none (m : Matcher) : seq m (fun s => [s]) = m := by
  funext s
  exact List.flatMap_singleton' (m s)

/-! ## Languages without continuations -/

/-- Whether no word of a language goes on from another one. -/
def PrefixFree (L : Language Char) : Prop := ∀ v ∈ L, ∀ w ∈ L, v <+: w → v = w

theorem PrefixFree.mono (hM : PrefixFree M) (h : L ≤ M) : PrefixFree L :=
  fun v hv w hw => hM v (h hv) w (h hw)

theorem PrefixFree.append_inj (hL : PrefixFree L) {v w r t : List Char} (hv : v ∈ L) (hw : w ∈ L)
    (h : v ++ r = w ++ t) : v = w ∧ r = t := by
  have heq : v = w := by
    rcases List.prefix_or_prefix_of_prefix (List.prefix_append v r)
      (h ▸ List.prefix_append w t) with hvw | hwv
    · exact hL v hv w hw hvw
    · exact (hL w hw v hv hwv).symm
  subst heq
  exact ⟨rfl, List.append_cancel_left h⟩

/-- A run of a class ends at the first character of another one. -/
theorem prefixFree_run (h : ∀ c, q c = true → p c = false) : PrefixFree (runOf p * charIn q) := by
  rintro v ⟨a, ha, x, ⟨c, hc, rfl⟩, rfl⟩ w ⟨b, hb, y, ⟨d, hd, rfl⟩, rfl⟩ ⟨t, ht⟩
  have hstop {e : Char} (he : q e = true) (tail : List Char) :
      ∀ c ∈ (e :: tail).head?, p c = false := by
    rintro c ⟨⟩
    exact h _ he
  have htext : a ++ c :: t = b ++ [d] := by simpa using ht
  have hab : a = b := by
    rw [← takeWhile_append_stop ha (hstop hc t), htext, takeWhile_append_stop hb (hstop hd [])]
  have hcd : c :: t = [d] := by
    rw [← dropWhile_append_stop ha (hstop hc t), htext, dropWhile_append_stop hb (hstop hd [])]
  rw [hab, (List.cons.inj hcd).1]

theorem prefixFree_charIn (p : Char → Bool) : PrefixFree (charIn p) := by
  rintro v ⟨c, -, rfl⟩ w ⟨d, -, rfl⟩ ⟨t, ht⟩
  rw [(List.cons.inj ht).1]

/-! ## Heads -/

theorem Matches.head?_eq_some_iff (hm : Matches m L) (hL : PrefixFree L) :
    (m s).head? = some rest ↔ ∃ w ∈ L, s = w ++ rest := by
  constructor
  · intro h
    exact (hm s rest).mp (List.mem_of_mem_head? h)
  · intro h
    have hmem : rest ∈ m s := (hm s rest).mpr h
    obtain ⟨w, hw, hs⟩ := h
    cases hrests : m s with
    | nil =>
      rw [hrests] at hmem
      cases hmem
    | cons first others =>
      have hfirst : first ∈ m s := by
        rw [hrests]
        exact List.mem_cons_self
      obtain ⟨v, hv, hs'⟩ := (hm s first).mp hfirst
      rw [List.head?_cons, (hL.append_inj hv hw (hs'.symm.trans hs)).2]

theorem head?_most (p : Char → Bool) (s : List Char) : (most p s).head? = some (s.dropWhile p) := by
  rw [most, List.head?_reverse]
  induction s with
  | nil => rfl
  | cons c s ih =>
    rw [fewest]
    by_cases hc : p c = true
    · rw [if_pos hc, List.getLast?_cons, ih, List.dropWhile_cons_of_pos hc]
      rfl
    · rw [if_neg hc, List.dropWhile_cons_of_neg hc]
      rfl

/-- Behind words that no other one continues, the longest run is preferred. -/
theorem Matches.head?_seq_most (hm : Matches m L) (hL : PrefixFree L) :
    (Matcher.seq m (most p) s).head? = some rest ↔
      ∃ w ∈ L * runOf p, s = w ++ rest ∧ ∀ c ∈ rest.head?, p c = false := by
  have hhead : (Matcher.seq m (most p) s).head? = (m s).head?.map (·.dropWhile p) := by
    rw [Matcher.seq]
    cases m s with
    | nil => rfl
    | cons t others =>
      rw [List.flatMap_cons, List.head?_append, head?_most]
      rfl
  rw [hhead, Option.map_eq_some_iff]
  constructor
  · rintro ⟨t, ht, rfl⟩
    obtain ⟨v, hv, rfl⟩ := (hm.head?_eq_some_iff hL).mp ht
    refine ⟨v ++ t.takeWhile p, ?_, ?_, head?_dropWhile_false⟩
    · exact Language.append_mem_mul hv fun c hc => List.mem_takeWhile_imp hc
    · rw [List.append_assoc, List.takeWhile_append_dropWhile]
  · rintro ⟨w, hw, rfl, hstop⟩
    obtain ⟨v, hv, run, hrun, rfl⟩ := Language.mem_mul.mp hw
    refine ⟨run ++ rest, (hm.head?_eq_some_iff hL).mpr ⟨v, hv, List.append_assoc _ _ _⟩, ?_⟩
    exact dropWhile_append_stop hrun hstop

end Assemblage.Matcher
