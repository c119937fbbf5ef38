import Assemblage.Json.Writer
import Assemblage.World.Safety

/-!
# Values that a payload can carry

A value is fit for a payload if the search for an offender finds none (`offender? = none`). A search
that the stack has room for is the search itself (`found?_of_depth`), and one that finds nothing was
not cut short (`fit_of_found?`). Of what is fit, the texts that are written are exactly the whole
ones, that is those that hold no half of a surrogate pair (`isSome_write?`).
-/

namespace Assemblage.Value
set_option autoImplicit false

/-! ## Fit collections -/

theorem itemOffender?_eq_none {start : Nat} {xs : List Value} :
    itemOffender? start xs = none ↔ ∀ x ∈ xs, x.offender? = none := by
  induction xs generalizing start with
  | nil => simp [itemOffender?]
  | cons x xs ih =>
    rw [itemOffender?, List.forall_mem_cons]
    cases x.offender? with
    | some o => simp
    | none => simp [ih]

theorem entryOffender?_eq_none {es : List (Value × Value)} :
    entryOffender? es = none ↔ ∀ e ∈ es, (∃ t, e.1 = text t) ∧ e.2.offender? = none := by
  induction es with
  | nil => simp [entryOffender?]
  | cons e es ih =>
    obtain ⟨k, v⟩ := e
    rw [List.forall_mem_cons]
    cases k with
    | text t =>
      rw [entryOffender?]
      cases v.offender? with
      | some o => simp
      | none => simp [ih]
    | _ => simp [entryOffender?]

/-! ## Searches of so many levels -/

mutual

theorem prune_of_depth : ∀ (v : Value) (n : Nat), v.depth < n → v.prune n = v
  | list xs, n + 1, h => by
    rw [depth] at h
    rw [prune, pruneItems_of_depth xs n (by omega)]
  | mapping es, n + 1, h => by
    rw [depth] at h
    rw [prune, pruneEntries_of_depth es n (by omega)]
  | null, _ + 1, _ | flag _, _ + 1, _ | integer _, _ + 1, _ | real _, _ + 1, _ | text _, _ + 1, _
  | bytes _, _ + 1, _ | date _, _ + 1, _ | moment _, _ + 1, _ | tuple _, _ + 1, _
  | set _, _ + 1, _ | cycle, _ + 1, _ => rfl

theorem pruneItems_of_depth : ∀ (xs : List Value) (n : Nat), depthItems xs < n →
    pruneItems n xs = xs
  | [], _, _ => rfl
  | x :: xs, n, h => by
    rw [depthItems] at h
    rw [pruneItems, prune_of_depth x n (by omega), pruneItems_of_depth xs n (by omega)]

theorem pruneEntries_of_depth : ∀ (es : List (Value × Value)) (n : Nat), depthEntries es < n →
    pruneEntries n es = es
  | [], _, _ => rfl
  | (k, v) :: es, n, h => by
    rw [depthEntries] at h
    rw [pruneEntries, prune_of_depth v n (by omega), pruneEntries_of_depth es n (by omega)]

end

mutual

/-- Where a search of so many levels finds nothing, it was not cut short. -/
theorem prune_of_fit : ∀ (v : Value) (n : Nat), (v.prune n).offender? = none → v.prune n = v
  | v, 0, h => by
    rw [prune] at h
    cases h
  | list xs, n + 1, h => by
    rw [prune, pruneItems_of_fit xs n (itemOffender?_eq_none.mp h)]
  | mapping es, n + 1, h => by
    rw [prune, pruneEntries_of_fit es n (entryOffender?_eq_none.mp h)]
  | null, _ + 1, _ | flag _, _ + 1, _ | integer _, _ + 1, _ | real _, _ + 1, _ | text _, _ + 1, _
  | bytes _, _ + 1, _ | date _, _ + 1, _ | moment _, _ + 1, _ | tuple _, _ + 1, _
  | set _, _ + 1, _ | cycle, _ + 1, _ => rfl

theorem pruneItems_of_fit : ∀ (xs : List Value) (n : Nat),
    (∀ x ∈ pruneItems n xs, x.offender? = none) → pruneItems n xs = xs
  | [], _, _ => rfl
  | x :: xs, n, h => by
    obtain ⟨hx, hxs⟩ := List.forall_mem_cons.mp h
    rw [pruneItems, prune_of_fit x n hx, pruneItems_of_fit xs n hxs]

theorem pruneEntries_of_fit : ∀ (es : List (Value × Value)) (n : Nat),
    (∀ e ∈ pruneEntries n es, (∃ t, e.1 = text t) ∧ e.2.offender? = none) →
      pruneEntries n es = es
  | [], _, _ => rfl
  | (k, v) :: es, n, h => by
    obtain ⟨⟨-, hv⟩, hes⟩ := List.forall_mem_cons.mp h
    rw [pruneEntries, prune_of_fit v n hv, pruneEntries_of_fit es n hes]

end

/-- A search of no more levels than the stack has room for is the whole search. -/
theorem found?_of_depth [Stack] {v : Value} (h : v.depth < Stack.values) :
    v.found? = v.offender? := by
  rw [found?, prune_of_depth v _ h]

theorem fit_of_found? [Stack] {v : Value} (h : v.found? = none) : v.offender? = none := by
  have hprune := prune_of_fit v Stack.values h
  rw [found?, hprune] at h
  exact h

/-! ## Whole texts -/

mutual

/-- Whether no text in a value holds half of a surrogate pair. -/
def Whole : Value → Prop
  | text t => t.toChars?.isSome
  | list xs | tuple xs | set xs => WholeItems xs
  | mapping es => WholeEntries es
  | _ => True

def WholeItems : List Value → Prop
  | [] => True
  | x :: xs => Whole x ∧ WholeItems xs

def WholeEntries : List (Value × Value) → Prop
  | [] => True
  | (k, v) :: es => Whole k ∧ Whole v ∧ WholeEntries es

end

theorem whole_ofString (s : String) : (ofString s).Whole := by
  simp [ofString, RawText.ofString, Whole, RawText.toChars?_ofChars]

mutual

/-- A fit value is written exactly if it is whole. -/
theorem isSome_write? : ∀ v : Value, v.offender? = none →
    ((Json.write? v).isSome ↔ v.Whole)
  | null, _ => by simp [Json.write?, Whole]
  | flag b, _ => by simp [Json.write?, Whole]
  | integer n, _ => by simp [Json.write?, Whole]
  | real x, _ => by simp [Json.write?, Whole]
  | text t, _ => by simp [Json.write?, Json.writeText?, Whole]
  | list xs, h => by
    rw [Json.write?, Option.isSome_map, isSome_writeItems? xs (itemOffender?_eq_none.mp h), Whole]
  | mapping es, h => by
    rw [Json.write?, Option.isSome_map, isSome_writeEntries? es (entryOffender?_eq_none.mp h),
      Whole]
  | bytes _, h => by cases h
  | date _, h => by cases h
  | moment _, h => by cases h
  | tuple _, h => by cases h
  | set _, h => by cases h
  | cycle, h => by cases h

theorem isSome_writeItems? : ∀ xs : List Value, (∀ x ∈ xs, x.offender? = none) →
    ((Json.writeItems? xs).isSome ↔ WholeItems xs)
  | [], _ => by simp [Json.writeItems?, WholeItems]
  | x :: xs, h => by
    obtain ⟨hx, hxs⟩ := List.forall_mem_cons.mp h
    rw [WholeItems, ← isSome_write? x hx, ← isSome_writeItems? xs hxs, Json.writeItems?]
    cases Json.write? x <;> cases Json.writeItems? xs <;> simp

theorem isSome_writeEntries? : ∀ es : List (Value × Value),
    (∀ e ∈ es, (∃ t, e.1 = text t) ∧ e.2.offender? = none) →
    ((Json.writeEntries? es).isSome ↔ WholeEntries es)
  | [], _ => by simp [Json.writeEntries?, WholeEntries]
  | (k, v) :: es, h => by
    obtain ⟨⟨⟨t, ht⟩, hv⟩, hes⟩ := List.forall_mem_cons.mp h
    obtain rfl : k = text t := ht
    have hkey : (Json.writeText? t).isSome ↔ (text t).Whole := isSome_write? (text t) rfl
    rw [WholeEntries, ← hkey, ← isSome_write? v hv, ← isSome_writeEntries? es hes,
      Json.writeEntries?]
    cases Json.writeText? t <;> cases Json.write? v <;> cases Json.writeEntries? es <;> simp

end

end Assemblage.Value
