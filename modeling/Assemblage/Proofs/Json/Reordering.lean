import Assemblage.Proofs.Text.Raw
import Assemblage.Proofs.World.Safety
import Assemblage.Proofs.Json.Arrangement

/-!
# Reordered mappings

`Value.Reordered` holds of values that differ in nothing but the order of the entries of mappings,
at any depth, also where a payload could not carry the collection around them. Whether a value is
fit, how deep it is nested and whether every key stands once does not depend on that order.

Main statement: the text of a value with distinct keys does not depend on it either, because
distinct keys can be sorted in one way only (`write?_of_reordered`).
-/

namespace Assemblage
set_option autoImplicit false

/-! ## Reordered values -/

namespace Value

mutual

/-- Equality of values, the order of the entries of mappings aside, in collections of any kind. -/
inductive Reordered : Value → Value → Prop where
  | refl (v : Value) : Reordered v v
  | list {xs ys : List Value} (items : ReorderedItems xs ys) : Reordered (.list xs) (.list ys)
  | tuple {xs ys : List Value} (items : ReorderedItems xs ys) : Reordered (.tuple xs) (.tuple ys)
  | set {xs ys : List Value} (items : ReorderedItems xs ys) : Reordered (.set xs) (.set ys)
  | mapping {es fs gs : List (Value × Value)} (entries : ReorderedEntries es fs)
    (order : fs.Perm gs) : Reordered (.mapping es) (.mapping gs)

inductive ReorderedItems : List Value → List Value → Prop where
  | nil : ReorderedItems [] []
  | cons {v w : Value} {xs ys : List Value} (head : Reordered v w) (tail : ReorderedItems xs ys) :
    ReorderedItems (v :: xs) (w :: ys)

/-- Entries with the same keys in the same order, and reordered values. -/
inductive ReorderedEntries : List (Value × Value) → List (Value × Value) → Prop where
  | nil : ReorderedEntries [] []
  | cons {k v w : Value} {es fs : List (Value × Value)} (head : Reordered v w)
    (tail : ReorderedEntries es fs) : ReorderedEntries ((k, v) :: es) ((k, w) :: fs)

end

theorem reorderedItems_iff {xs ys : List Value} :
    ReorderedItems xs ys ↔ List.Forall₂ Reordered xs ys := by
  constructor
  · intro h
    induction xs generalizing ys with
    | nil =>
      cases h
      exact .nil
    | cons x xs ih =>
      cases h with
      | cons head tail => exact .cons head (ih tail)
  · intro h
    induction h with
    | nil => exact .nil
    | cons head _ ih => exact .cons head ih

theorem reorderedEntries_iff {es fs : List (Value × Value)} :
    ReorderedEntries es fs ↔ List.Forall₂ (fun e f => e.1 = f.1 ∧ Reordered e.2 f.2) es fs := by
  constructor
  · intro h
    induction es generalizing fs with
    | nil =>
      cases h
      exact .nil
    | cons e es ih =>
      cases h with
      | cons head tail => exact .cons ⟨rfl, head⟩ (ih tail)
  · intro h
    induction h with
    | nil => exact .nil
    | @cons e f es fs hef _ ih =>
      obtain ⟨k, v⟩ := e
      obtain ⟨l, w⟩ := f
      obtain ⟨rfl, hvw⟩ := hef
      exact .cons hvw ih

/-- Entries that were put in another order first have reordered values behind the same order. -/
theorem ReorderedEntries.perm_left {es fs gs : List (Value × Value)} (order : es.Perm fs)
    (entries : ReorderedEntries fs gs) : ∃ hs, ReorderedEntries es hs ∧ hs.Perm gs := by
  obtain ⟨hs, hentries, hperm⟩ :=
    List.perm_comp_forall₂ order (reorderedEntries_iff.mp entries)
  exact ⟨hs, reorderedEntries_iff.mpr hentries, hperm⟩

mutual

theorem Reordered.symm : ∀ {v w : Value}, Reordered v w → Reordered w v
  | _, _, .refl v => .refl v
  | _, _, .list items => .list items.symm
  | _, _, .tuple items => .tuple items.symm
  | _, _, .set items => .set items.symm
  | _, _, .mapping entries order => by
    obtain ⟨hs, hentries, hperm⟩ := entries.symm.perm_left order.symm
    exact .mapping hentries hperm

theorem ReorderedItems.symm : ∀ {xs ys : List Value}, ReorderedItems xs ys → ReorderedItems ys xs
  | _, _, .nil => .nil
  | _, _, .cons head tail => .cons head.symm tail.symm

theorem ReorderedEntries.symm : ∀ {es fs : List (Value × Value)}, ReorderedEntries es fs →
    ReorderedEntries fs es
  | _, _, .nil => .nil
  | _, _, .cons head tail => .cons head.symm tail.symm

end

mutual

theorem Alike.reordered : ∀ {v w : Value}, Alike v w → Reordered v w
  | _, _, .refl v => .refl v
  | _, _, .list items => .list items.reordered
  | _, _, .mapping entries order => .mapping entries.reordered order

theorem AlikeItems.reordered : ∀ {xs ys : List Value}, AlikeItems xs ys → ReorderedItems xs ys
  | _, _, .nil => .nil
  | _, _, .cons head tail => .cons head.reordered tail.reordered

theorem AlikeEntries.reordered : ∀ {es fs : List (Value × Value)}, AlikeEntries es fs →
    ReorderedEntries es fs
  | _, _, .nil => .nil
  | _, _, .cons head tail => .cons head.reordered tail.reordered

end

/-! ## What does not depend on the order -/

theorem ReorderedEntries.map_fst : ∀ {es fs : List (Value × Value)}, ReorderedEntries es fs →
    es.map Prod.fst = fs.map Prod.fst
  | _, _, .nil => rfl
  | _, _, .cons _ tail => by rw [List.map_cons, List.map_cons, tail.map_fst]

mutual

theorem Reordered.distinct_iff : ∀ {v w : Value}, Reordered v w → (v.Distinct ↔ w.Distinct)
  | _, _, .refl v => Iff.rfl
  | _, _, .list items | _, _, .tuple items | _, _, .set items => items.distinct_iff
  | .mapping es, .mapping gs, @Reordered.mapping _ fs _ entries order => by
    have hkeys : (es.map Prod.fst).Nodup ↔ (gs.map Prod.fst).Nodup := by
      rw [entries.map_fst]
      exact (order.map Prod.fst).nodup_iff
    have hvalues : DistinctEntries fs ↔ DistinctEntries gs := by
      rw [distinctEntries_iff, distinctEntries_iff]
      exact forall_congr' fun e => by rw [order.mem_iff]
    exact and_congr hkeys (entries.distinct_iff.trans hvalues)

theorem ReorderedItems.distinct_iff : ∀ {xs ys : List Value}, ReorderedItems xs ys →
    (DistinctItems xs ↔ DistinctItems ys)
  | _, _, .nil => Iff.rfl
  | _, _, .cons head tail => and_congr head.distinct_iff tail.distinct_iff

theorem ReorderedEntries.distinct_iff : ∀ {es fs : List (Value × Value)}, ReorderedEntries es fs →
    (DistinctEntries es ↔ DistinctEntries fs)
  | _, _, .nil => Iff.rfl
  | _, _, .cons head tail => and_congr head.distinct_iff tail.distinct_iff

end

mutual

theorem Reordered.fit_iff : ∀ {v w : Value}, Reordered v w →
    (v.offender? = none ↔ w.offender? = none)
  | _, _, .refl v => Iff.rfl
  | _, _, .list items => by
    rw [offender?, offender?, itemOffender?_eq_none, itemOffender?_eq_none]
    exact items.fit_iff
  | _, _, .tuple _ | _, _, .set _ => by simp [offender?]
  | _, .mapping gs, .mapping entries order => by
    rw [offender?, offender?, entryOffender?_eq_none, entryOffender?_eq_none]
    refine entries.fit_iff.trans (forall_congr' fun e => ?_)
    rw [order.mem_iff]

theorem ReorderedItems.fit_iff : ∀ {xs ys : List Value}, ReorderedItems xs ys →
    ((∀ x ∈ xs, x.offender? = none) ↔ ∀ y ∈ ys, y.offender? = none)
  | _, _, .nil => Iff.rfl
  | _, _, .cons head tail => by
    rw [List.forall_mem_cons, List.forall_mem_cons]
    exact and_congr head.fit_iff tail.fit_iff

theorem ReorderedEntries.fit_iff : ∀ {es fs : List (Value × Value)}, ReorderedEntries es fs →
    ((∀ e ∈ es, (∃ t, e.1 = text t) ∧ e.2.offender? = none) ↔
      ∀ f ∈ fs, (∃ t, f.1 = text t) ∧ f.2.offender? = none)
  | _, _, .nil => Iff.rfl
  | _, _, .cons head tail => by
    rw [List.forall_mem_cons, List.forall_mem_cons]
    exact and_congr (and_congr_right fun _ => head.fit_iff) tail.fit_iff

end

theorem pruneEntries_perm (n : Nat) {es fs : List (Value × Value)} (h : es.Perm fs) :
    (pruneEntries n es).Perm (pruneEntries n fs) := by
  have hmap : ∀ gs, pruneEntries n gs = gs.map fun e => (e.1, e.2.prune n) := by
    intro gs
    induction gs with
    | nil => rfl
    | cons e gs ih => rw [pruneEntries, ih, List.map_cons]
  rw [hmap, hmap]
  exact h.map _

mutual

theorem Reordered.prune : ∀ {v w : Value} (n : Nat), Reordered v w →
    Reordered (v.prune n) (w.prune n)
  | v, w, 0, _ => by
    rw [Value.prune, Value.prune]
    exact .refl _
  | _, _, _ + 1, .refl v => .refl _
  | _, _, n + 1, .list items => .list (items.prune n)
  | _, _, _ + 1, .tuple items => .tuple items
  | _, _, _ + 1, .set items => .set items
  | _, _, n + 1, .mapping entries order =>
    .mapping (entries.prune n) (pruneEntries_perm n order)

theorem ReorderedItems.prune : ∀ {xs ys : List Value} (n : Nat), ReorderedItems xs ys →
    ReorderedItems (pruneItems n xs) (pruneItems n ys)
  | _, _, _, .nil => .nil
  | _, _, n, .cons head tail => .cons (head.prune n) (tail.prune n)

theorem ReorderedEntries.prune : ∀ {es fs : List (Value × Value)} (n : Nat),
    ReorderedEntries es fs → ReorderedEntries (pruneEntries n es) (pruneEntries n fs)
  | _, _, _, .nil => .nil
  | _, _, n, .cons head tail => .cons (head.prune n) (tail.prune n)

end

/-- A search finds nothing in a value exactly if it finds nothing in a reordered one. -/
theorem Reordered.found?_iff [Stack] {v w : Value} (h : Reordered v w) :
    v.found? = none ↔ w.found? = none :=
  (h.prune Stack.values).fit_iff

theorem depthEntries_perm {es fs : List (Value × Value)} (h : es.Perm fs) :
    depthEntries es = depthEntries fs := by
  induction h with
  | nil => rfl
  | cons e _ ih => rw [depthEntries, depthEntries, ih]
  | swap e f es =>
    simp only [depthEntries]
    omega
  | trans _ _ ih₁ ih₂ => exact ih₁.trans ih₂

mutual

theorem Reordered.depth_eq : ∀ {v w : Value}, Reordered v w → v.depth = w.depth
  | _, _, .refl v => rfl
  | _, _, .list items | _, _, .tuple items | _, _, .set items => by
    rw [depth, depth, items.depth_eq]
  | _, _, .mapping entries order => by
    rw [depth, depth, entries.depth_eq, depthEntries_perm order]

theorem ReorderedItems.depth_eq : ∀ {xs ys : List Value}, ReorderedItems xs ys →
    depthItems xs = depthItems ys
  | _, _, .nil => rfl
  | _, _, .cons head tail => by rw [depthItems, depthItems, head.depth_eq, tail.depth_eq]

theorem ReorderedEntries.depth_eq : ∀ {es fs : List (Value × Value)}, ReorderedEntries es fs →
    depthEntries es = depthEntries fs
  | _, _, .nil => rfl
  | _, _, .cons head tail => by rw [depthEntries, depthEntries, head.depth_eq, tail.depth_eq]

end

end Value

/-! ## Writing -/

namespace Json

/-- Entries of distinct keys can be sorted in one way only. -/
theorem sorted_of_perm {ps qs : List (RawText × List Char)} (h : ps.Perm qs)
    (hkeys : (ps.map Prod.fst).Nodup) : sorted ps = sorted qs := by
  have hpairwise : ∀ rs : List (RawText × List Char),
      (sorted rs).Pairwise fun p q => RawText.le p.1 q.1 = true :=
    List.pairwise_mergeSort (fun p q r => RawText.le_trans p.1 q.1 r.1)
      fun p q => RawText.le_total p.1 q.1
  have hps : (sorted ps).Perm ps := List.mergeSort_perm ps _
  have hqs : (sorted qs).Perm qs := List.mergeSort_perm qs _
  refine List.Perm.eq_of_pairwise ?_ (hpairwise ps) (hpairwise qs)
    ((hps.trans h).trans hqs.symm)
  intro p q hp hq hpq hqp
  have hp' : p ∈ ps := hps.mem_iff.mp hp
  have hq' : q ∈ ps := h.mem_iff.mpr (hqs.mem_iff.mp hq)
  exact List.inj_on_of_nodup_map hkeys hp' hq' (RawText.le_antisymm _ _ hpq hqp)

/-- What is written for an entry: its key, which is a text, a colon, and its value. -/
def Written (e : Value × Value) (p : RawText × List Char) : Prop :=
  ∃ key value, e.1 = .text p.1 ∧ writeText? p.1 = some key ∧ write? e.2 = some value ∧
    p.2 = key ++ ':' :: value

theorem writeEntries?_eq_some {es : List (Value × Value)} {ps : List (RawText × List Char)} :
    writeEntries? es = some ps ↔ List.Forall₂ Written es ps := by
  induction es generalizing ps with
  | nil =>
    rw [List.forall₂_nil_left_iff]
    exact ⟨fun h => (Option.some.inj h).symm, fun h => by rw [h]; rfl⟩
  | cons e es ih =>
    obtain ⟨k, v⟩ := e
    constructor
    · intro h
      cases k with
      | text t =>
        obtain ⟨key, hkey, h⟩ := Option.bind_eq_some_iff.mp h
        obtain ⟨value, hvalue, h⟩ := Option.bind_eq_some_iff.mp h
        obtain ⟨more, hmore, h⟩ := Option.bind_eq_some_iff.mp h
        cases h
        exact .cons ⟨key, value, rfl, hkey, hvalue, rfl⟩ (ih.mp hmore)
      | _ => cases h
    · intro h
      cases h with
      | @cons _ p _ more hp hmore =>
        obtain ⟨key, value, hk, hkey, hvalue, htext⟩ := hp
        obtain rfl : k = .text p.1 := hk
        have hentry : (p.1, key ++ ':' :: value) = p := by rw [← htext]
        simp only [writeEntries?, hkey, hvalue, ih.mpr hmore]
        exact congrArg (fun q => some (q :: more)) hentry

theorem map_fst_written {es : List (Value × Value)} {ps : List (RawText × List Char)}
    (h : List.Forall₂ Written es ps) : es.map Prod.fst = (ps.map Prod.fst).map Value.text := by
  induction h with
  | nil => rfl
  | cons hp _ ih =>
    obtain ⟨_, _, hkey, -⟩ := hp
    rw [List.map_cons, List.map_cons, List.map_cons, ih, hkey]

theorem write?_mapping_of_perm {es fs : List (Value × Value)} (h : es.Perm fs)
    (hkeys : (es.map Prod.fst).Nodup) {s : List Char} (hs : write? (.mapping es) = some s) :
    write? (.mapping fs) = some s := by
  obtain ⟨ps, hps, rfl⟩ := Option.map_eq_some_iff.mp hs
  obtain ⟨qs, hqs, hperm⟩ := List.perm_comp_forall₂ h.symm (writeEntries?_eq_some.mp hps)
  rw [map_fst_written (writeEntries?_eq_some.mp hps)] at hkeys
  rw [write?, writeEntries?_eq_some.mpr hqs, Option.map_some,
    sorted_of_perm hperm.symm (List.Nodup.of_map _ hkeys)]

mutual

/-- **The text of a value does not depend on the order of its entries.** -/
theorem write?_of_reordered : ∀ {v w : Value}, v.Reordered w → v.Distinct → write? v = write? w
  | _, _, .refl v, _ => rfl
  | _, _, .list items, h => by rw [write?, write?, writeItems?_of_reordered items h]
  | _, _, .tuple _, _ | _, _, .set _, _ => rfl
  | .mapping es, .mapping gs, @Value.Reordered.mapping _ fs _ entries order, h => by
    have hfs : (fs.map Prod.fst).Nodup := by
      rw [← entries.map_fst]
      exact h.1
    have hgs : (gs.map Prod.fst).Nodup := (order.map Prod.fst).nodup_iff.mp hfs
    rw [write?, writeEntries?_of_reordered entries h.2, ← write?]
    refine Option.ext fun s => ⟨fun hs => ?_, fun hs => ?_⟩
    · exact write?_mapping_of_perm order hfs hs
    · exact write?_mapping_of_perm order.symm hgs hs

theorem writeItems?_of_reordered : ∀ {xs ys : List Value}, Value.ReorderedItems xs ys →
    Value.DistinctItems xs → writeItems? xs = writeItems? ys
  | _, _, .nil, _ => rfl
  | _, _, .cons head tail, h => by
    rw [writeItems?, writeItems?, write?_of_reordered head h.1, writeItems?_of_reordered tail h.2]

theorem writeEntries?_of_reordered : ∀ {es fs : List (Value × Value)},
    Value.ReorderedEntries es fs → Value.DistinctEntries es → writeEntries? es = writeEntries? fs
  | _, _, .nil, _ => rfl
  | (k, v) :: es, _, .cons head tail, h => by
    cases k with
    | text t =>
      rw [writeEntries?, writeEntries?, write?_of_reordered head h.1,
        writeEntries?_of_reordered tail h.2]
    | _ => rfl

end

end Json

end Assemblage
