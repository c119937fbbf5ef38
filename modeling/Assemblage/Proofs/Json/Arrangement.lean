import Assemblage.Value
import Mathlib.Data.List.Forall2
import Mathlib.Data.List.Perm.Basic
import Mathlib.Data.List.Nodup

/-!
# Values up to the order of keys

`Value.Alike` is the equality of values that looks at everything but the order of the entries of
mappings: an integer is alike to no real number and to no truth value. `Value.arranged` sorts the
entries of every mapping by their keys, which gives a value alike to the first (`alike_arranged`),
and no look-up of a key notices it (`lookup_arrange`).
-/

namespace Assemblage.Value
set_option autoImplicit false

/-! ## Alike values -/

mutual

/-- Equality of values, the order of the entries of mappings aside. -/
inductive Alike : Value → Value → Prop where
  | refl (v : Value) : Alike v v
  | list {xs ys : List Value} (items : AlikeItems xs ys) : Alike (.list xs) (.list ys)
  | mapping {es fs gs : List (Value × Value)} (entries : AlikeEntries es fs) (order : fs.Perm gs) :
    Alike (.mapping es) (.mapping gs)

inductive AlikeItems : List Value → List Value → Prop where
  | nil : AlikeItems [] []
  | cons {v w : Value} {xs ys : List Value} (head : Alike v w) (tail : AlikeItems xs ys) :
    AlikeItems (v :: xs) (w :: ys)

/-- Entries with the same keys in the same order, and values alike. -/
inductive AlikeEntries : List (Value × Value) → List (Value × Value) → Prop where
  | nil : AlikeEntries [] []
  | cons {k v w : Value} {es fs : List (Value × Value)} (head : Alike v w)
    (tail : AlikeEntries es fs) : AlikeEntries ((k, v) :: es) ((k, w) :: fs)

end

/-! ## Distinct keys -/

mutual

/-- Whether every mapping has each of its keys once, as the mappings of a program do. -/
def Distinct : Value → Prop
  | list xs | tuple xs | set xs => DistinctItems xs
  | mapping es => (es.map Prod.fst).Nodup ∧ DistinctEntries es
  | _ => True

def DistinctItems : List Value → Prop
  | [] => True
  | x :: xs => Distinct x ∧ DistinctItems xs

def DistinctEntries : List (Value × Value) → Prop
  | [] => True
  | (_, v) :: es => Distinct v ∧ DistinctEntries es

end

/-! ## Arranged values -/

def keyLe : Value → Value → Bool
  | text s, text t => RawText.le s t
  | _, _ => true

def arrange (es : List (Value × Value)) : List (Value × Value) :=
  es.mergeSort fun e f => keyLe e.1 f.1

mutual

/-- The value with the entries of every mapping sorted by their keys. -/
def arranged : Value → Value
  | list xs => list (arrangedItems xs)
  | mapping es => mapping (arrange (arrangedEntries es))
  | v => v

def arrangedItems : List Value → List Value
  | [] => []
  | x :: xs => arranged x :: arrangedItems xs

def arrangedEntries : List (Value × Value) → List (Value × Value)
  | [] => []
  | (k, v) :: es => (k, arranged v) :: arrangedEntries es

end

theorem arrangedEntries_eq_map (es : List (Value × Value)) :
    arrangedEntries es = es.map fun e => (e.1, e.2.arranged) := by
  induction es with
  | nil => rfl
  | cons e es ih =>
    obtain ⟨k, v⟩ := e
    rw [arrangedEntries, ih, List.map_cons]

theorem map_fst_arrangedEntries (es : List (Value × Value)) :
    (arrangedEntries es).map Prod.fst = es.map Prod.fst := by
  rw [arrangedEntries_eq_map, List.map_map]
  rfl

theorem perm_arrange (es : List (Value × Value)) : (arrange es).Perm es :=
  List.mergeSort_perm _ _

/-- Sorting by the keys does not look at the values. -/
theorem arrange_map (f : Value → Value) (es : List (Value × Value)) :
    arrange (es.map fun e => (e.1, f e.2)) = (arrange es).map fun e => (e.1, f e.2) := by
  unfold arrange
  rw [List.map_mergeSort]
  exact fun _ _ _ _ => rfl

mutual

theorem alike_arranged : ∀ v : Value, Alike v v.arranged
  | list xs => .list (alike_arrangedItems xs)
  | mapping es => .mapping (alike_arrangedEntries es) (perm_arrange _).symm
  | null => .refl _
  | flag _ => .refl _
  | integer _ => .refl _
  | real _ => .refl _
  | text _ => .refl _
  | bytes _ => .refl _
  | date _ => .refl _
  | moment _ => .refl _
  | tuple _ => .refl _
  | set _ => .refl _
  | cycle => .refl _

theorem alike_arrangedItems : ∀ xs : List Value, AlikeItems xs (arrangedItems xs)
  | [] => .nil
  | x :: xs => .cons (alike_arranged x) (alike_arrangedItems xs)

theorem alike_arrangedEntries : ∀ es : List (Value × Value), AlikeEntries es (arrangedEntries es)
  | [] => .nil
  | (_, v) :: es => .cons (alike_arranged v) (alike_arrangedEntries es)

end

/-! ## Looking up keys -/

theorem lookup_cons_self (key : String) (v : Value) (es : List (Value × Value)) :
    lookup key ((text (RawText.ofString key), v) :: es) = some v := by
  simp [lookup]

theorem lookup_cons_of_ne {key : String} {k : Value} (h : k ≠ text (RawText.ofString key))
    (v : Value) (es : List (Value × Value)) : lookup key ((k, v) :: es) = lookup key es := by
  cases k with
  | text t =>
    have hne : (t == RawText.ofString key) = false := by
      rw [beq_eq_false_iff_ne]
      rintro rfl
      exact h rfl
    simp [lookup, hne]
  | _ => rfl

theorem lookup_eq_some_iff {key : String} {es : List (Value × Value)}
    (h : (es.map Prod.fst).Nodup) {v : Value} :
    lookup key es = some v ↔ (text (RawText.ofString key), v) ∈ es := by
  induction es with
  | nil => simp [lookup]
  | cons e es ih =>
    obtain ⟨k, w⟩ := e
    obtain ⟨hnew, hrest⟩ := List.nodup_cons.mp h
    by_cases hk : k = text (RawText.ofString key)
    · subst hk
      rw [lookup_cons_self, List.mem_cons]
      constructor
      · rintro h
        exact .inl (by rw [Option.some.inj h])
      · rintro (h | h)
        · rw [(Prod.mk.inj h).2]
        · exact absurd (List.mem_map_of_mem h) hnew
    · rw [lookup_cons_of_ne hk, ih hrest, List.mem_cons]
      constructor
      · exact .inr
      · rintro (h | h)
        · exact absurd (Prod.mk.inj h).1.symm hk
        · exact h

/-- The order of distinct keys does not change what is found. -/
theorem lookup_perm (key : String) {es fs : List (Value × Value)} (order : es.Perm fs)
    (h : (es.map Prod.fst).Nodup) : lookup key es = lookup key fs := by
  have hnodup : (fs.map Prod.fst).Nodup := (order.map _).nodup_iff.mp h
  refine Option.ext fun v => ?_
  rw [lookup_eq_some_iff h, lookup_eq_some_iff hnodup, order.mem_iff]

theorem lookup_arrange (key : String) {es : List (Value × Value)} (h : (es.map Prod.fst).Nodup) :
    lookup key (arrange es) = lookup key es :=
  (lookup_perm key (perm_arrange es).symm h).symm

theorem lookup_arrangedEntries (key : String) (es : List (Value × Value)) :
    lookup key (arrangedEntries es) = (lookup key es).map arranged := by
  induction es with
  | nil => rfl
  | cons e es ih =>
    obtain ⟨k, v⟩ := e
    rw [arrangedEntries]
    by_cases hk : k = text (RawText.ofString key)
    · subst hk
      rw [lookup_cons_self, lookup_cons_self, Option.map_some]
    · rw [lookup_cons_of_ne hk, lookup_cons_of_ne hk, ih]

/-! ## Records -/

theorem ofString_injective : Function.Injective Value.ofString := by
  intro s t h
  have htexts : RawText.ofString s = RawText.ofString t := Value.text.inj h
  have hstrings := congrArg RawText.toString? htexts
  rw [RawText.toString?_ofString, RawText.toString?_ofString] at hstrings
  exact Option.some.inj hstrings

theorem nodup_record {fields : List (String × Value)} (h : (fields.map Prod.fst).Nodup) :
    ((fields.map fun field => (ofString field.1, field.2)).map Prod.fst).Nodup := by
  rw [List.map_map]
  have hkeys := h.map ofString_injective
  rw [List.map_map] at hkeys
  exact hkeys

theorem lookup_record (key : String) (fields : List (String × Value)) :
    lookup key (fields.map fun field => (ofString field.1, field.2)) = fields.lookup key := by
  induction fields with
  | nil => rfl
  | cons field fields ih =>
    obtain ⟨name, v⟩ := field
    rw [List.map_cons, List.lookup_cons]
    by_cases hname : key = name
    · subst hname
      rw [beq_self_eq_true]
      exact lookup_cons_self key v _
    · have hne : ofString name ≠ text (RawText.ofString key) :=
        fun h => hname (ofString_injective h).symm
      rw [lookup_cons_of_ne hne, ih, beq_eq_false_iff_ne.mpr hname]

/-- The fields of a record are found by their names after sorting. -/
theorem lookup_arranged_record {fields : List (String × Value)} (h : (fields.map Prod.fst).Nodup)
    (key : String) :
    lookup key (arrange (arrangedEntries
      (fields.map fun field => (ofString field.1, field.2)))) =
      (fields.lookup key).map arranged := by
  have hnodup := nodup_record h
  rw [← map_fst_arrangedEntries] at hnodup
  rw [lookup_arrange key hnodup, lookup_arrangedEntries, lookup_record]

theorem distinctItems_iff {xs : List Value} : DistinctItems xs ↔ ∀ x ∈ xs, x.Distinct := by
  induction xs with
  | nil => simp [DistinctItems]
  | cons x xs ih => rw [DistinctItems, ih, List.forall_mem_cons]

theorem distinctEntries_iff {es : List (Value × Value)} :
    DistinctEntries es ↔ ∀ e ∈ es, e.2.Distinct := by
  induction es with
  | nil => simp [DistinctEntries]
  | cons e es ih =>
    obtain ⟨k, v⟩ := e
    rw [DistinctEntries, ih, List.forall_mem_cons]

/-! ## Mappings from entries -/

theorem same_text (s t : RawText) : same (text s) (text t) = (s == t) := by
  simp only [same]

theorem insert_new {key value : Value} {es : List (Value × Value)}
    (h : ∀ e ∈ es, same e.1 key = false) : insert key value es = es ++ [(key, value)] := by
  induction es with
  | nil => rfl
  | cons e es ih =>
    obtain ⟨k, v⟩ := e
    have hk : same k key = false := h (k, v) List.mem_cons_self
    have hes : ∀ e ∈ es, same e.1 key = false := fun e he => h e (List.mem_cons_of_mem _ he)
    simp [insert, hk, ih hes]

theorem foldl_insert (fs : List (Value × Value)) {gs : List (Value × Value)}
    (hkeys : ((fs ++ gs).map Prod.fst).Nodup)
    (htexts : ∀ e ∈ fs ++ gs, ∃ t, e.1 = text t) :
    gs.foldl (fun es e => insert e.1 e.2 es) fs = fs ++ gs := by
  induction gs generalizing fs with
  | nil => simp
  | cons e gs ih =>
    have hnew : ∀ f ∈ fs, same f.1 e.1 = false := by
      intro f hf
      obtain ⟨s, hs⟩ := htexts f (List.mem_append_left _ hf)
      obtain ⟨t, ht⟩ := htexts e (by simp)
      rw [List.map_append, List.nodup_append] at hkeys
      have hne : f.1 ≠ e.1 :=
        hkeys.2.2 _ (List.mem_map_of_mem hf) _ (List.mem_map_of_mem List.mem_cons_self)
      rw [hs, ht, same_text, beq_eq_false_iff_ne]
      rintro rfl
      exact hne (hs.trans ht.symm)
    have hsplit : fs ++ e :: gs = fs ++ [e] ++ gs := by simp
    rw [hsplit] at hkeys htexts
    rw [List.foldl_cons, insert_new hnew, ih _ hkeys htexts, hsplit]

/-- Entries with distinct texts as keys are the entries of their mapping. -/
theorem ofEntries_of_nodup {es : List (Value × Value)} (hkeys : (es.map Prod.fst).Nodup)
    (htexts : ∀ e ∈ es, ∃ t, e.1 = text t) : ofEntries es = mapping es := by
  unfold ofEntries
  rw [foldl_insert [] hkeys htexts, List.nil_append]

/-! ## Depths -/

theorem depth_le_of_mem {es : List (Value × Value)} {depth : Nat} (h : depthEntries es ≤ depth) :
    ∀ e ∈ es, e.2.depth ≤ depth := by
  induction es with
  | nil => simp
  | cons e es ih =>
    obtain ⟨k, v⟩ := e
    rw [depthEntries] at h
    intro f hf
    rcases List.mem_cons.mp hf with rfl | hf
    · exact Nat.le_trans (Nat.le_max_left _ _) h
    · exact ih (Nat.le_trans (Nat.le_max_right _ _) h) f hf

end Assemblage.Value
