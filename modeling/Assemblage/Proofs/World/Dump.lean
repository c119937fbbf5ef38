import Assemblage.Proofs.World.Proper
import Assemblage.Proofs.World.Safety
import Assemblage.World.Dump

/-!
# What a dump keeps

`Yields` says what a dump can come to. Of a value that a payload can carry it is the value itself,
unless a key inside it holds half of a surrogate pair (`Value.yields_plain`). The names of
components are kept as far as they can be written: `World.lossy` is the world with these names, and
it is the world itself exactly if every name is whole (`World.lossy_eq_iff`).
-/

namespace Assemblage
set_option autoImplicit false

/-- What a dump comes to: nothing, if it is nested too deep; what meets a condition, if the keys in
it are whole; and nothing, if one of them is not. -/
inductive Yields {α : Type} (post : α → Prop) (whole : Prop) : Except DumpFault α → Prop
  | nesting : Yields post whole (.error .nesting)
  | ok {a : α} (hpost : post a) (hwhole : whole) : Yields post whole (.ok a)
  | halfKey (hbroken : ¬whole) : Yields post whole (.error .halfKey)

namespace Yields
variable {α β : Type} {post : α → Prop} {post' : β → Prop} {p q : Prop} {r : Except DumpFault α}

theorem bind {f : α → Except DumpFault β} (h : Yields post p r)
    (hf : ∀ a, post a → Yields post' q (f a)) : Yields post' (p ∧ q) (r >>= f) := by
  cases h with
  | nesting => exact .nesting
  | halfKey hbroken => exact .halfKey fun hwhole => hbroken hwhole.1
  | @ok a hpost hwhole =>
    have hrest := hf a hpost
    show Yields post' (p ∧ q) (f a)
    generalize f a = r' at hrest
    cases hrest with
    | nesting => exact .nesting
    | ok hpost' hwhole' => exact .ok hpost' ⟨hwhole, hwhole'⟩
    | halfKey hbroken => exact .halfKey fun hwhole' => hbroken hwhole'.2

theorem map {f : α → β} (h : Yields post p r) (hf : ∀ a, post a → post' (f a)) :
    Yields post' p (f <$> r) := by
  cases h with
  | nesting => exact .nesting
  | ok hpost hwhole => exact .ok (hf _ hpost) hwhole
  | halfKey hbroken => exact .halfKey hbroken

end Yields

/-! ## Values -/

namespace Value

mutual

/-- Whether no key in a value holds half of a surrogate pair. -/
def WholeKeys : Value → Prop
  | list xs | tuple xs | set xs => WholeKeysItems xs
  | mapping es => WholeKeysEntries es
  | _ => True

def WholeKeysItems : List Value → Prop
  | [] => True
  | x :: xs => WholeKeys x ∧ WholeKeysItems xs

def WholeKeysEntries : List (Value × Value) → Prop
  | [] => True
  | (k, v) :: es => Whole k ∧ WholeKeys v ∧ WholeKeysEntries es

end

theorem yields_keyText (t : RawText) : Yields (· = t) (text t).Whole (keyText (text t)) := by
  rw [keyText]
  split
  · next hwhole => exact .ok rfl hwhole
  · next hbroken => exact .halfKey hbroken

mutual

/-- **The dump of what is fit is the value itself**, if it has one. -/
theorem yields_plain : ∀ (v : Value) (n : Nat), v.offender? = none → v.Distinct →
    Yields (· = v) v.WholeKeys (v.plain n)
  | v, 0, _, _ => by
    rw [plain]
    exact .nesting
  | list xs, n + 1, hfit, hdistinct => by
    rw [plain]
    exact (yields_plainItems xs n (itemOffender?_eq_none.mp hfit) hdistinct).map
      fun _ => congrArg list
  | mapping es, n + 1, hfit, ⟨hkeys, hdistinct⟩ => by
    have hentries := entryOffender?_eq_none.mp hfit
    rw [plain]
    refine (yields_plainEntries es n hentries hdistinct).map ?_
    rintro _ rfl
    exact ofEntries_of_nodup hkeys fun e he => (hentries e he).1
  | null, _ + 1, _, _ | flag _, _ + 1, _, _ | integer _, _ + 1, _, _ | real _, _ + 1, _, _
  | text _, _ + 1, _, _ => .ok rfl trivial
  | bytes _, _ + 1, h, _ | date _, _ + 1, h, _ | moment _, _ + 1, h, _ | tuple _, _ + 1, h, _
  | set _, _ + 1, h, _ | cycle, _ + 1, h, _ => by cases h

theorem yields_plainItems : ∀ (xs : List Value) (n : Nat), (∀ x ∈ xs, x.offender? = none) →
    DistinctItems xs → Yields (· = xs) (WholeKeysItems xs) (plainItems n xs)
  | [], _, _, _ => .ok rfl trivial
  | x :: xs, n, hfit, ⟨hx, hxs⟩ => by
    obtain ⟨hfirst, hrest⟩ := List.forall_mem_cons.mp hfit
    rw [plainItems]
    refine (yields_plain x n hfirst hx).bind ?_
    rintro _ rfl
    rw [bind_pure_comp]
    exact (yields_plainItems xs n hrest hxs).map fun _ => congrArg (_ :: ·)

theorem yields_plainEntries : ∀ (es : List (Value × Value)) (n : Nat),
    (∀ e ∈ es, (∃ t, e.1 = text t) ∧ e.2.offender? = none) → DistinctEntries es →
      Yields (· = es) (WholeKeysEntries es) (plainEntries n es)
  | [], _, _, _ => .ok rfl trivial
  | (k, v) :: es, n, hfit, ⟨hv, hes⟩ => by
    obtain ⟨⟨⟨t, rfl⟩, hfirst⟩, hrest⟩ := List.forall_mem_cons.mp hfit
    rw [plainEntries]
    refine (yields_keyText t).bind ?_
    rintro _ rfl
    refine (yields_plain v n hfirst hv).bind ?_
    rintro _ rfl
    rw [bind_pure_comp]
    exact (yields_plainEntries es n hrest hes).map fun _ => congrArg (_ :: ·)

end

end Value

/-! ## Names as they can be written -/

namespace RawText

/-- What is whole loses nothing. -/
theorem lossy_of_whole {t : RawText} (h : t.toChars?.isSome) : t.lossy = t := by
  induction t with
  | nil => rfl
  | cons r t ih =>
    cases r with
    | char c =>
      have hrest : (toChars? t).isSome := by
        cases ht : toChars? t with
        | some s => rfl
        | none =>
          rw [toChars?] at ht
          simp [toChars?, RawChar.char?, ht] at h
      rw [lossy, List.flatMap_cons, List.singleton_append]
      exact congrArg (_ :: ·) (ih hrest)
    | half n => simp [toChars?, RawChar.char?] at h

theorem whole_lossy (t : RawText) : t.lossy.toChars?.isSome := by
  have hchars : ∀ t : RawText, ∃ s, t.lossy = ofChars s := by
    intro t
    induction t with
    | nil => exact ⟨[], rfl⟩
    | cons r t ih =>
      obtain ⟨s, hs⟩ := ih
      cases r with
      | char c => exact ⟨c :: s, congrArg (RawChar.char c :: ·) hs⟩
      | half n => exact ⟨List.replicate 3 '\ufffd' ++ s, congrArg (List.replicate 3 _ ++ ·) hs⟩
  obtain ⟨s, hs⟩ := hchars t
  rw [hs, toChars?_ofChars]
  rfl

end RawText

namespace Entity

/-- Puts a component under its name: the last value of a name wins, at the place of the first. -/
def put (t : RawText) (v : Value) : List (RawText × Value) → List (RawText × Value)
  | [] => [(t, v)]
  | (k, w) :: rest => if k = t then (k, v) :: rest else (k, w) :: put t v rest

def lossyComponents (cs : List (RawText × Value)) : List (RawText × Value) :=
  cs.foldl (fun kept c => put c.1.lossy c.2 kept) []

mutual

/-- The entity with the names of its components as they can be written. -/
def lossy : Entity → Entity
  | ⟨name, enabled, components, children⟩ =>
    ⟨name, enabled, lossyComponents components, lossyAll children⟩

def lossyAll : List Entity → List Entity
  | [] => []
  | e :: es => lossy e :: lossyAll es

end

mutual

/-- Whether no name of a component holds half of a surrogate pair. -/
def WholeNames : Entity → Prop
  | ⟨_, _, components, children⟩ =>
    (∀ c ∈ components, c.1.toChars?.isSome) ∧ WholeNamesAll children

def WholeNamesAll : List Entity → Prop
  | [] => True
  | e :: es => WholeNames e ∧ WholeNamesAll es

end

mutual

/-- Whether no key inside a component holds half of a surrogate pair. -/
def WholeInside : Entity → Prop
  | ⟨_, _, components, children⟩ =>
    (∀ c ∈ components, c.2.WholeKeys) ∧ WholeInsideAll children

def WholeInsideAll : List Entity → Prop
  | [] => True
  | e :: es => WholeInside e ∧ WholeInsideAll es

end

/-! ## Components under their names -/

theorem keys_put (t : RawText) (v : Value) (cs : List (RawText × Value)) :
    (put t v cs).map Prod.fst =
      if t ∈ cs.map Prod.fst then cs.map Prod.fst else cs.map Prod.fst ++ [t] := by
  induction cs with
  | nil => rfl
  | cons c cs ih =>
    obtain ⟨k, w⟩ := c
    rw [put]
    by_cases hk : k = t
    · simp [hk]
    · rw [if_neg hk, List.map_cons, ih]
      have hmem : t ∈ k :: cs.map Prod.fst ↔ t ∈ cs.map Prod.fst := by simp [Ne.symm hk]
      simp only [List.map_cons, hmem]
      split <;> rfl

theorem nodup_put {t : RawText} {cs : List (RawText × Value)} (h : (cs.map Prod.fst).Nodup)
    (v : Value) : ((put t v cs).map Prod.fst).Nodup := by
  rw [keys_put]
  split
  · exact h
  · next hnew =>
    have hdisjoint : List.Disjoint (cs.map Prod.fst) [t] := by simpa using hnew
    exact h.append (List.nodup_singleton t) hdisjoint

theorem mem_put {t : RawText} {v : Value} {cs : List (RawText × Value)} {c : RawText × Value}
    (h : c ∈ put t v cs) : c.2 = v ∨ ∃ d ∈ cs, d.2 = c.2 := by
  induction cs with
  | nil =>
    obtain rfl := List.mem_singleton.mp h
    exact .inl rfl
  | cons d cs ih =>
    obtain ⟨k, w⟩ := d
    rw [put] at h
    split at h
    · rcases List.mem_cons.mp h with rfl | hrest
      · exact .inl rfl
      · exact .inr ⟨c, List.mem_cons_of_mem _ hrest, rfl⟩
    · rcases List.mem_cons.mp h with rfl | hrest
      · exact .inr ⟨_, List.mem_cons_self, rfl⟩
      · rcases ih hrest with hv | ⟨d, hd, hv⟩
        · exact .inl hv
        · exact .inr ⟨d, List.mem_cons_of_mem _ hd, hv⟩

theorem put_new {t : RawText} {cs : List (RawText × Value)} (h : t ∉ cs.map Prod.fst) (v : Value) :
    put t v cs = cs ++ [(t, v)] := by
  induction cs with
  | nil => rfl
  | cons c cs ih =>
    obtain ⟨k, w⟩ := c
    obtain ⟨hne, hrest⟩ := List.ne_and_not_mem_of_not_mem_cons h
    rw [put, if_neg (Ne.symm hne), ih hrest]
    rfl

/-- What holds without components and is kept by `put` holds of all components. -/
theorem lossyComponents_induction {P : List (RawText × Value) → Prop}
    {cs : List (RawText × Value)} (hnil : P [])
    (hput : ∀ c ∈ cs, ∀ kept, P kept → P (put c.1.lossy c.2 kept)) : P (lossyComponents cs) :=
  List.foldlRecOn cs _ hnil fun kept hkept c hc => hput c hc kept hkept

theorem nodup_lossyComponents (cs : List (RawText × Value)) :
    ((lossyComponents cs).map Prod.fst).Nodup :=
  lossyComponents_induction (P := fun kept => (kept.map Prod.fst).Nodup) List.nodup_nil
    fun c _ _ h => nodup_put h c.2

theorem mem_lossyComponents {cs : List (RawText × Value)} :
    ∀ c ∈ lossyComponents cs, ∃ d ∈ cs, d.2 = c.2 := by
  refine lossyComponents_induction (P := fun kept => ∀ c ∈ kept, ∃ d ∈ cs, d.2 = c.2)
    (by simp) ?_
  intro d hd kept hkept c hc
  rcases mem_put hc with hv | ⟨c', hc', hv⟩
  · exact ⟨d, hd, hv.symm⟩
  · rw [← hv]
    exact hkept c' hc'

theorem whole_lossyComponents (cs : List (RawText × Value)) :
    ∀ c ∈ lossyComponents cs, c.1.toChars?.isSome := by
  suffices h : ∀ t ∈ (lossyComponents cs).map Prod.fst, t.toChars?.isSome from
    fun c hc => h c.1 (List.mem_map_of_mem hc)
  refine lossyComponents_induction (P := fun kept => ∀ t ∈ kept.map Prod.fst, t.toChars?.isSome)
    (by simp) ?_
  intro c _ kept hkept t ht
  rw [keys_put] at ht
  split at ht
  · exact hkept t ht
  · rcases List.mem_append.mp ht with hold | hnew
    · exact hkept t hold
    · rw [List.mem_singleton.mp hnew]
      exact c.1.whole_lossy

/-- Whole names that are distinct are kept as they are. -/
theorem lossyComponents_of_whole {cs : List (RawText × Value)} (hkeys : (cs.map Prod.fst).Nodup)
    (h : ∀ c ∈ cs, c.1.toChars?.isSome) : lossyComponents cs = cs := by
  suffices hfold : ∀ kept : List (RawText × Value), ((kept ++ cs).map Prod.fst).Nodup →
      cs.foldl (fun kept c => put c.1.lossy c.2 kept) kept = kept ++ cs from hfold [] hkeys
  clear hkeys
  induction cs with
  | nil => exact fun kept _ => (List.append_nil kept).symm
  | cons c cs ih =>
    intro kept hkept
    obtain ⟨hc, hcs⟩ := List.forall_mem_cons.mp h
    have hnew : c.1 ∉ kept.map Prod.fst := by
      rw [List.map_append, List.map_cons] at hkept
      exact fun hold => (List.disjoint_of_nodup_append hkept) hold List.mem_cons_self
    have hstep : (kept ++ [c]) ++ cs = kept ++ c :: cs := by simp
    rw [List.foldl_cons, RawText.lossy_of_whole hc, put_new hnew]
    rw [← hstep] at hkept ⊢
    exact ih hcs _ hkept

theorem isEmpty_lossyComponents (cs : List (RawText × Value)) :
    (lossyComponents cs).isEmpty = cs.isEmpty := by
  cases cs with
  | nil => rfl
  | cons c cs =>
    refine List.foldlRecOn (motive := fun kept : List (RawText × Value) => kept.isEmpty = false)
      cs _ rfl ?_
    intro kept _ d _
    cases kept with
    | nil => rfl
    | cons k kept =>
      rw [put]
      split <;> rfl

/-- The entries of components under the names that can be written. -/
theorem ofEntries_lossy (cs : List (RawText × Value)) :
    Value.ofEntries (cs.map fun c => (.text c.1.lossy, c.2)) =
      .mapping ((lossyComponents cs).map fun c => (.text c.1, c.2)) := by
  have hput : ∀ (t : RawText) (v : Value) (kept : List (RawText × Value)),
      Value.insert (.text t) v (kept.map fun c => (.text c.1, c.2)) =
        (put t v kept).map fun c => (.text c.1, c.2) := by
    intro t v kept
    induction kept with
    | nil => rfl
    | cons c kept ih =>
      obtain ⟨k, w⟩ := c
      rw [List.map_cons, Value.insert, put, Value.same, ih]
      by_cases hk : k = t <;> simp [hk]
  have hfold : ∀ kept : List (RawText × Value),
      cs.foldl (fun es c => Value.insert (.text c.1.lossy) c.2 es)
          (kept.map fun c => (.text c.1, c.2)) =
        (cs.foldl (fun kept c => put c.1.lossy c.2 kept) kept).map
          fun c => (.text c.1, c.2) := by
    induction cs with
    | nil => exact fun kept => rfl
    | cons c cs ih =>
      intro kept
      rw [List.foldl_cons, hput, ih]
      rfl
  rw [Value.ofEntries, List.foldl_map]
  exact congrArg Value.mapping (hfold [])

/-! ## Names that are kept -/

theorem lossyComponents_eq_iff {cs : List (RawText × Value)} (hkeys : (cs.map Prod.fst).Nodup) :
    lossyComponents cs = cs ↔ ∀ c ∈ cs, c.1.toChars?.isSome := by
  constructor
  · intro h
    rw [← h]
    exact whole_lossyComponents cs
  · exact lossyComponents_of_whole hkeys

mutual

theorem lossy_eq_iff : ∀ e : Entity, e.Proper → (e.lossy = e ↔ e.WholeNames)
  | ⟨_, _, components, children⟩, ⟨hkeys, _, hchildren⟩ => by
    rw [lossy, Entity.mk.injEq, lossyComponents_eq_iff hkeys, lossyAll_eq_iff children hchildren]
    exact (and_iff_right rfl).trans (and_iff_right rfl)

theorem lossyAll_eq_iff : ∀ es : List Entity, ProperAll es → (lossyAll es = es ↔ WholeNamesAll es)
  | [], _ => iff_of_true rfl trivial
  | e :: es, ⟨he, hes⟩ => by
    rw [lossyAll, List.cons.injEq, lossy_eq_iff e he, lossyAll_eq_iff es hes]
    exact Iff.rfl

end

end Entity

namespace World

/-- The world with the names of all components as they can be written. -/
def lossy (w : World) : World := ⟨w.capacity, Entity.lossyAll w.entities⟩

def WholeNames (w : World) : Prop := Entity.WholeNamesAll w.entities

def WholeInside (w : World) : Prop := Entity.WholeInsideAll w.entities

/-- **Nothing is lost of a world whose names are whole**, and something is of every other one. -/
theorem lossy_eq_iff {w : World} (hw : w.Proper) : w.lossy = w ↔ w.WholeNames := by
  rw [WholeNames, ← Entity.lossyAll_eq_iff w.entities hw.entities]
  constructor
  · exact congrArg World.entities
  · exact fun h => congrArg (World.mk w.capacity) h

end World

end Assemblage
