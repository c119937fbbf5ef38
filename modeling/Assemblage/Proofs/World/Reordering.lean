import Assemblage.Proofs.Json.Keys
import Assemblage.Proofs.Json.Reordering
import Assemblage.Proofs.World.Payload

/-!
# Worlds up to the order of keys

`World.Reordered` holds of worlds whose fields differ in nothing but the order of components and of
keys, also where a payload could not carry what is around them. Such worlds have one payload or none
(`Payload.encode_of_reordered`), and `Schema.Unordered` says of a check that it never looks at that
order, one lemma for each way to build a check.

Main statements: fields that are reordered are checked as reordered worlds
(`World.check_of_reordered`), and a payload that was decoded has one canonical form
(`Payload.decode_encode_decoded`).
-/

namespace Assemblage
set_option autoImplicit false

/-- Equality of worlds, the order of components and of keys aside. -/
def World.Reordered (w w' : World) : Prop := w.toValue.Reordered w'.toValue

/-! ## Plain values -/

/-- Whether a payload can carry a value and every key stands once in it. -/
structure Value.Plain (v : Value) : Prop where
  fit : v.offender? = none
  distinct : v.Distinct

namespace Value

theorem Plain.of_reordered {v w : Value} (hv : v.Plain) (h : v.Reordered w) : w.Plain :=
  ⟨h.fit_iff.mp hv.fit, h.distinct_iff.mp hv.distinct⟩

theorem Plain.of_mem {es : List (Value × Value)} (h : (mapping es).Plain) :
    ∀ e ∈ es, (∃ t, e.1 = text t) ∧ e.2.Plain := by
  intro e he
  obtain ⟨htext, hfit⟩ := entryOffender?_eq_none.mp h.fit e he
  exact ⟨htext, hfit, distinctEntries_iff.mp h.distinct.2 e he⟩

theorem Plain.of_lookup {es : List (Value × Value)} (h : (mapping es).Plain) {key : String}
    {v : Value} (hv : lookup key es = some v) : v.Plain := by
  obtain ⟨k, hk⟩ := mem_of_lookup hv
  exact (h.of_mem _ hk).2

theorem Plain.of_item {xs : List Value} (h : (list xs).Plain) : ∀ x ∈ xs, x.Plain := fun x hx =>
  ⟨itemOffender?_eq_none.mp h.fit x hx, distinctItems_iff.mp h.distinct x hx⟩

theorem reorderedEntries_refl (es : List (Value × Value)) : ReorderedEntries es es :=
  reorderedEntries_iff.mpr (List.forall₂_same.mpr fun e _ => ⟨rfl, .refl e.2⟩)

theorem reordered_mapping {es : List (Value × Value)} {w : Value} (h : (mapping es).Reordered w) :
    ∃ fs gs, ReorderedEntries es fs ∧ fs.Perm gs ∧ w = mapping gs := by
  cases h with
  | refl => exact ⟨es, es, reorderedEntries_refl es, .refl es, rfl⟩
  | mapping entries order => exact ⟨_, _, entries, order, rfl⟩

theorem reordered_list {xs : List Value} {w : Value} (h : (list xs).Reordered w) :
    ∃ ys, List.Forall₂ Reordered xs ys ∧ w = list ys := by
  cases h with
  | refl => exact ⟨xs, List.forall₂_same.mpr fun x _ => .refl x, rfl⟩
  | list items => exact ⟨_, reorderedItems_iff.mp items, rfl⟩

/-! ## Looking up keys -/

theorem ReorderedEntries.lookup (key : String) : ∀ {es fs : List (Value × Value)},
    ReorderedEntries es fs → Option.Rel Reordered (lookup key es) (lookup key fs)
  | _, _, .nil => .none
  | (k, v) :: es, (_, w) :: fs, .cons head tail => by
    by_cases hk : k = text (RawText.ofString key)
    · subst hk
      rw [lookup_cons_self, lookup_cons_self]
      exact .some head
    · rw [lookup_cons_of_ne hk, lookup_cons_of_ne hk]
      exact tail.lookup key

theorem lookup_reordered {es fs gs : List (Value × Value)} (hkeys : (es.map Prod.fst).Nodup)
    (entries : ReorderedEntries es fs) (order : fs.Perm gs) (key : String) :
    Option.Rel Reordered (lookup key es) (lookup key gs) := by
  rw [entries.map_fst] at hkeys
  rw [← lookup_perm key order hkeys]
  exact entries.lookup key

end Value

/-! ## Checks that do not look at the order of keys -/

namespace Schema
variable {α : Type} {S : α → α → Prop} {check : Value → Checked α}

/-- Whether a check that passes a plain value passes it in every order, with related results. -/
def Unordered (check : Value → Checked α) (S : α → α → Prop) : Prop :=
  ∀ v w a, v.Plain → v.Reordered w → check v = .ok a → ∃ b, check w = .ok b ∧ S a b

/-- A check that passes no collection sees no order. -/
theorem unordered_scalar (hlist : ∀ xs a, check (.list xs) ≠ .ok a)
    (hmapping : ∀ es a, check (.mapping es) ≠ .ok a) : Unordered check Eq := by
  intro v w a hv h hcheck
  cases h with
  | refl => exact ⟨a, hcheck, rfl⟩
  | list => exact absurd hcheck (hlist _ a)
  | tuple | set => cases hv.fit
  | mapping => exact absurd hcheck (hmapping _ a)

theorem unordered_optional (h : Unordered check Eq) : Unordered (optional check) Eq := by
  intro v w a hv hvw hcheck
  cases v with
  | null =>
    cases hvw
    exact ⟨a, hcheck, rfl⟩
  | _ =>
    obtain ⟨b, hb, rfl⟩ := Checked.map_eq_ok.mp hcheck
    obtain ⟨_, hw, rfl⟩ := h _ w b hv hvw hb
    refine ⟨some b, ?_, rfl⟩
    cases hvw <;> exact Checked.map_eq_ok.mpr ⟨b, hw, rfl⟩

theorem unordered_defaulted (h : Unordered check S) {default : α} (hdefault : S default default)
    {es gs : List (Value × Value)} (hes : (Value.mapping es).Plain) (name : String)
    (hlookup : Option.Rel Value.Reordered (Value.lookup name es) (Value.lookup name gs)) {a : α}
    (ha : defaulted es name default check = .ok a) :
    ∃ b, defaulted gs name default check = .ok b ∧ S a b := by
  unfold defaulted at ha ⊢
  generalize Value.lookup name gs = w at hlookup ⊢
  cases hv : Value.lookup name es with
  | none =>
    rw [hv] at ha hlookup
    cases hlookup
    cases ha
    exact ⟨default, rfl, hdefault⟩
  | some v =>
    rw [hv] at ha hlookup
    cases hlookup with
    | some hvw =>
      obtain ⟨b, hb, hab⟩ := h v _ a (hes.of_lookup hv) hvw (Checked.under_eq_ok.mp ha)
      exact ⟨b, Checked.under_eq_ok.mpr hb, hab⟩

theorem unordered_items (h : Unordered check S) {xs ys : List Value}
    (hitems : List.Forall₂ Value.Reordered xs ys) (hxs : ∀ x ∈ xs, x.Plain) {as : List α}
    (has : List.Forall₂ (fun x a => check x = .ok a) xs as) :
    ∃ bs, List.Forall₂ (fun y b => check y = .ok b) ys bs ∧ List.Forall₂ S as bs := by
  induction hitems generalizing as with
  | nil =>
    cases has
    exact ⟨[], .nil, .nil⟩
  | cons hxy _ ih =>
    obtain ⟨hx, hrest⟩ := List.forall_mem_cons.mp hxs
    cases has with
    | cons ha has =>
      obtain ⟨b, hb, hab⟩ := h _ _ _ hx hxy ha
      obtain ⟨bs, hbs, habs⟩ := ih hrest has
      exact ⟨b :: bs, .cons hb hbs, .cons hab habs⟩

theorem unordered_listOf (h : Unordered check S) :
    Unordered (listOf check) (List.Forall₂ S) := by
  intro v w as hv hvw has
  obtain ⟨xs, hxs, hall⟩ := listOf_eq_ok has
  cases v with
  | list xs =>
    cases hxs
    obtain ⟨ys, hitems, rfl⟩ := Value.reordered_list hvw
    obtain ⟨bs, hbs, habs⟩ := unordered_items h hitems hv.of_item hall
    exact ⟨bs, itemsFrom_of_forall₂ hbs, habs⟩
  | tuple | set => cases hv.fit
  | _ => cases hxs

/-! ## Dictionaries -/

/-- Dictionaries that differ in nothing but the order of keys. -/
def SameEntries (cs ds : List (RawText × Value)) : Prop :=
  (Value.mapping (cs.map fun c => (.text c.1, c.2))).Reordered
    (.mapping (ds.map fun d => (.text d.1, d.2)))

/-- A plain mapping is the mapping of its dictionary. -/
theorem exists_dictionary {es : List (Value × Value)} (h : (Value.mapping es).Plain) :
    ∃ cs, dictionary (.mapping es) = .ok cs ∧ es = cs.map fun c => (.text c.1, c.2) := by
  obtain ⟨cs, rfl⟩ : ∃ cs : List (RawText × Value), cs.map (fun c => (.text c.1, c.2)) = es := by
    have hentries := h.of_mem
    clear h
    induction es with
    | nil => exact ⟨[], rfl⟩
    | cons e es ih =>
      obtain ⟨⟨⟨t, ht⟩, -⟩, hes⟩ := List.forall_mem_cons.mp hentries
      obtain ⟨cs, hcs⟩ := ih hes
      exact ⟨(t, e.2) :: cs, by rw [List.map_cons, hcs, ← ht]⟩
  have hkeys := h.distinct.1
  have hmap : ((cs.map fun c => (Value.text c.1, c.2)).map Prod.fst) =
      (cs.map Prod.fst).map Value.text := by
    rw [List.map_map, List.map_map]
    rfl
  rw [hmap] at hkeys
  exact ⟨cs, Entity.entries_components (hkeys.of_map _), rfl⟩

theorem unordered_dictionary : Unordered dictionary SameEntries := by
  intro v w cs hv hvw hcs
  obtain ⟨-, es, rfl, -⟩ := nodup_dictionary hcs
  obtain ⟨fs, gs, entries, order, rfl⟩ := Value.reordered_mapping hvw
  obtain ⟨cs', hcs', rfl⟩ := exists_dictionary hv
  obtain ⟨ds, hds, rfl⟩ := exists_dictionary (hv.of_reordered hvw)
  rw [hcs] at hcs'
  cases hcs'
  exact ⟨ds, hds, hvw⟩

end Schema

/-! ## Checked worlds -/

namespace Entity

theorem reordered_toValues {es fs : List Entity}
    (h : List.Forall₂ (fun e f => e.toValue.Reordered f.toValue) es fs) :
    Value.ReorderedItems (toValues es) (toValues fs) := by
  induction h with
  | nil => exact .nil
  | cons head _ ih => exact .cons head ih

theorem reordered_toValue {name : Option RawText} {enabled : Bool} {cs ds : List (RawText × Value)}
    {children others : List Entity} (hcomponents : Schema.SameEntries cs ds)
    (hchildren : Value.ReorderedItems (toValues children) (toValues others)) :
    (toValue ⟨name, enabled, cs, children⟩).Reordered (toValue ⟨name, enabled, ds, others⟩) :=
  .mapping (.cons (.refl _) (.cons (.refl _) (.cons hcomponents
    (.cons (.list hchildren) .nil)))) (.refl _)

theorem sameEntries_of_alike {cs ds es : List (RawText × Value)}
    (components : List.Forall₂ (fun c d => c.1 = d.1 ∧ Value.Alike c.2 d.2) cs ds)
    (order : ds.Perm es) : Schema.SameEntries cs es := by
  refine .mapping (Value.reorderedEntries_iff.mpr ?_) (order.map _)
  rw [List.forall₂_map_left_iff, List.forall₂_map_right_iff]
  refine components.imp fun c d hcd => ?_
  exact ⟨congrArg Value.text hcd.1, hcd.2.reordered⟩

mutual

theorem Alike.reordered : ∀ {e f : Entity}, Alike e f → e.toValue.Reordered f.toValue
  | _, _, .mk components order forest =>
    reordered_toValue (sameEntries_of_alike components order) forest.reordered

theorem AlikeAll.reordered : ∀ {es fs : List Entity}, AlikeAll es fs →
    Value.ReorderedItems (toValues es) (toValues fs)
  | _, _, .nil => .nil
  | _, _, .cons head tail => .cons head.reordered tail.reordered

end

theorem unordered_check (levels : Nat) :
    Schema.Unordered (check levels) fun e f => e.toValue.Reordered f.toValue := by
  induction levels with
  | zero =>
    intro v w e hv h he
    cases he
  | succ levels ih =>
    intro v w e hv h he
    obtain ⟨es, rfl, -⟩ := check_eq_ok he
    obtain ⟨fs, gs, entries, order, rfl⟩ := Value.reordered_mapping h
    have hlookup := Value.lookup_reordered hv.distinct.1 entries order
    obtain ⟨hname, henabled, hcomponents, hchildren⟩ := check_mapping_eq_ok.mp he
    have htext : Schema.Unordered Schema.text Eq :=
      Schema.unordered_scalar (fun _ _ h => by cases h) fun _ _ h => by cases h
    have hflag : Schema.Unordered Schema.flag Eq :=
      Schema.unordered_scalar (fun _ _ h => by cases h) fun _ _ h => by cases h
    obtain ⟨_, hname, rfl⟩ := Schema.unordered_defaulted (Schema.unordered_optional htext) rfl hv
      "name" (hlookup _) hname
    obtain ⟨_, henabled, rfl⟩ := Schema.unordered_defaulted hflag rfl hv "enabled" (hlookup _)
      henabled
    obtain ⟨ds, hds, hcomponents⟩ := Schema.unordered_defaulted Schema.unordered_dictionary
      (.refl _) hv "components" (hlookup _) hcomponents
    obtain ⟨others, hothers, hchildren⟩ := Schema.unordered_defaulted (Schema.unordered_listOf ih)
      .nil hv "children" (hlookup _) hchildren
    refine ⟨⟨e.name, e.enabled, ds, others⟩,
      check_mapping_eq_ok.mpr ⟨hname, henabled, hds, hothers⟩, ?_⟩
    cases e
    exact reordered_toValue hcomponents (reordered_toValues hchildren)

end Entity

namespace World

/-- **Reordered fields are checked as reordered worlds.** -/
theorem check_of_reordered {v v' : Value} (hv : v.Plain) (h : v.Reordered v') {w : World}
    (hw : check v = .ok w) : ∃ w', check v' = .ok w' ∧ w.Reordered w' := by
  obtain ⟨es, rfl, -⟩ := check_eq_ok hw
  obtain ⟨fs, gs, entries, order, rfl⟩ := Value.reordered_mapping h
  have hlookup := Value.lookup_reordered hv.distinct.1 entries order
  obtain ⟨hcapacity, hentities⟩ := check_mapping_eq_ok.mp hw
  have hinteger : Schema.Unordered
      (fun v => (Schema.integer v).andThen (Schema.atLeast 0)) Eq :=
    Schema.unordered_scalar (fun _ _ h => by cases h) fun _ _ h => by cases h
  obtain ⟨_, hcapacity, rfl⟩ := Schema.unordered_defaulted (Schema.unordered_optional hinteger) rfl
    hv "max_capacity" (hlookup _) hcapacity
  obtain ⟨others, hothers, hforest⟩ := Schema.unordered_defaulted
    (Schema.unordered_listOf (Entity.unordered_check Entity.deepest)) .nil hv "entities" (hlookup _)
    hentities
  refine ⟨⟨w.capacity, others⟩, check_mapping_eq_ok.mpr ⟨hcapacity, hothers⟩, ?_⟩
  exact .mapping (.cons (.refl _) (.cons (.list (Entity.reordered_toValues hforest)) .nil))
    (.refl _)

/-- Worlds that are alike differ in nothing but the order of keys. -/
theorem Alike.reordered {w w' : World} (h : w.Alike w') : w.Reordered w' := by
  obtain ⟨capacity, entities⟩ := w
  obtain ⟨_, others⟩ := w'
  obtain ⟨rfl, hentities⟩ := h
  exact .mapping (.cons (.refl _) (.cons (.list hentities.reordered) .nil)) (.refl _)

end World

/-! ## Payloads -/

namespace Payload

/-- **Reordered worlds have one payload**, or none of them has any. -/
theorem encode_of_reordered {w w' : World} (hw : w.toValue.Distinct) (h : w.Reordered w')
    (b : Text.Bytes) : encode w = .ok b ↔ encode w' = .ok b := by
  have hwrite := Json.write?_of_reordered h hw
  rw [encode_eq_ok, encode_eq_ok, h.fit_iff, h.depth_eq, hwrite]

theorem proper_of_decode {p : Text.Bytes} {w : World} (h : decode p = .ok w) : w.Proper := by
  obtain ⟨_, v, -, hread, hcheck⟩ := decode_eq_ok.mp h
  exact World.proper_of_check (Json.read?_distinct hread) hcheck

/-- **The payload of a world that was decoded is canonical.** Decoding it gives the world, up to the
order of components and of keys, and encoding that gives the payload again. -/
theorem decode_encode_decoded {p q : Text.Bytes} {w : World} (hp : decode p = .ok w)
    (hq : encode w = .ok q) : ∃ w', decode q = .ok w' ∧ w.Alike w' ∧ encode w' = .ok q := by
  have hproper := proper_of_decode hp
  have hsame := encode_of_reordered (World.distinct_toValue hproper) w.alike_arranged.reordered q
  exact ⟨w.arranged, decode_of_encode hproper hq, w.alike_arranged, hsame.mp hq⟩

end Payload

end Assemblage
