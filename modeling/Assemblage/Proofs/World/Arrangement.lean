import Assemblage.Proofs.World.Proper

/-!
# Worlds up to the order of components

`World.Alike` is the equality of worlds that looks at everything but the order of components and of
the entries of mappings in them, and `World.arranged` is the world with all of these sorted by their
keys.

Main statement: the fields of a proper world, sorted, are checked as the arranged world
(`check_arranged`).
-/

namespace Assemblage
set_option autoImplicit false

/-! ## Alike worlds -/

mutual

/-- Equality of entities, the order of components and of keys aside. -/
inductive Entity.Alike : Entity → Entity → Prop where
  | mk {name : Option RawText} {enabled : Bool} {cs ds es : List (RawText × Value)}
    {children others : List Entity}
    (components : List.Forall₂ (fun c d => c.1 = d.1 ∧ Value.Alike c.2 d.2) cs ds)
    (order : ds.Perm es) (forest : Entity.AlikeAll children others) :
    Entity.Alike ⟨name, enabled, cs, children⟩ ⟨name, enabled, es, others⟩

inductive Entity.AlikeAll : List Entity → List Entity → Prop where
  | nil : Entity.AlikeAll [] []
  | cons {e f : Entity} {es fs : List Entity} (head : Entity.Alike e f)
    (tail : Entity.AlikeAll es fs) : Entity.AlikeAll (e :: es) (f :: fs)

end

/-- Equality of worlds, the order of components and of keys aside. -/
structure World.Alike (w w' : World) : Prop where
  capacity : w.capacity = w'.capacity
  entities : Entity.AlikeAll w.entities w'.entities

/-! ## Arranged worlds -/

namespace Entity

def arrangeComponents (cs : List (RawText × Value)) : List (RawText × Value) :=
  (cs.mergeSort fun c d => RawText.le c.1 d.1).map fun c => (c.1, c.2.arranged)

mutual

/-- The entity with its components, and all mappings in them, sorted by their keys. -/
def arranged : Entity → Entity
  | ⟨name, enabled, components, children⟩ =>
    ⟨name, enabled, arrangeComponents components, arrangedAll children⟩

def arrangedAll : List Entity → List Entity
  | [] => []
  | e :: es => arranged e :: arrangedAll es

end

theorem alike_arrangeComponents (cs : List (RawText × Value)) :
    ∃ ds, List.Forall₂ (fun c d : RawText × Value => c.1 = d.1 ∧ Value.Alike c.2 d.2) cs ds ∧
      ds.Perm (arrangeComponents cs) := by
  refine ⟨cs.map fun c => (c.1, c.2.arranged), ?_, ?_⟩
  · rw [List.forall₂_map_right_iff, List.forall₂_same]
    exact fun c _ => ⟨rfl, Value.alike_arranged c.2⟩
  · exact ((List.mergeSort_perm cs _).symm.map _)

mutual

theorem alike_arranged : ∀ e : Entity, Alike e e.arranged
  | ⟨_, _, components, children⟩ => by
    obtain ⟨ds, hds, hperm⟩ := alike_arrangeComponents components
    exact .mk hds hperm (alike_arrangedAll children)

theorem alike_arrangedAll : ∀ es : List Entity, AlikeAll es (arrangedAll es)
  | [] => .nil
  | e :: es => .cons (alike_arranged e) (alike_arrangedAll es)

end

/-! ## The fields of an entity -/

/-- The fields of an entity, under their names. -/
def fields (e : Entity) : List (String × Value) :=
  [("name", (e.name.map Value.text).getD .null), ("enabled", .flag e.enabled),
    ("components", .mapping (e.components.map fun c => (.text c.1, c.2))),
    ("children", .list (toValues e.children))]

theorem toValue_eq (e : Entity) : e.toValue = .record e.fields := by
  cases e
  rfl

theorem nodup_fields (e : Entity) : (e.fields.map Prod.fst).Nodup :=
  show ["name", "enabled", "components", "children"].Nodup by decide

theorem distinct_components {cs : List (RawText × Value)} (hkeys : (cs.map Prod.fst).Nodup)
    (hvalues : ∀ c ∈ cs, c.2.Distinct) :
    (Value.mapping (cs.map fun c => (.text c.1, c.2))).Distinct := by
  refine ⟨?_, Value.distinctEntries_iff.mpr ?_⟩
  · have hnodup := hkeys.map (f := Value.text) fun s t h => Value.text.inj h
    rw [List.map_map] at hnodup ⊢
    exact hnodup
  · intro e he
    obtain ⟨c, hc, rfl⟩ := List.mem_map.mp he
    exact hvalues c hc

mutual

theorem distinct_toValue : ∀ e : Entity, e.Proper → e.toValue.Distinct
  | ⟨name, enabled, components, children⟩, ⟨hkeys, hvalues, hchildren⟩ => by
    refine ⟨Value.nodup_record (nodup_fields ⟨name, enabled, components, children⟩), ?_, trivial,
      distinct_components hkeys hvalues, distinct_toValues children hchildren, trivial⟩
    cases name <;> trivial

theorem distinct_toValues : ∀ es : List Entity, ProperAll es → Value.DistinctItems (toValues es)
  | [], _ => trivial
  | e :: es, ⟨he, hes⟩ => ⟨distinct_toValue e he, distinct_toValues es hes⟩

end

theorem depth_toValue (e : Entity) :
    Value.depthItems (toValues e.children) + 2 ≤ e.toValue.depth := by
  obtain ⟨name, enabled, components, children⟩ := e
  simp only [toValue, Value.record, List.map_cons, List.map_nil, Value.depth, Value.depthEntries]
  omega

/-! ## Checking the sorted fields -/

theorem under_ok {α : Type} (step : Step) (a : α) :
    (Checked.ok a).under step = Checked.ok a :=
  rfl

theorem defaulted_arranged {α : Type} {fields : List (String × Value)}
    (h : (fields.map Prod.fst).Nodup) (name : String) {v : Value} (hv : fields.lookup name = some v)
    {check : Value → Checked α} {a : α} (hcheck : check v.arranged = .ok a) (default : α) :
    Schema.defaulted (Value.arrange (Value.arrangedEntries
      (fields.map fun field => (Value.ofString field.1, field.2)))) name default check = .ok a := by
  rw [Schema.defaulted, Value.lookup_arranged_record h, hv, Option.map_some]
  simp only [hcheck, under_ok]

theorem arranged_name (name : Option RawText) :
    Schema.optional Schema.text ((name.map Value.text).getD .null).arranged = .ok name := by
  cases name <;> rfl

theorem entries_components {cs : List (RawText × Value)} (h : (cs.map Prod.fst).Nodup) :
    Schema.dictionary.entries (cs.map fun c => (.text c.1, c.2)) = .ok cs := by
  induction cs with
  | nil => rfl
  | cons c cs ih =>
    obtain ⟨hnew, hrest⟩ := List.nodup_cons.mp h
    rw [List.map_cons, Schema.dictionary.entries, ih hrest]
    show Checked.ok (Schema.inFront c.1 c.2 cs) = _
    rw [Schema.inFront_new hnew]

theorem arranged_components (cs : List (RawText × Value)) :
    (Value.mapping (cs.map fun c => (.text c.1, c.2))).arranged =
      .mapping ((arrangeComponents cs).map fun c => (.text c.1, c.2)) := by
  have hsorted : Value.arrange (cs.map fun c => (Value.text c.1, c.2.arranged)) =
      (cs.mergeSort fun c d => RawText.le c.1 d.1).map fun c => (.text c.1, c.2.arranged) := by
    unfold Value.arrange
    rw [List.map_mergeSort]
    exact fun _ _ _ _ => rfl
  rw [Value.arranged, Value.arrangedEntries_eq_map, List.map_map, arrangeComponents, List.map_map]
  exact congrArg Value.mapping hsorted

theorem dictionary_arranged {cs : List (RawText × Value)} (h : (cs.map Prod.fst).Nodup) :
    Schema.dictionary (Value.mapping (cs.map fun c => (.text c.1, c.2))).arranged =
      .ok (arrangeComponents cs) := by
  have hperm : ((arrangeComponents cs).map Prod.fst).Perm (cs.map Prod.fst) := by
    rw [arrangeComponents, List.map_map]
    exact (List.mergeSort_perm cs _).map Prod.fst
  rw [arranged_components, Schema.dictionary]
  exact entries_components (hperm.nodup_iff.mpr h)

mutual

theorem check_arranged : ∀ (e : Entity) (levels : Nat), e.Proper →
    e.toValue.depth ≤ 2 * levels → check levels e.toValue.arranged = .ok e.arranged
  | ⟨name, enabled, components, children⟩, levels, ⟨hkeys, hvalues, hchildren⟩, hdepth => by
    have hroom := depth_toValue ⟨name, enabled, components, children⟩
    obtain ⟨levels, rfl⟩ : ∃ less, levels = less + 1 := ⟨levels - 1, by omega⟩
    have hforest := checkAll_arranged children levels 0 hchildren (by simp only at hroom; omega)
    have hfields := nodup_fields ⟨name, enabled, components, children⟩
    have hname := defaulted_arranged hfields "name" rfl (arranged_name name) none
    have henabled := defaulted_arranged hfields "enabled" rfl
      (show Schema.flag (Value.flag enabled).arranged = .ok enabled from rfl) true
    have hcomponents := defaulted_arranged hfields "components" rfl (dictionary_arranged hkeys) []
    have hlist : Schema.listOf (check levels) (Value.list (toValues children)).arranged =
        .ok (arrangedAll children) := hforest
    have hforests := defaulted_arranged hfields "children" rfl hlist []
    rw [toValue_eq, Value.record, Value.arranged, check, Schema.record, hname, henabled,
      hcomponents, hforests]
    rfl

theorem checkAll_arranged : ∀ (es : List Entity) (levels start : Nat), ProperAll es →
    Value.depthItems (toValues es) ≤ 2 * levels →
    Schema.itemsFrom (check levels) start (Value.arrangedItems (toValues es)) =
      .ok (arrangedAll es)
  | [], _, _, _, _ => rfl
  | e :: es, levels, start, ⟨he, hes⟩, hdepth => by
    have hhead := check_arranged e levels he (Nat.le_trans (Nat.le_max_left _ _) hdepth)
    have htail := checkAll_arranged es levels (start + 1) hes
      (Nat.le_trans (Nat.le_max_right _ _) hdepth)
    simp only [toValues, Value.arrangedItems, Schema.itemsFrom, hhead, htail]
    rfl

end

end Entity

/-! ## Worlds -/

namespace World

/-- The world with all components, and all mappings in them, sorted by their keys. -/
def arranged (w : World) : World := ⟨w.capacity, Entity.arrangedAll w.entities⟩

theorem alike_arranged (w : World) : w.Alike w.arranged :=
  ⟨rfl, Entity.alike_arrangedAll w.entities⟩

/-- The fields of a world, under their names. -/
def fields (w : World) : List (String × Value) :=
  [("max_capacity", (w.capacity.map Value.integer).getD .null),
    ("entities", .list (Entity.toValues w.entities))]

theorem nodup_fields (w : World) : (w.fields.map Prod.fst).Nodup :=
  show ["max_capacity", "entities"].Nodup by decide

theorem distinct_toValue {w : World} (h : w.Proper) : w.toValue.Distinct := by
  refine ⟨Value.nodup_record w.nodup_fields, ?_, Entity.distinct_toValues w.entities h.entities,
    trivial⟩
  cases w.capacity <;> trivial

theorem depth_toValue (w : World) :
    Value.depthItems (Entity.toValues w.entities) + 2 ≤ w.toValue.depth := by
  simp only [toValue, Value.record, List.map_cons, List.map_nil, Value.depth, Value.depthEntries]
  omega

theorem arranged_capacity {capacity : Option Int} (h : ∀ n ∈ capacity, 0 ≤ n) :
    Schema.optional (fun v => (Schema.integer v).andThen (Schema.atLeast 0))
      ((capacity.map Value.integer).getD .null).arranged = .ok capacity := by
  cases capacity with
  | none => rfl
  | some n =>
    show (some <$> Schema.atLeast 0 n : Checked (Option Int)) = .ok (some n)
    rw [Schema.atLeast, if_pos (h n rfl)]
    rfl

/-- **The sorted fields of a proper world are checked as the arranged world.** -/
theorem check_arranged {w : World} (h : w.Proper)
    (hdepth : w.toValue.depth ≤ 2 * Entity.deepest + 2) :
    check w.toValue.arranged = .ok w.arranged := by
  have hroom := w.depth_toValue
  have hcapacity := Entity.defaulted_arranged w.nodup_fields "max_capacity" rfl
    (arranged_capacity h.capacity) none
  have hlist : Schema.listOf (Entity.check Entity.deepest)
      (Value.list (Entity.toValues w.entities)).arranged = .ok (Entity.arrangedAll w.entities) :=
    Entity.checkAll_arranged w.entities Entity.deepest 0 h.entities (by omega)
  have hentities := Entity.defaulted_arranged w.nodup_fields "entities" rfl hlist []
  have hvalue : w.toValue = .record w.fields := rfl
  rw [hvalue, Value.record, Value.arranged, check, Schema.record, hcapacity, hentities]
  rfl

end World

end Assemblage
