import Assemblage.Proofs.World.Dump
import Assemblage.Proofs.World.Scene
import Assemblage.Proofs.Yaml.Writer

/-!
# Worlds without their defaults

The text of a world holds only the fields that differ from their defaults. A field that is left out
is checked as its default, so that nothing is lost on any level of the entities
(`Entity.check_short`, `World.check_short`); the values of components are written in full, also
where they look like defaults. What is lost are halves of surrogate pairs in the names of
components, and a half in a key further inside leaves no text at all.

Main statement: the bytes of a text are read back as the world with the names as they could be
written, if the text is loaded as what was dumped (`Scene.readBytes_write`). A name of half a
surrogate pair does not come back (`Scene.readBytes_write_half`).
-/

namespace Assemblage
set_option autoImplicit false

/-! ## Fields that may be left out -/

/-- The fields that have a value. -/
def present (fields : List (String × Option Value)) : List (String × Value) :=
  fields.filterMap fun field => field.2.map fun v => (field.1, v)

theorem lookup_present {fields : List (String × Option Value)}
    (h : (fields.map Prod.fst).Nodup) (key : String) :
    (present fields).lookup key = (fields.lookup key).join := by
  induction fields with
  | nil => rfl
  | cons field fields ih =>
    obtain ⟨name, v⟩ := field
    obtain ⟨hnew, hrest⟩ := List.nodup_cons.mp h
    have hcons : present ((name, v) :: fields) =
        (v.map fun u => (name, u)).toList ++ present fields := by
      cases v <;> rfl
    rw [hcons, List.lookup_append, ih hrest, List.lookup_cons]
    by_cases hkey : key = name
    · have hnone : fields.lookup key = none := by
        rw [List.lookup_eq_none_iff]
        intro field hfield
        rw [bne_iff_ne, hkey]
        intro hname
        exact hnew (List.mem_map.mpr ⟨field, hfield, hname.symm⟩)
      rw [hnone, hkey, beq_self_eq_true]
      cases v <;> simp
    · rw [beq_eq_false_iff_ne.mpr hkey]
      have habsent : (v.map fun u => (name, u)).toList.lookup key = none := by
        cases v <;> simp [List.lookup_cons, beq_eq_false_iff_ne.mpr hkey]
      rw [habsent, Option.none_or]

/-- A field of a record that leaves out defaults: its value passes, or its default is expected. -/
theorem Schema.defaulted_present {α : Type} {fields : List (String × Option Value)}
    (hnames : (fields.map Prod.fst).Nodup) {name : String} {v : Option Value}
    (hv : fields.lookup name = some v) {check : Value → Checked α} {default a : α}
    (h : v.elim (default = a) fun u => check u = .ok a) :
    defaulted ((present fields).map fun field => (Value.ofString field.1, field.2)) name default
      check = .ok a := by
  rw [defaulted, Value.lookup_record, lookup_present hnames, hv, Option.join_some]
  cases v with
  | none => exact congrArg Checked.ok h
  | some u => exact Checked.under_eq_ok.mpr h

theorem fit_present {fields : List (String × Option Value)}
    (h : ∀ field ∈ fields, ∀ v, field.2 = some v → v.offender? = none) :
    ∀ field ∈ present fields, field.2.offender? = none := by
  intro field hfield
  obtain ⟨⟨name, v⟩, hmem, hv⟩ := List.mem_filterMap.mp hfield
  obtain ⟨u, hu, rfl⟩ := Option.map_eq_some_iff.mp hv
  exact h _ hmem u hu

/-! ## Short entities -/

namespace Entity

/-- The fields of an entity, under their names; those that hold their defaults have no value. -/
def shortFields (e : Entity) (children : List Value) : List (String × Option Value) :=
  [("name", e.name.map Value.text), ("enabled", if e.enabled then none else some (.flag false)),
    ("components", if e.components.isEmpty then none
      else some (.mapping (e.components.map fun c => (.text c.1, c.2)))),
    ("children", if children.isEmpty then none else some (.list children))]

/-- An entity is checked from the fields that differ from their defaults. -/
theorem check_short {e : Entity} {n : Nat} {children : List Value}
    (hkeys : (e.components.map Prod.fst).Nodup)
    (hchildren : Schema.itemsFrom (check n) 0 children = .ok e.children) :
    check (n + 1) (.record (present (e.shortFields children))) = .ok e := by
  obtain ⟨name, enabled, components, checked⟩ := e
  have hnames : ((shortFields ⟨name, enabled, components, checked⟩ children).map Prod.fst).Nodup :=
    show ["name", "enabled", "components", "children"].Nodup by decide
  have hdictionary : Schema.dictionary (.mapping (components.map fun c => (.text c.1, c.2))) =
      .ok components := entries_components hkeys
  have hlist : Schema.listOf (check n) (.list children) = .ok checked := hchildren
  refine check_mapping_eq_ok.mpr ⟨?_, ?_, ?_, ?_⟩
  · exact Schema.defaulted_present hnames rfl (by cases name <;> rfl)
  · exact Schema.defaulted_present hnames rfl (by cases enabled <;> rfl)
  · refine Schema.defaulted_present hnames rfl ?_
    cases components with
    | nil => rfl
    | cons c cs => exact hdictionary
  · refine Schema.defaulted_present hnames rfl ?_
    cases children with
    | nil => exact Checked.ok.inj hlist
    | cons x xs => exact hlist

theorem fit_short {e : Entity} {children : List Value}
    (hcomponents : ∀ c ∈ e.components, c.2.offender? = none)
    (hchildren : ∀ x ∈ children, x.offender? = none) :
    (Value.record (present (e.shortFields children))).offender? = none := by
  have hmapping := offender?_components.mpr hcomponents
  have hlist : (Value.list children).offender? = none :=
    Value.itemOffender?_eq_none.mpr hchildren
  rw [Value.offender?_record]
  refine fit_present ?_
  simp only [shortFields, List.forall_mem_cons]
  refine ⟨?_, ?_, ?_, ?_, by simp⟩
  · cases e.name <;> simp [Value.offender?]
  · cases e.enabled <;> simp [Value.offender?]
  · split <;> simp [hmapping]
  · split <;> simp [hlist]

/-- The components and the children of an entity are fit if its fields are. -/
theorem fit_of_toValue {e : Entity} (h : e.toValue.offender? = none) :
    (∀ c ∈ e.components, c.2.offender? = none) ∧ ∀ x ∈ toValues e.children, x.offender? = none := by
  rw [toValue_eq, Value.offender?_record] at h
  simp only [fields, List.forall_mem_cons] at h
  obtain ⟨-, -, hcomponents, hchildren, -⟩ := h
  exact ⟨offender?_components.mp hcomponents, Value.itemOffender?_eq_none.mp hchildren⟩

/-! ## Dumped entities -/

theorem yields_plainComponents (n : Nat) {cs : List (RawText × Value)}
    (hfit : ∀ c ∈ cs, c.2.offender? = none) (hdistinct : ∀ c ∈ cs, c.2.Distinct) :
    Yields (· = cs.map fun c => (Value.text c.1.lossy, c.2)) (∀ c ∈ cs, c.2.WholeKeys)
      (plainComponents n cs) := by
  induction cs with
  | nil => exact .ok rfl (by simp)
  | cons c cs ih =>
    obtain ⟨hfirst, hrest⟩ := List.forall_mem_cons.mp hfit
    obtain ⟨hc, hcs⟩ := List.forall_mem_cons.mp hdistinct
    rw [plainComponents, List.forall_mem_cons]
    refine (Value.yields_plain c.2 n hfirst hc).bind ?_
    intro v hv
    rw [bind_pure_comp, hv]
    exact (ih hrest hcs).map fun _ => congrArg (_ :: ·)

/-- What is dumped of the components and the children of an entity are the fields of the entity with
the names as they can be written. -/
theorem record_eq (e : Entity) (children : List Value) :
    (let components := e.components.map fun c => (Value.text c.1.lossy, c.2)
    Value.record
      ((e.name.map fun t => ("name", Value.text t)).toList ++
        (if e.enabled then [] else [("enabled", Value.flag false)]) ++
        (if components.isEmpty then [] else [("components", .ofEntries components)]) ++
        (if children.isEmpty then [] else [("children", .list children)]))) =
      .record (present (e.lossy.shortFields children)) := by
  obtain ⟨name, enabled, components, _⟩ := e
  have hempty := isEmpty_lossyComponents components
  simp only [lossy, shortFields, ofEntries_lossy, hempty, List.isEmpty_map]
  cases name <;> cases enabled <;> cases components.isEmpty <;> cases children.isEmpty <;> rfl

mutual

/-- **The dump of an entity is checked as the entity** with the names as they can be written. -/
theorem yields_dump : ∀ (e : Entity) (n : Nat), e.toValue.offender? = none → e.Proper →
    Yields (fun v => check n v = .ok e.lossy ∧ v.offender? = none) e.WholeInside (dump n e)
  | e, 0, _, _ => by
    rw [dump]
    exact .nesting
  | ⟨name, enabled, components, children⟩, n + 1, hfit, ⟨_, hdistinct, hchildren⟩ => by
    obtain ⟨hcomponents, hforest⟩ := fit_of_toValue hfit
    rw [dump]
    refine (yields_plainComponents n hcomponents hdistinct).bind ?_
    rintro _ rfl
    rw [bind_pure_comp]
    refine (yields_dumpAll children n hforest hchildren).map ?_
    rintro xs ⟨hcheck, hxs⟩
    rw [record_eq ⟨name, enabled, components, children⟩ xs]
    refine ⟨check_short (nodup_lossyComponents components) (hcheck 0), fit_short ?_ hxs⟩
    intro c hc
    obtain ⟨d, hd, hv⟩ := mem_lossyComponents c hc
    exact hv ▸ hcomponents d hd

theorem yields_dumpAll : ∀ (es : List Entity) (n : Nat), (∀ x ∈ toValues es, x.offender? = none) →
    ProperAll es → Yields (fun xs => (∀ start, Schema.itemsFrom (check n) start xs =
      .ok (lossyAll es)) ∧ ∀ x ∈ xs, x.offender? = none) (WholeInsideAll es) (dumpAll n es)
  | [], _, _, _ => .ok ⟨fun _ => rfl, by simp⟩ trivial
  | e :: es, n, hfit, ⟨he, hes⟩ => by
    obtain ⟨hfirst, hrest⟩ := List.forall_mem_cons.mp hfit
    rw [dumpAll]
    refine (yields_dump e n hfirst he).bind ?_
    rintro x ⟨hx, hxfit⟩
    rw [bind_pure_comp]
    refine (yields_dumpAll es n hrest hes).map ?_
    rintro xs ⟨hxs, hxsfit⟩
    refine ⟨fun start => ?_, List.forall_mem_cons.mpr ⟨hxfit, hxsfit⟩⟩
    rw [Schema.itemsFrom, hx, hxs]
    rfl

end

end Entity

/-! ## Short worlds -/

namespace World

/-- The fields of a world, under their names; those that hold their defaults have no value. -/
def shortFields (capacity : Option Int) (entities : List Value) : List (String × Option Value) :=
  [("max_capacity", capacity.map Value.integer),
    ("entities", if entities.isEmpty then none else some (.list entities))]

theorem fit_of_toValue {w : World} (h : w.toValue.offender? = none) :
    (∀ n ∈ w.capacity, (Value.integer n).offender? = none) ∧
      ∀ x ∈ Entity.toValues w.entities, x.offender? = none := by
  rw [toValue, Value.offender?_record] at h
  simp only [List.forall_mem_cons] at h
  obtain ⟨hcapacity, hentities, -⟩ := h
  refine ⟨?_, Value.itemOffender?_eq_none.mp hentities⟩
  rintro n hn
  rw [hn] at hcapacity
  exact hcapacity

theorem fit_short {capacity : Option Int} {entities : List Value}
    (hcapacity : ∀ n ∈ capacity, (Value.integer n).offender? = none)
    (hentities : ∀ x ∈ entities, x.offender? = none) :
    (Value.record (present (shortFields capacity entities))).offender? = none := by
  have hlist : (Value.list entities).offender? = none :=
    Value.itemOffender?_eq_none.mpr hentities
  rw [Value.offender?_record]
  refine fit_present ?_
  simp only [shortFields, List.forall_mem_cons]
  refine ⟨?_, ?_, by simp⟩
  · intro v hv
    obtain ⟨n, hn, rfl⟩ := Option.map_eq_some_iff.mp hv
    exact hcapacity n hn
  · split <;> simp [hlist]

/-- A world is checked from the fields that differ from their defaults. -/
theorem check_short {w : World} (hcapacity : ∀ n ∈ w.capacity, 0 ≤ n) {entities : List Value}
    (hentities : Schema.itemsFrom (Entity.check Entity.deepest) 0 entities = .ok w.entities) :
    check (.record (present (shortFields w.capacity entities))) = .ok w := by
  obtain ⟨capacity, checked⟩ := w
  have hlist : Schema.listOf (Entity.check Entity.deepest) (.list entities) = .ok checked :=
    hentities
  have hnames : ((shortFields capacity entities).map Prod.fst).Nodup :=
    show ["max_capacity", "entities"].Nodup by decide
  refine check_mapping_eq_ok.mpr ⟨?_, ?_⟩
  · refine Schema.defaulted_present hnames rfl ?_
    cases capacity with
    | none => rfl
    | some n => exact arranged_capacity hcapacity
  · refine Schema.defaulted_present hnames rfl ?_
    cases entities with
    | nil => exact Checked.ok.inj hlist
    | cons x xs => exact hlist

/-- **The dump of a world is checked as the world** with the names as they can be written. -/
theorem yields_dump {w : World} (hw : w.Proper) (hfit : w.toValue.offender? = none) :
    Yields (fun d => ∃ entities, d = .record (present (shortFields w.capacity entities)) ∧
      check d = .ok w.lossy ∧ d.offender? = none) w.WholeInside w.dump := by
  obtain ⟨hcapacity, hentities⟩ := fit_of_toValue hfit
  rw [dump, bind_pure_comp]
  refine (Entity.yields_dumpAll w.entities _ hentities hw.entities).map ?_
  rintro xs ⟨hcheck, hxs⟩
  have hrecord : (w.capacity.map fun n => ("max_capacity", Value.integer n)).toList ++
      (if xs.isEmpty then [] else [("entities", .list xs)]) =
        present (shortFields w.capacity xs) := by
    unfold shortFields
    cases w.capacity <;> cases xs.isEmpty <;> rfl
  rw [hrecord]
  exact ⟨xs, rfl, check_short (w := w.lossy) hw.capacity (hcheck 0), fit_short hcapacity hxs⟩

end World

/-! ## Scenes -/

namespace Scene

/-- The text of a world starts with a brace or with the name of a field. -/
theorem head?_write (capacity : Option Int) (entities : List Value) :
    ∃ c ∈ ['\x7b', 'm', 'e'],
      (Yaml.write (.record (present (World.shortFields capacity entities)))).head? = some c := by
  let first (name : String) : Option Char :=
    (Yaml.Writer.key (Yaml.Pen.start.toColumn 0) 0 (.ofString name)).written.getLast?
  have hcapacity : first "max_capacity" = some 'm' := by decide +kernel
  have hentities : first "entities" = some 'e' := by decide +kernel
  cases capacity with
  | some n => exact ⟨'m', by simp, Yaml.head?_write_mapping hcapacity⟩
  | none =>
    cases entities with
    | nil => exact ⟨'\x7b', by simp, Yaml.head?_write_empty⟩
    | cons e es => exact ⟨'e', by simp, Yaml.head?_write_mapping hentities⟩

section
variable [Stack]

theorem read_write {d : Value} {w : World} (hcheck : World.check d = .ok w)
    (hfit : d.offender? = none) (hroom : d.depth < Stack.values)
    (hload : Yaml.load (Yaml.write d) = .ok d) : read (Yaml.write d) = .ok w := by
  obtain ⟨es, rfl, -⟩ := World.check_eq_ok hcheck
  rw [read, hload]
  show checkFields es = _
  rw [checkFields, Value.found?_of_depth hroom, hfit]
  simp only [hcheck]
  rfl

theorem readBytes_of_check {d : Value} {capacity : Option Int} {entities : List Value}
    (hd : d = .record (present (World.shortFields capacity entities))) {w : World}
    (hcheck : World.check d = .ok w) (hfit : d.offender? = none) (hroom : d.depth < Stack.values)
    (hload : Yaml.load (Yaml.write d) = .ok d) :
    readBytes (Text.encodeUtf8 (Yaml.write d)) = .ok w := by
  obtain ⟨c, hc, hhead⟩ := head?_write capacity entities
  have hmark : (Yaml.write d).head? ≠ some '\ufeff' := by
    rw [hd, hhead]
    rintro ⟨⟩
    revert hc
    decide
  rw [readBytes, Text.dropMark_encodeUtf8 hmark, Text.decodeUtf8_encodeUtf8]
  exact read_write hcheck hfit hroom hload

/-- **What is read back from the text of a world.** Take a world whose values a payload can carry,
not too deep to be dumped, and whose dump, if there is one, is loaded from its text. There is a text
exactly if every key inside the components is whole. The bytes of the text are read as the world
with the names of components as they could be written, whatever the tree of its entities, and this
is the world itself exactly if every name is whole. -/
theorem readBytes_write {w : World} (hw : w.Proper) (hfit : w.toValue.offender? = none)
    (hnesting : w.dump ≠ .error .nesting)
    (hload : ∀ d, w.dump = .ok d →
      d.depth < Stack.values ∧ Yaml.load (Yaml.write d) = .ok d) :
    (w.WholeInside → ∃ s, write w = .ok s ∧ readBytes (Text.encodeUtf8 s) = .ok w.lossy) ∧
      (¬w.WholeInside → write w = .error .halfKey) ∧
      (w.lossy = w ↔ w.WholeNames) := by
  have hyields := World.yields_dump hw hfit
  unfold write
  generalize w.dump = dumped at hyields hnesting hload ⊢
  refine ⟨?_, ?_, World.lossy_eq_iff hw⟩
  · intro hwhole
    cases hyields with
    | nesting => exact absurd rfl hnesting
    | halfKey hbroken => exact absurd hwhole hbroken
    | @ok d hpost =>
      obtain ⟨entities, hd, hcheck, hfit⟩ := hpost
      obtain ⟨hroom, hloaded⟩ := hload d rfl
      exact ⟨_, rfl, readBytes_of_check hd hcheck hfit hroom hloaded⟩
  · intro hbroken
    cases hyields with
    | nesting => exact absurd rfl hnesting
    | halfKey => rfl
    | ok _ hwhole => exact absurd hwhole hbroken

end

/-! ## Nothing but defaults -/

theorem load_nothing {s : List Char}
    (h : Yaml.tokens s = .ok [.flowMappingStart, .flowMappingEnd]) :
    Yaml.load s = .ok (.record []) := by
  rw [Yaml.load, h]
  exact congrArg (Except.mapError Prod.snd) (@Yaml.Content.build_record _ 0 0 [] []
    List.nodup_nil .nil)

open Yaml.Content in
/-- A scene of one entity with three components and a child that has no fields. -/
theorem load_defaults {s : List Char} (h : Yaml.tokens s = .ok
      [.blockMappingStart, .key, .scalar (RawText.ofString "entities") true, .value, .blockEntry,
        .blockMappingStart, .key, .scalar (RawText.ofString "components") true, .value,
        .blockMappingStart, .key, .scalar (RawText.ofString "a") true, .value, .flowMappingStart,
        .flowMappingEnd, .key, .scalar (RawText.ofString "b") true, .value,
        .scalar (RawText.ofString "null") true, .key, .scalar (RawText.ofString "c") true, .value,
        .scalar (RawText.ofString "true") true, .blockEnd, .key,
        .scalar (RawText.ofString "children") true, .value, .blockEntry, .flowMappingStart,
        .flowMappingEnd, .blockEnd, .blockEnd]) :
    Yaml.load s = .ok (.record [("entities", .list
      [.record [("components", .record [("a", .record []), ("b", .null), ("c", .flag true)]),
        ("children", .list [.record []])]])]) := by
  let nothing : Yaml.Node := .mapping .mapping []
  let components : Yaml.Node := .mapping .mapping
    [(.scalar .text (RawText.ofString "a"), nothing),
      (.scalar .text (RawText.ofString "b"), .scalar .null (RawText.ofString "null")),
      (.scalar .text (RawText.ofString "c"), .scalar .flag (RawText.ofString "true"))]
  let children : Yaml.Node := .sequence .sequence [nothing]
  let entity : Yaml.Node := .mapping .mapping
    [(.scalar .text (RawText.ofString "components"), components),
      (.scalar .text (RawText.ofString "children"), children)]
  let entities : Yaml.Node := .sequence .sequence [entity]
  have hnothing : ∀ level fuel, build level nothing (fuel + 2) = .ok (.record []) :=
    fun level fuel => @build_record _ level fuel [] [] List.nodup_nil .nil
  have hcomponents : build 3 components 13 =
      .ok (.record [("a", .record []), ("b", .null), ("c", .flag true)]) :=
    @build_record _ 3 11 [("a", nothing), ("b", .scalar .null (RawText.ofString "null")),
      ("c", .scalar .flag (RawText.ofString "true"))] _ (by decide)
      (.cons ⟨rfl, hnothing 4 10⟩ (.cons ⟨rfl, rfl⟩ (.cons ⟨rfl, rfl⟩ .nil)))
  have hchildren : build 3 children 13 = .ok (.list [.record []]) := by
    rw [build_sequence, List.map_singleton, hnothing 4 10]
    rfl
  have hentity : build 2 entity 14 = .ok (.record
      [("components", .record [("a", .record []), ("b", .null), ("c", .flag true)]),
        ("children", .list [.record []])]) :=
    @build_record _ 2 12 [("components", components), ("children", children)] _ (by decide)
      (.cons ⟨rfl, hcomponents⟩ (.cons ⟨rfl, hchildren⟩ .nil))
  have hentities : build 1 entities 15 = .ok (.list [.record
      [("components", .record [("a", .record []), ("b", .null), ("c", .flag true)]),
        ("children", .list [.record []])]]) := by
    rw [build_sequence, List.map_singleton, hentity]
    rfl
  rw [Yaml.load, h]
  exact congrArg (Except.mapError Prod.snd) (@build_record _ 0 14 [("entities", entities)]
    [("entities", _)] (List.nodup_singleton _) (.cons ⟨rfl, hentities⟩ .nil))

/-- The empty world, and an entity whose components look like defaults, with a child that has
nothing else. -/
theorem readBytes_write_defaults :
    let w : World := ⟨none,
      [⟨none, true,
        [(RawText.ofString "a", .mapping []), (RawText.ofString "b", .null),
          (RawText.ofString "c", .flag true)],
        [⟨none, true, [], []⟩]⟩]⟩
    let d : Value := .record [("entities", .list
      [.record [("components", .record [("a", .record []), ("b", .null), ("c", .flag true)]),
        ("children", .list [.record []])]])]
    let text := "entities:\n- components:\n    a: \x7b\x7d\n    b: null\n    c: true\n" ++
      "  children:\n  - \x7b\x7d\n"
    (write .empty = .ok "\x7b\x7d\n".toList ∧
      readBytes (Text.encodeUtf8 "\x7b\x7d\n".toList) = .ok .empty) ∧
      w.Proper ∧ w.toValue.offender? = none ∧ w.dump = .ok d ∧ d.depth < Stack.values ∧
      Yaml.load (Yaml.write d) = .ok d ∧ write w = .ok text.toList ∧
      readBytes (Text.encodeUtf8 text.toList) = .ok w := by
  intro w d text
  constructor
  · have hdump : World.empty.dump = .ok (.record []) := rfl
    have hwrite : Yaml.write (.record []) = "\x7b\x7d\n".toList := by decide +kernel
    have hload : Yaml.load (Yaml.write (.record [])) = .ok (.record []) :=
      load_nothing (by decide +kernel)
    have hroom : (Value.record []).depth < Stack.values := by decide
    obtain ⟨hread, -, hlossy⟩ := readBytes_write (w := .empty) ⟨by simp [World.empty], trivial⟩ rfl
      (by simp [hdump]) fun d hd => by
        cases hdump.symm.trans hd
        exact ⟨hroom, hload⟩
    obtain ⟨s, hs, hread⟩ := hread trivial
    rw [write, hdump, Except.map, hwrite] at hs
    cases hs
    refine ⟨by rw [write, hdump, Except.map, hwrite], ?_⟩
    rw [hread, hlossy.mpr trivial]
  have hproper : w.Proper := by
    refine ⟨by simp [w], ⟨by decide, ?_, ⟨by simp, by simp, trivial⟩, trivial⟩, trivial⟩
    simp only [List.forall_mem_cons]
    exact ⟨⟨List.nodup_nil, trivial⟩, trivial, trivial, by simp⟩
  have hfit : w.toValue.offender? = none :=
    Option.isNone_iff_eq_none.mp (by decide +kernel)
  have hdump : w.dump = .ok d := by with_unfolding_all rfl
  have hroom : d.depth < Stack.values := by decide
  have hload : Yaml.load (Yaml.write d) = .ok d := load_defaults (by decide +kernel)
  have hwrite : write w = .ok text.toList := by decide +kernel
  obtain ⟨hread, -, hlossy⟩ := readBytes_write hproper hfit (by simp [hdump]) fun d' hd' => by
    cases hdump.symm.trans hd'
    exact ⟨hroom, hload⟩
  have hinside : w.WholeInside := by
    refine ⟨⟨?_, ⟨by simp, trivial⟩, trivial⟩, trivial⟩
    simp only [List.forall_mem_cons]
    exact ⟨trivial, trivial, trivial, by simp⟩
  have hnames : w.WholeNames := ⟨⟨by decide, ⟨by simp, trivial⟩, trivial⟩, trivial⟩
  obtain ⟨s, hs, hread⟩ := hread hinside
  cases hwrite.symm.trans hs
  rw [hlossy.mpr hnames] at hread
  exact ⟨hproper, hfit, hdump, hroom, hload, hwrite, hread⟩

open Yaml.Content in
/-- A component with a name of half a surrogate pair: a payload can carry its value, and the dump
is loaded as it was written, but what is read is another world. -/
theorem readBytes_write_half :
    let w (name : RawText) : World := ⟨none, [⟨none, true, [(name, .integer 1)], []⟩]⟩
    let d : Value := .record [("entities", .list
      [.record [("components", .record [("\ufffd\ufffd\ufffd", .integer 1)])]])]
    let text := "entities:\n- components:\n    \"\\uFFFD\\uFFFD\\uFFFD\": 1\n"
    (w [.half 0]).Proper ∧ (w [.half 0]).toValue.offender? = none ∧ (w [.half 0]).dump = .ok d ∧
      Yaml.load (Yaml.write d) = .ok d ∧ write (w [.half 0]) = .ok text.toList ∧
      readBytes (Text.encodeUtf8 text.toList) = .ok (w (RawText.ofString "\ufffd\ufffd\ufffd")) ∧
      w (RawText.ofString "\ufffd\ufffd\ufffd") ≠ w [.half 0] := by
  intro w d text
  have hproper : (w [.half 0]).Proper :=
    ⟨by simp [w], ⟨by decide, by simp [Value.Distinct], trivial⟩, trivial⟩
  have hfit : (w [.half 0]).toValue.offender? = none :=
    Option.isNone_iff_eq_none.mp (by decide +kernel)
  have hdump : (w [.half 0]).dump = .ok d := rfl
  have hwrite : Yaml.write d = text.toList := by decide +kernel
  have htokens : Yaml.tokens text.toList = .ok
      [.blockMappingStart, .key, .scalar (RawText.ofString "entities") true, .value, .blockEntry,
        .blockMappingStart, .key, .scalar (RawText.ofString "components") true, .value,
        .blockMappingStart, .key, .scalar (RawText.ofString "\ufffd\ufffd\ufffd") false, .value,
        .scalar (RawText.ofString "1") true, .blockEnd, .blockEnd, .blockEnd] := by
    decide +kernel
  have hload : Yaml.load text.toList = .ok d := by
    let components : Yaml.Node := .mapping .mapping
      [(.scalar .text (RawText.ofString "\ufffd\ufffd\ufffd"),
        .scalar .integer (RawText.ofString "1"))]
    let entity : Yaml.Node := .mapping .mapping
      [(.scalar .text (RawText.ofString "components"), components)]
    let entities : Yaml.Node := .sequence .sequence [entity]
    have hcomponents : build 3 components 6 =
        .ok (.record [("\ufffd\ufffd\ufffd", .integer 1)]) :=
      @build_record _ 3 4 [("\ufffd\ufffd\ufffd", .scalar .integer (RawText.ofString "1"))] _
        (List.nodup_singleton _) (.cons ⟨rfl, rfl⟩ .nil)
    have hentity : build 2 entity 7 = .ok (.record
        [("components", .record [("\ufffd\ufffd\ufffd", .integer 1)])]) :=
      @build_record _ 2 5 [("components", components)] _ (List.nodup_singleton _)
        (.cons ⟨rfl, hcomponents⟩ .nil)
    have hentities : build 1 entities 8 = .ok (.list [.record
        [("components", .record [("\ufffd\ufffd\ufffd", .integer 1)])]]) := by
      rw [build_sequence, List.map_singleton, hentity]
      rfl
    rw [Yaml.load, htokens]
    exact congrArg (Except.mapError Prod.snd) (@build_record _ 0 7 [("entities", entities)]
      [("entities", _)] (List.nodup_singleton _) (.cons ⟨rfl, hentities⟩ .nil))
  have hcheck : World.check d = .ok (w (RawText.ofString "\ufffd\ufffd\ufffd")) := by
    with_unfolding_all rfl
  have hrecord : d = .record (present (World.shortFields none
      [.record [("components", .record [("\ufffd\ufffd\ufffd", .integer 1)])]])) := rfl
  have hread := readBytes_of_check hrecord hcheck
    (Option.isNone_iff_eq_none.mp (by decide +kernel)) (by decide) (hwrite ▸ hload)
  have htext : write (w [.half 0]) = .ok text.toList := by
    rw [write, hdump, ← hwrite]
    rfl
  refine ⟨hproper, hfit, hdump, hwrite ▸ hload, htext, hwrite ▸ hread, ?_⟩
  intro heq
  cases heq

end Scene

end Assemblage
