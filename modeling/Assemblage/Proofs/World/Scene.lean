import Assemblage.Proofs.World.Payload
import Assemblage.Proofs.World.Safety
import Assemblage.Proofs.Yaml.Content
import Assemblage.World.Scene

/-!
# Which scenes a payload can carry

A scene is searched for offenders before it is checked as a world, and the fields of the world are
searched again before they are encoded. Checking keeps the components as they are, so that the
second search can find nothing but a capacity that was no integer in the scene, such as a quoted
one (`offender?_toValue_of_read`). Two limits of payloads are no matter of either search: how deep
collections are nested, and that a text is written whole.

`World.Carried` collects the three conditions; `encode_read` says that they are all that can keep a
scene from its payload, and that the payload is decoded as the world of the scene.
-/

namespace Assemblage
set_option autoImplicit false

/-- Whether a payload can carry a world whose components are fit. -/
structure World.Carried (w : World) : Prop where
  capacity : ∀ n ∈ w.capacity, n ≤ Json.greatestInteger
  depth : w.toValue.depth ≤ Payload.deepest
  whole : w.toValue.Whole

/-! ## Fit collections -/

namespace Value

theorem offender?_of_lookup {es : List (Value × Value)} (h : entryOffender? es = none)
    {key : String} {v : Value} (hv : lookup key es = some v) : v.offender? = none := by
  obtain ⟨k, hk⟩ := mem_of_lookup hv
  exact (entryOffender?_eq_none.mp h _ hk).2

/-- The items of what is fit are those of a list. -/
theorem offender?_of_items? {v : Value} {xs : List Value} (hv : v.offender? = none)
    (h : Schema.items? v = some xs) : ∀ x ∈ xs, x.offender? = none := by
  cases v with
  | list ys =>
    cases h
    exact itemOffender?_eq_none.mp hv
  | tuple | set => cases hv
  | _ => cases h

theorem offender?_record {fields : List (String × Value)} :
    (record fields).offender? = none ↔ ∀ f ∈ fields, f.2.offender? = none := by
  rw [record, offender?, entryOffender?_eq_none, List.forall_mem_map]
  exact forall₂_congr fun f _ => and_iff_right ⟨_, rfl⟩

end Value

/-! ## Fit entities -/

namespace Entity

theorem offender?_components {cs : List (RawText × Value)} :
    (Value.mapping (cs.map fun c => (.text c.1, c.2))).offender? = none ↔
      ∀ c ∈ cs, c.2.offender? = none := by
  rw [Value.offender?, Value.entryOffender?_eq_none, List.forall_mem_map]
  exact forall₂_congr fun c _ => and_iff_right ⟨_, rfl⟩

/-- The fields of an entity are fit if its components and the fields of its children are. -/
theorem offender?_toValue {e : Entity} (hcomponents : ∀ c ∈ e.components, c.2.offender? = none)
    (hchildren : ∀ x ∈ toValues e.children, x.offender? = none) :
    e.toValue.offender? = none := by
  have hname : ((e.name.map Value.text).getD .null).offender? = none := by
    cases e.name <;> rfl
  have hlist : (Value.list (toValues e.children)).offender? = none :=
    Value.itemOffender?_eq_none.mpr hchildren
  rw [toValue_eq, Value.offender?_record]
  simp only [fields, List.forall_mem_cons]
  exact ⟨hname, rfl, offender?_components.mpr hcomponents, hlist, by simp⟩

/-- If all that an entity can be checked from is fit, so are the fields of the entities of a
list. -/
theorem offender?_of_listOf {levels : Nat}
    (hcheck : ∀ (x : Value) (e : Entity), x.offender? = none → check levels x = .ok e →
      e.toValue.offender? = none)
    {v : Value} (hv : v.offender? = none) {es : List Entity}
    (h : Schema.listOf (check levels) v = .ok es) : ∀ x ∈ toValues es, x.offender? = none := by
  obtain ⟨xs, hxs, hall⟩ := Schema.listOf_eq_ok h
  have hitems := Value.offender?_of_items? hv hxs
  clear hxs h
  induction hall with
  | nil => simp [toValues]
  | cons hx _ ih =>
    obtain ⟨hhead, htail⟩ := List.forall_mem_cons.mp hitems
    exact List.forall_mem_cons.mpr ⟨hcheck _ _ hhead hx, ih htail⟩

/-- **The fields of an entity are fit** if it was checked from what is fit. -/
theorem offender?_of_check (levels : Nat) (v : Value) (e : Entity) (hv : v.offender? = none)
    (h : check levels v = .ok e) : e.toValue.offender? = none := by
  induction levels generalizing v e with
  | zero => cases h
  | succ levels ih =>
    obtain ⟨fs, rfl, hcomponents, hchildren⟩ := check_eq_ok h
    apply offender?_toValue
    · rcases hcomponents with hnone | ⟨u, hu, hdictionary⟩
      · simp [hnone]
      · obtain ⟨-, es, rfl, hvalues⟩ := Schema.nodup_dictionary hdictionary
        have hentries := Value.entryOffender?_eq_none.mp (Value.offender?_of_lookup hv hu)
        intro c hc
        obtain ⟨k, hk⟩ := hvalues c hc
        exact (hentries _ hk).2
    · rcases hchildren with hnone | ⟨u, hu, hlist⟩
      · simp [hnone, toValues]
      · exact offender?_of_listOf ih (Value.offender?_of_lookup hv hu) hlist

end Entity

/-! ## Fit worlds -/

namespace World

/-- If the fields of its entities are fit, a world can have no offender but its capacity. -/
theorem offender?_toValue {w : World} (hw : ∀ x ∈ Entity.toValues w.entities, x.offender? = none) :
    w.toValue.offender? = none ∨
      ∃ n, w.capacity = some n ∧ Json.isNarrow n = false ∧
        w.toValue.offender? = some ⟨[.name (RawText.ofString "max_capacity")], .integer n⟩ := by
  have hlist : (Value.list (Entity.toValues w.entities)).offender? = none :=
    Value.itemOffender?_eq_none.mpr hw
  obtain ⟨capacity, entities⟩ := w
  cases capacity with
  | none =>
    left
    rw [toValue, Value.offender?_record]
    simp only [List.forall_mem_cons]
    exact ⟨rfl, hlist, by simp⟩
  | some n =>
    cases hn : Json.isNarrow n with
    | true =>
      left
      rw [toValue, Value.offender?_record]
      simp only [List.forall_mem_cons]
      exact ⟨by simp [Value.offender?, hn], hlist, by simp⟩
    | false =>
      right
      refine ⟨n, rfl, hn, ?_⟩
      simp [toValue, Value.record, Value.ofString, Value.offender?, Value.entryOffender?, hn,
        Offender.under]

/-- What is fit and passes as an integer has no more digits than may be written. -/
theorem fitsDecimals_of_integer {v : Value} (hv : v.offender? = none) {n : Int}
    (h : Schema.integer v = .ok n) : Text.fitsDecimals n = true := by
  have hsize : ∀ m : Int, m.natAbs < 10 ^ 20 → Text.fitsDecimals m = true := by
    intro m hm
    have hdigits := (Nat.length_toDigits_le_iff (b := 10) (k := 20) (by decide) (by decide)).mpr hm
    exact decide_eq_true (Nat.le_trans hdigits (by decide))
  cases v with
  | integer m =>
    cases h
    rw [Value.offender?] at hv
    split at hv
    · next hnarrow =>
      rw [Json.isNarrow, Bool.and_eq_true, decide_eq_true_iff, decide_eq_true_iff] at hnarrow
      unfold Json.leastInteger Json.greatestInteger at hnarrow
      exact hsize n (by omega)
    · cases hv
  | flag b =>
    cases h
    cases b <;> decide
  | real x =>
    unfold Schema.integer at h
    dsimp only at h
    split at h
    · cases h
    · cases h
    · split at h
      · next hsigned =>
        cases h
        unfold Schema.signedLimit at hsigned
        exact hsize n (by omega)
      · cases h
  | text t =>
    unfold Schema.integer at h
    dsimp only at h
    split at h
    · split at h
      · next hfits =>
        cases h
        exact hfits
      · cases h
    · cases h
  | bytes b => cases hv
  | _ => cases h

/-- A capacity that was checked from what is fit can be written. -/
theorem fitsDecimals_capacity {v : Value} (hv : v.offender? = none) {w : World}
    (h : check v = .ok w) {n : Int} (hn : w.capacity = some n) : Text.fitsDecimals n = true := by
  obtain ⟨fs, rfl, -⟩ := check_eq_ok h
  obtain ⟨hcapacity, -⟩ := check_mapping_eq_ok.mp h
  rw [hn] at hcapacity
  rcases Schema.defaulted_eq_ok hcapacity with hnone | ⟨u, hu, hcheck⟩
  · cases hnone
  · obtain ⟨m, hinteger, hleast⟩ := Checked.andThen_eq_ok.mp (Schema.optional_eq_ok hcheck)
    obtain ⟨rfl, -⟩ := Schema.atLeast_eq_ok hleast
    exact fitsDecimals_of_integer (Value.offender?_of_lookup hv hu) hinteger

theorem isNarrow_of_fit {w : World} (h : w.toValue.offender? = none) {n : Int}
    (hn : w.capacity = some n) : Json.isNarrow n = true := by
  have hfield := Value.offender?_record.mp h _ List.mem_cons_self
  simpa [hn, Value.offender?] using hfield

/-- A capacity that is not negative is an integer of 64 bits unless it is too large. -/
theorem isNarrow_capacity {w : World} (hw : w.Proper) {n : Int} (hn : n ∈ w.capacity) :
    Json.isNarrow n = true ↔ n ≤ Json.greatestInteger := by
  have hleast : Json.leastInteger ≤ n := Int.le_trans (by decide) (hw.capacity n hn)
  simp [Json.isNarrow, hleast]

end World

/-! ## Scenes -/

namespace Scene

section
variable [Stack]

theorem checkFields_eq_ok {es : List (Value × Value)} {w : World}
    (h : checkFields es = .ok w) :
    (Value.mapping es).found? = none ∧ World.check (.mapping es) = .ok w := by
  unfold checkFields at h
  split at h
  · cases h
  · next hfit =>
    refine ⟨hfit, ?_⟩
    have hcheck := Yaml.mapError_eq_ok h
    cases hworld : World.check (.mapping es) with
    | ok w' =>
      rw [hworld] at hcheck
      cases hcheck
      rfl
    | bad ps =>
      rw [hworld] at hcheck
      cases hcheck

/-- A scene is empty, or its world was checked from fields that are fit and have every key
once. -/
theorem read_eq_ok {s : List Char} {w : World} (h : read s = .ok w) :
    w = .empty ∨ ∃ v, v.offender? = none ∧ v.Distinct ∧ World.check v = .ok w := by
  obtain ⟨v, hload, hv⟩ := Yaml.bind_eq_ok h
  have hload := Yaml.mapError_eq_ok hload
  cases v with
  | null =>
    cases hv
    exact .inl rfl
  | mapping es =>
    obtain ⟨hfound, hcheck⟩ := checkFields_eq_ok hv
    have hfit := Value.fit_of_found? hfound
    exact .inr ⟨_, hfit, Yaml.load_distinct hload hfit, hcheck⟩
  | list xs =>
    obtain ⟨hfound, hcheck⟩ := checkFields_eq_ok hv
    have hfit := Value.fit_of_found? hfound
    have hxs : (Value.list xs).offender? = none :=
      (Value.entryOffender?_eq_none.mp hfit _ List.mem_cons_self).2
    have hdistinct := Yaml.load_distinct hload hxs
    exact .inr ⟨_, hfit, ⟨List.nodup_singleton _, hdistinct, trivial⟩, hcheck⟩
  | _ => cases hv

theorem proper_of_read {s : List Char} {w : World} (h : read s = .ok w) : w.Proper := by
  rcases read_eq_ok h with rfl | ⟨v, -, hdistinct, hcheck⟩
  · exact ⟨by simp [World.empty], trivial⟩
  · exact World.proper_of_check hdistinct hcheck

/-- The capacity of a scene can be written. -/
theorem fitsDecimals_of_read {s : List Char} {w : World} (h : read s = .ok w) {n : Int}
    (hn : w.capacity = some n) : Text.fitsDecimals n = true := by
  rcases read_eq_ok h with rfl | ⟨v, hfit, -, hcheck⟩
  · cases hn
  · exact World.fitsDecimals_capacity hfit hcheck hn

/-- The second search can find nothing but a capacity that is too large. -/
theorem offender?_toValue_of_read {s : List Char} {w : World} (h : read s = .ok w) :
    w.toValue.offender? = none ∨
      ∃ n, w.capacity = some n ∧ Json.isNarrow n = false ∧
        w.toValue.offender? = some ⟨[.name (RawText.ofString "max_capacity")], .integer n⟩ := by
  apply World.offender?_toValue
  rcases read_eq_ok h with rfl | ⟨v, hfit, -, hcheck⟩
  · simp [World.empty, Entity.toValues]
  · obtain ⟨fs, rfl, -, hentities⟩ := World.check_eq_ok hcheck
    rcases hentities with hnone | ⟨u, hu, hlist⟩
    · simp [hnone, Entity.toValues]
    · exact Entity.offender?_of_listOf (Entity.offender?_of_check _)
        (Value.offender?_of_lookup hfit hu) hlist

/-- The fields of the world of a scene are fit unless its capacity is too large. -/
theorem fit_iff {s : List Char} {w : World} (h : read s = .ok w) :
    w.toValue.offender? = none ↔ ∀ n ∈ w.capacity, n ≤ Json.greatestInteger := by
  have hproper := proper_of_read h
  constructor
  · exact fun hfit n hn => (World.isNarrow_capacity hproper hn).mp (World.isNarrow_of_fit hfit hn)
  · intro hcapacity
    rcases offender?_toValue_of_read h with hfit | ⟨n, hn, hwide, -⟩
    · exact hfit
    · have hnarrow := (World.isNarrow_capacity hproper hn).mpr (hcapacity n hn)
      rw [hwide] at hnarrow
      cases hnarrow

/-- What keeps the world of a scene from its payload has a message. -/
theorem message?_of_encode {s : List Char} {w : World} (h : read s = .ok w) {f : EncodeFault}
    (hf : Payload.encode w = .error f) : f.message?.isSome := by
  rcases Payload.encode_eq_error hf with rfl | ⟨o, ho, rfl⟩
  · rfl
  · rcases offender?_toValue_of_read h with hfit | ⟨n, hcapacity, -, hn⟩
    · rw [hfit] at ho
      cases ho
    · obtain rfl := Option.some.inj (hn.symm.trans ho)
      have hfits := fitsDecimals_of_read h hcapacity
      simp [EncodeFault.message?, Offender.message?, Offence.text?, hfits]

/-- **The payload of a scene.** The world of a scene has a payload exactly if a payload can carry
it. The payload is decoded as the world, up to the order of components and of keys, and where there
is none, what is wrong is reported as a fault of the scene. -/
theorem encode_read {s : List Char} {w : World} (h : read s = .ok w) :
    ((∃ b, Payload.encode w = .ok b) ↔ w.Carried) ∧
    (∀ b, Payload.encode w = .ok b → Payload.decode b = .ok w.arranged ∧ w.Alike w.arranged) ∧
    ∀ f, Payload.encode w = .error f → f.message?.isSome := by
  have hproper := proper_of_read h
  refine ⟨⟨?_, ?_⟩, fun b hb => ⟨Payload.decode_of_encode hproper hb, w.alike_arranged⟩,
    fun f => message?_of_encode h⟩
  · rintro ⟨b, hb⟩
    obtain ⟨hfit, hdepth, t, hwrite, -⟩ := Payload.encode_eq_ok.mp hb
    have hwhole := (Value.isSome_write? _ hfit).mp (by simp [hwrite])
    exact ⟨(fit_iff h).mp hfit, hdepth, hwhole⟩
  · rintro ⟨hcapacity, hdepth, hwhole⟩
    have hfit := (fit_iff h).mpr hcapacity
    obtain ⟨t, ht⟩ := Option.isSome_iff_exists.mp ((Value.isSome_write? _ hfit).mpr hwhole)
    exact ⟨_, Payload.encode_eq_ok.mpr ⟨hfit, hdepth, t, ht, rfl⟩⟩

end

/-! ## Two short scenes -/

/-- A scene of nothing but a capacity that is written as a text. -/
theorem read_capacity {s : List Char} {t : RawText} (h : Yaml.tokens s = .ok
      [.blockMappingStart, .key, .scalar (RawText.ofString "max_capacity") true, .value,
        .scalar t false, .blockEnd]) :
    read s = checkFields [(.ofString "max_capacity", .text t)] := by
  have hload : Yaml.load s = .ok (.record [("max_capacity", .text t)]) := by
    rw [Yaml.load, h]
    show (Yaml.Content.build 0 (.mapping .mapping
      [(.scalar .text (RawText.ofString "max_capacity"), .scalar .text t)]) 4).mapError Prod.snd = _
    rw [Yaml.Content.build_mapping (by simp [Yaml.Content.kindOf])]
    rfl
  rw [read, hload]
  rfl

/-- A scene of one entity with nothing but a name. -/
theorem read_name {s : List Char} {t : RawText} (h : Yaml.tokens s = .ok
      [.blockSequenceStart, .blockEntry, .blockMappingStart, .key,
        .scalar (RawText.ofString "name") true, .value, .scalar t false, .blockEnd, .blockEnd]) :
    read s = checkFields [(.ofString "entities", .list [.record [("name", .text t)]])] := by
  have hload : Yaml.load s = .ok (.list [.record [("name", .text t)]]) := by
    rw [Yaml.load, h]
    show (Yaml.Content.build 0 (.sequence .sequence [.mapping .mapping
      [(.scalar .text (RawText.ofString "name"), .scalar .text t)]]) 5).mapError Prod.snd = _
    rw [Yaml.Content.build_sequence]
    simp only [List.map_cons, List.map_nil]
    rw [Yaml.Content.build_mapping (by simp [Yaml.Content.kindOf])]
    rfl
  rw [read, hload]
  rfl

/-- The greatest capacity that a payload can carry, written as a text. -/
theorem encode_read_greatest :
    let s := "max_capacity: \"18446744073709551615\"".toList
    let w : World := ⟨some 18446744073709551615, []⟩
    read s = .ok w ∧ w.Carried ∧
      ∃ b, Payload.encode w = .ok b ∧ Payload.decode b = .ok w.arranged ∧ w.Alike w.arranged := by
  intro s w
  have hread : read s = .ok w := by
    rw [read_capacity (t := RawText.ofString "18446744073709551615") (by decide +kernel)]
    rfl
  obtain ⟨hencodes, hdecodes, -⟩ := encode_read hread
  have hcarried : w.Carried := by
    refine ⟨?_, by decide +kernel, Value.whole_ofString _, trivial, Value.whole_ofString _, trivial,
      trivial⟩
    rintro n ⟨⟩
    decide
  obtain ⟨b, hb⟩ := hencodes.mpr hcarried
  exact ⟨hread, hcarried, b, hb, hdecodes b hb⟩

/-- A capacity that is one greater, and a name of half a surrogate pair: both are scenes, and
neither has a payload. -/
theorem accepted_not_encoded :
    (∃ w, read "max_capacity: \"18446744073709551616\"".toList = .ok w ∧
      ∀ b, Payload.encode w ≠ .ok b) ∧
    ∃ w, read "- name: \"\\uD800\"".toList = .ok w ∧ ∀ b, Payload.encode w ≠ .ok b := by
  constructor
  · refine ⟨⟨some 18446744073709551616, []⟩, ?_, fun b hb => ?_⟩
    · rw [read_capacity (t := RawText.ofString "18446744073709551616") (by decide +kernel)]
      rfl
    · obtain ⟨hfit, -⟩ := Payload.encode_eq_ok.mp hb
      have hnarrow := World.isNarrow_of_fit hfit rfl
      cases hnarrow
  · refine ⟨⟨none, [⟨some [.half 0], true, [], []⟩]⟩, ?_, fun b hb => ?_⟩
    · rw [read_name (t := [.half 0]) (by decide +kernel)]
      rfl
    · obtain ⟨-, -, s, hwrite, -⟩ := Payload.encode_eq_ok.mp hb
      cases hwrite

end Scene

end Assemblage
