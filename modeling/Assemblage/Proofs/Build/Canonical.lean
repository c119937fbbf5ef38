import Assemblage.Proofs.Build.Scenes
import Assemblage.Proofs.World.Reordering
import Assemblage.Proofs.World.Scene

/-!
# Canonical payloads

A scene is embedded by the payload of its world, and worlds that differ in nothing but the order of
keys have one payload. So the order of the keys in a scene is lost on the way to the source: two
runs of calls with reordered scenes leave the same builder (`SceneBuilder.run_of_reordered`).

Main statement: `Payload.canonical`.
-/

namespace Assemblage
set_option autoImplicit false

/-! ## Reordered scenes -/

namespace Scene

variable [Stack]

/-- Whether two texts hold documents that differ in nothing but the order of keys. -/
def Reordered (s t : List Char) : Prop :=
  ∃ v w, Yaml.load s = .ok v ∧ Yaml.load t = .ok w ∧ v.Reordered w

theorem Reordered.symm {s t : List Char} (h : Reordered s t) : Reordered t s := by
  obtain ⟨v, w, hv, hw, hvw⟩ := h
  exact ⟨w, v, hw, hv, hvw.symm⟩

theorem checkFields_of_reordered {es gs : List (Value × Value)} (hes : (Value.mapping es).Distinct)
    (h : (Value.mapping es).Reordered (.mapping gs)) {w : World} (hw : checkFields es = .ok w) :
    ∃ w', checkFields gs = .ok w' ∧ w.Reordered w' := by
  obtain ⟨hfound, hcheck⟩ := checkFields_eq_ok hw
  obtain ⟨w', hcheck', hreordered⟩ :=
    World.check_of_reordered ⟨Value.fit_of_found? hfound, hes⟩ h hcheck
  refine ⟨w', ?_, hreordered⟩
  rw [checkFields, h.found?_iff.mp hfound]
  simp only [hcheck']
  rfl

theorem read_of_reordered {s t : List Char} (h : Reordered s t) {w : World} (hw : read s = .ok w) :
    ∃ w', read t = .ok w' ∧ w.Reordered w' := by
  obtain ⟨v, v', hv, hv', hreordered⟩ := h
  have hread : read t = ofValue v' := by rw [read, hv']; rfl
  have hw : ofValue v = .ok w := by rw [← hw, read, hv]; rfl
  rw [hread]
  cases v with
  | null =>
    cases hreordered
    exact ⟨w, hw, .refl _⟩
  | mapping es =>
    obtain ⟨hfound, -⟩ := checkFields_eq_ok hw
    have hfit := Value.fit_of_found? hfound
    obtain ⟨_, gs, -, -, rfl⟩ := Value.reordered_mapping hreordered
    exact checkFields_of_reordered (Yaml.load_distinct hv hfit) hreordered hw
  | list xs =>
    obtain ⟨hfound, -⟩ := checkFields_eq_ok hw
    have hfit := Value.fit_of_found? hfound
    have hxs : (Value.list xs).offender? = none :=
      (Value.entryOffender?_eq_none.mp hfit _ List.mem_cons_self).2
    have hdistinct : (Value.mapping [(.ofString "entities", .list xs)]).Distinct :=
      ⟨List.nodup_singleton _, Yaml.load_distinct hv hxs, trivial⟩
    obtain ⟨ys, -, rfl⟩ := Value.reordered_list hreordered
    exact checkFields_of_reordered hdistinct (.mapping (.cons hreordered .nil) (.refl _)) hw
  | _ => cases hw

end Scene

/-! ## Reordered calls -/

theorem Blob.ofRead_of_reordered [Stack] {name : String} {s t : List Char} (h : Scene.Reordered s t)
    {blob : Blob} (hblob : Blob.ofRead name (Scene.read s) = .ok blob) :
    Blob.ofRead name (Scene.read t) = .ok blob := by
  obtain ⟨w, bytes, hw, hbytes, rfl⟩ := Blob.ofRead_eq_ok hblob
  obtain ⟨w', hw', hreordered⟩ := Scene.read_of_reordered h hw
  have hdistinct := World.distinct_toValue (Scene.proper_of_read hw)
  have hsame := (Payload.encode_of_reordered hdistinct hreordered bytes).mp hbytes
  simp only [Blob.ofRead, hw', hsame]

/-- Calls that embed the same under the same name, the order of keys in the scenes aside. -/
inductive SceneCall.Reordered [Stack] : SceneCall → SceneCall → Prop where
  | scene {name a b : String} (h : Scene.Reordered a.toList b.toList) :
    Reordered (.scene name a) (.scene name b)
  | sceneBytes {name : String} {a b : Text.Bytes} {s t : List Char}
    (ha : Text.decodeUtf8 (Text.dropMark a) = .ok s)
    (hb : Text.decodeUtf8 (Text.dropMark b) = .ok t) (h : Scene.Reordered s t) :
    Reordered (.sceneBytes name a) (.sceneBytes name b)
  | payload (owner : String) (bytes : Text.Bytes) :
    Reordered (.payload owner bytes) (.payload owner bytes)

namespace SceneCall

theorem Reordered.symm [Stack] {c d : SceneCall} (h : c.Reordered d) : d.Reordered c := by
  cases h with
  | scene h => exact .scene h.symm
  | sceneBytes ha hb h => exact .sceneBytes hb ha h.symm
  | payload => exact .payload _ _

theorem blob_of_reordered [Stack] {c d : SceneCall} (h : c.Reordered d) {blob : Blob}
    (hblob : c.blob = .ok blob) : d.blob = .ok blob := by
  cases h with
  | scene h => exact Blob.ofRead_of_reordered h hblob
  | sceneBytes ha hb h =>
    rw [SceneCall.blob, Scene.readBytes, ha] at hblob
    rw [SceneCall.blob, Scene.readBytes, hb]
    exact Blob.ofRead_of_reordered h hblob
  | payload => exact hblob

end SceneCall

namespace SceneBuilder

/-- The builder with one more blob. -/
def holdingAlso (s : SceneBuilder) (blob : Blob) : SceneBuilder :=
  match s.embed.decodeCall with
  | .error _ => { s with blobs := s.blobs ++ [blob] }
  | .ok decode =>
    { s with
      builder := s.builder.file none (s.embed.container decode blob)
      blobs := s.blobs ++ [blob] }

theorem call_of_refused [Stack] (s : SceneBuilder) {c : SceneCall} (h : ∀ blob, c.blob ≠ .ok blob) :
    (s.call c).builder = s := by
  rcases s.call_cases c with ⟨_, -, -, hstate⟩ | ⟨blob, _, hblob, -⟩ | ⟨blob, _, hblob, -⟩
  · exact hstate
  · exact absurd hblob (h blob)
  · exact absurd hblob (h blob)

theorem call_of_blob [Stack] (s : SceneBuilder) {c : SceneCall} {blob : Blob}
    (h : c.blob = .ok blob) : (s.call c).builder = s.holdingAlso blob := by
  unfold holdingAlso
  rcases s.call_cases c with ⟨_, hc, -⟩ | ⟨_, _, hc, hdecode, -, hstate⟩ |
    ⟨_, _, hc, hdecode, -, hstate⟩
  · rw [h] at hc
    cases hc
  · rw [h] at hc
    cases hc
    rw [hstate, hdecode]
  · rw [h] at hc
    cases hc
    rw [hstate, hdecode]

theorem call_of_reordered [Stack] (s : SceneBuilder) {c d : SceneCall} (h : c.Reordered d) :
    (s.call c).builder = (s.call d).builder := by
  by_cases hc : ∃ blob, c.blob = .ok blob
  · obtain ⟨blob, hc⟩ := hc
    rw [s.call_of_blob hc, s.call_of_blob (SceneCall.blob_of_reordered h hc)]
  · have hd : ¬∃ blob, d.blob = .ok blob := by
      rintro ⟨blob, hd⟩
      exact hc ⟨blob, SceneCall.blob_of_reordered h.symm hd⟩
    rw [s.call_of_refused (not_exists.mp hc), s.call_of_refused (not_exists.mp hd)]

theorem run_of_reordered [Stack] {calls others : List SceneCall}
    (h : List.Forall₂ SceneCall.Reordered calls others) (s : SceneBuilder) :
    s.run calls = s.run others := by
  induction h generalizing s with
  | nil => rfl
  | cons hcall _ ih => rw [run, run, s.call_of_reordered hcall, ih]

end SceneBuilder

/-! ## The main statement -/

/-- **Payloads are canonical.** Worlds that differ in nothing but the order of keys have one payload
or none. A payload that was encoded from what was decoded is decoded as the same world, up to that
order, and encoded from it again. And runs with reordered scenes leave the same builder, so that
their sources are the same. -/
theorem Payload.canonical [Stack] :
    (∀ w w' : World, w.toValue.Distinct → w.Reordered w' →
      ∀ b, encode w = .ok b ↔ encode w' = .ok b) ∧
    (∀ (p q : Text.Bytes) (w : World), decode p = .ok w → encode w = .ok q →
      ∃ w', decode q = .ok w' ∧ w.Alike w' ∧ encode w' = .ok q) ∧
    ∀ calls others : List SceneCall, List.Forall₂ SceneCall.Reordered calls others →
      ∀ s : SceneBuilder, s.run calls = s.run others :=
  ⟨fun _ _ => encode_of_reordered, fun _ _ _ => decode_encode_decoded,
    fun _ _ => SceneBuilder.run_of_reordered⟩

/-! ## Two orders -/

/-- A scene of one entity with two components. -/
theorem Scene.load_components {s : List Char} {k l : String} {t u : RawText} (hkl : k ≠ l)
    (h : Yaml.tokens s = .ok
      [.blockSequenceStart, .blockEntry, .blockMappingStart, .key,
        .scalar (RawText.ofString "components") true, .value, .blockMappingStart, .key,
        .scalar (RawText.ofString k) false, .value, .scalar t false, .key,
        .scalar (RawText.ofString l) false, .value, .scalar u false, .blockEnd, .blockEnd,
        .blockEnd]) :
    Yaml.load s = .ok (.list [.record [("components", .record [(k, .text t), (l, .text u)])]]) := by
  let components : Yaml.Node := .mapping .mapping
    [(.scalar .text (RawText.ofString k), .scalar .text t),
      (.scalar .text (RawText.ofString l), .scalar .text u)]
  let entity : Yaml.Node := .mapping .mapping
    [(.scalar .text (RawText.ofString "components"), components)]
  have hcomponents : Yaml.Content.build 2 components 7 =
      .ok (.record [(k, .text t), (l, .text u)]) :=
    @Yaml.Content.build_record _ 2 5 [(k, .scalar .text t), (l, .scalar .text u)] _
      (by simpa using hkl) (.cons ⟨rfl, rfl⟩ (.cons ⟨rfl, rfl⟩ .nil))
  have hentity : Yaml.Content.build 1 entity 8 =
      .ok (.record [("components", .record [(k, .text t), (l, .text u)])]) :=
    @Yaml.Content.build_record _ 1 6 [("components", components)] _ (List.nodup_singleton _)
      (.cons ⟨rfl, hcomponents⟩ .nil)
  rw [Yaml.load, h]
  show (Yaml.Content.build 0 (.sequence .sequence [entity]) 9).mapError Prod.snd = _
  rw [Yaml.Content.build_sequence, List.map_singleton, hentity]
  rfl

/-- A text that is read as a world which can be written is a payload that can be encoded again. -/
theorem Payload.exists_recoded {s : List Char}
    (h : ((Json.read? limits s).bind fun v =>
      match World.check v with
      | .ok w => (encodeChars w).toOption
      | .bad _ => none).isSome) :
    ∃ w q, decode (Text.encodeUtf8 s) = .ok w ∧ encode w = .ok q := by
  obtain ⟨t, ht⟩ := Option.isSome_iff_exists.mp h
  obtain ⟨v, hv, ht⟩ := Option.bind_eq_some_iff.mp ht
  cases hcheck : World.check v with
  | bad ps =>
    rw [hcheck] at ht
    cases ht
  | ok w =>
    simp only [hcheck] at ht
    refine ⟨w, Text.encodeUtf8 t,
      decode_eq_ok.mpr ⟨s, v, Text.decodeUtf8_encodeUtf8 s, hv, hcheck⟩, ?_⟩
    rw [encode]
    cases hchars : encodeChars w with
    | error f =>
      rw [hchars] at ht
      cases ht
    | ok chars =>
      rw [hchars] at ht
      cases ht
      rfl

/-- Two orders of the components of a world, a payload with white space, an escape, a capacity
in digits and a field that no world has, and two orders of the components in a scene. -/
theorem Payload.canonical_two_orders :
    let x : RawText × Value := (RawText.ofString "x", .ofString "1")
    let w : RawText × Value := (RawText.ofString "w", .record [("q", .null), ("p", .flag true)])
    let v : RawText × Value := (RawText.ofString "w", .record [("p", .flag true), ("q", .null)])
    let p := Text.encodeUtf8
      " \x7b\"max\\u005fcapacity\": \"3\", \"entities\": [ ], \"more\": 0\x7d".toList
    let a := "- components:\n    \"x\": \"1\"\n    \"w\": \"2\""
    let b := "- components:\n    \"w\": \"2\"\n    \"x\": \"1\""
    (∀ b, encode ⟨none, [⟨none, true, [x, w], []⟩]⟩ = .ok b ↔
      encode ⟨none, [⟨none, true, [v, x], []⟩]⟩ = .ok b) ∧
    (∃ w q w', decode p = .ok w ∧ encode w = .ok q ∧ decode q = .ok w' ∧ w.Alike w' ∧
      encode w' = .ok q) ∧
    ∀ s : SceneBuilder, s.run [.scene "a.yaml" a] = s.run [.scene "a.yaml" b] := by
  intro x w v p a b
  obtain ⟨hworlds, hpayload, hscenes⟩ := canonical
  refine ⟨?_, ?_, ?_⟩
  · have hdistinct : Value.Distinct (World.toValue ⟨none, [⟨none, true, [x, w], []⟩]⟩) := by
      refine World.distinct_toValue ⟨by simp, ⟨by decide, ?_, trivial⟩, trivial⟩
      intro c hc
      rcases List.mem_pair.mp hc with rfl | rfl
      · trivial
      · exact ⟨Value.nodup_record (show ["q", "p"].Nodup by decide), trivial, trivial, trivial⟩
    have hcomponents : Schema.SameEntries [x, w] [v, x] :=
      .mapping (.cons (.refl _) (.cons (.mapping (Value.reorderedEntries_refl _) (.swap _ _ _))
        .nil)) (.swap _ _ _)
    have hentity : (Entity.toValue ⟨none, true, [x, w], []⟩).Reordered
        (Entity.toValue ⟨none, true, [v, x], []⟩) :=
      Entity.reordered_toValue hcomponents .nil
    exact hworlds _ _ hdistinct
      (.mapping (.cons (.refl _) (.cons (.list (.cons hentity .nil)) .nil)) (.refl _))
  · obtain ⟨w, q, hp, hq⟩ := exists_recoded
      (s := " \x7b\"max\\u005fcapacity\": \"3\", \"entities\": [ ], \"more\": 0\x7d".toList)
      (by decide +kernel)
    obtain ⟨w', hw'⟩ := hpayload p q w hp hq
    exact ⟨w, q, w', hp, hq, hw'⟩
  · have ha := Scene.load_components (s := a.toList) (k := "x") (l := "w")
      (t := RawText.ofString "1") (u := RawText.ofString "2") (by decide) (by decide +kernel)
    have hb := Scene.load_components (s := b.toList) (k := "w") (l := "x")
      (t := RawText.ofString "2") (u := RawText.ofString "1") (by decide) (by decide +kernel)
    have hreordered : Scene.Reordered a.toList b.toList :=
      ⟨_, _, ha, hb, .list (.cons (.mapping (.cons (.mapping (Value.reorderedEntries_refl _)
        (.swap _ _ _)) .nil) (.refl _)) .nil)⟩
    exact hscenes _ _ (.cons (.scene hreordered) .nil)

end Assemblage
