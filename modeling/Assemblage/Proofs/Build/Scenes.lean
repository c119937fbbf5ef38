import Assemblage.Build.Scenes
import Mathlib.Data.List.Forall2

/-!
# Scenes taken whole or not at all

A call that embeds a scene or a payload can fail in four ways: the text is no scene, the world has
no payload, and the container cannot be written because the decoding expression of the settings
cannot be filled. The last of these depends on the settings alone (`writeContainer_eq`). Where the
expression can be filled, `SceneBuilder.holding` writes down what a builder is after any calls, and
a call either adds one blob with its container or does nothing.

Main statements: no failing call touches the builder of the unit, and exactly if the decoding
expression can be filled none touches the blobs, so that blobs, bodies and the count of fragments
agree after every run (`SceneBuilder.failed_call_unchanged`); a blob that stays behind is in
`SceneBuilder.failed_payload_kept`.
-/

namespace Assemblage
set_option autoImplicit false
open Assemblage.Text (Bytes)

/-! ## Calls -/

/-- A call that embeds something. -/
inductive SceneCall where
  | scene (name text : String)
  | sceneBytes (name : String) (bytes : Bytes)
  | payload (owner : String) (bytes : Bytes)

namespace SceneBuilder

def call [Stack] (s : SceneBuilder) : SceneCall → SceneStep Blob
  | .scene name text => s.addScene name text
  | .sceneBytes name bytes => s.addSceneBytes name bytes
  | .payload owner bytes => s.addPayload owner bytes

/-- The builder after calls in order, whether they fail or not. -/
def run [Stack] (s : SceneBuilder) : List SceneCall → SceneBuilder
  | [] => s
  | c :: rest => (s.call c).builder.run rest

/-- Whether no call of a run fails. -/
def Accepts [Stack] (s : SceneBuilder) : List SceneCall → Prop
  | [] => True
  | c :: rest => (∃ blob, (s.call c).outcome = .ok blob) ∧ (s.call c).builder.Accepts rest

end SceneBuilder

/-! ## The blob of a call -/

/-- The blob of a scene that has been read. -/
def Blob.ofRead (name : String) (world : Except SceneFault World) : Except EmbedFault Blob :=
  match world with
  | .error fault => .error (.scene fault)
  | .ok world =>
    match Payload.encode world with
    | .error fault => .error (.payload fault)
    | .ok payload => .ok (Blob.ofPayload name payload)

theorem Blob.ofRead_eq_ok {name : String} {world : Except SceneFault World} {blob : Blob}
    (h : Blob.ofRead name world = .ok blob) :
    ∃ w bytes, world = .ok w ∧ Payload.encode w = .ok bytes ∧ blob = .ofPayload name bytes := by
  cases world with
  | error f => cases h
  | ok w =>
    simp only [Blob.ofRead] at h
    cases hw : Payload.encode w with
    | error f =>
      rw [hw] at h
      cases h
    | ok bytes =>
      rw [hw] at h
      cases h
      exact ⟨w, bytes, rfl, hw, rfl⟩

/-- The calls that embed scenes, given by their names and texts. -/
def SceneCall.ofScenes (scenes : List (String × String)) : List SceneCall :=
  scenes.map fun scene => .scene scene.1 scene.2

/-- The blob that a call asks for, or the fault of its scene. No builder has a say in it. -/
def SceneCall.blob [Stack] : SceneCall → Except EmbedFault Blob
  | .scene name text => Blob.ofRead name (Scene.read text.toList)
  | .sceneBytes name bytes => Blob.ofRead name (Scene.readBytes bytes)
  | .payload owner bytes => .ok (.ofPayload owner bytes)

namespace EmbedSettings

/-- The container of a blob, for a decoding expression that has been filled. -/
def container (s : EmbedSettings) (decode : String) (b : Blob) : String :=
  String.join
    ["public static class ", b.container, "\n\x7b\n",
      "    public const string ", s.constantName, " = \"", b.base64, "\";\n",
      "    private static readonly Lazy<", s.accessorType, "> ", s.lazyField, " =\n",
      "        new Lazy<", s.accessorType, ">(() => ", decode, ");\n",
      "    public static ", s.accessorType, " ", s.accessorName, " => ", s.lazyField, ".Value;\n",
      "\x7d\n"]

/-- A container can be written for every blob or for none. -/
theorem writeContainer_eq (s : EmbedSettings) (b : Blob) :
    s.writeContainer b = s.decodeCall.map fun decode => s.container decode b := by
  unfold writeContainer
  cases s.decodeCall <;> rfl

/-- The usual expression with the name of the usual constant. -/
def usualDecode : String := "JsonDocument.Parse(Convert.FromBase64String(Base64WorldContents))"

theorem decodeCall_usual : usual.decodeCall = .ok usualDecode := by decide +kernel

end EmbedSettings

namespace SceneBuilder

/-! ## One call -/

/-- What a call does with a blob that is to be embedded. -/
theorem addPayload_cases (s : SceneBuilder) (owner : String) (bytes : Bytes) :
    let step := s.addPayload owner bytes
    let blob := Blob.ofPayload owner bytes
    (∃ fault, s.embed.decodeCall = .error fault ∧ step.outcome = .error (.template fault) ∧
      step.builder = { s with blobs := s.blobs ++ [blob] }) ∨
    (∃ decode, s.embed.decodeCall = .ok decode ∧ step.outcome = .ok blob ∧
      step.builder = { s with
        builder := s.builder.file none (s.embed.container decode blob)
        blobs := s.blobs ++ [blob] }) := by
  intro step blob
  have hwrite := s.embed.writeContainer_eq blob
  cases hdecode : s.embed.decodeCall with
  | error fault =>
    rw [hdecode] at hwrite
    refine .inl ⟨fault, rfl, ?_, ?_⟩ <;> simp only [step, addPayload, blob, hwrite, Except.map]
  | ok decode =>
    rw [hdecode] at hwrite
    refine .inr ⟨decode, rfl, ?_, ?_⟩ <;> simp only [step, addPayload, blob, hwrite, Except.map]

theorem addRead_of_error (s : SceneBuilder) {name : String} {world : Except SceneFault World}
    {fault : EmbedFault} (h : Blob.ofRead name world = .error fault) :
    (s.addRead name world).outcome = .error fault ∧ (s.addRead name world).builder = s := by
  cases world with
  | error f =>
    cases h
    exact ⟨rfl, rfl⟩
  | ok w =>
    simp only [Blob.ofRead] at h
    cases hw : Payload.encode w with
    | error f =>
      rw [hw] at h
      cases h
      simp only [addRead, hw, and_self]
    | ok bytes =>
      rw [hw] at h
      cases h

theorem addRead_of_ok (s : SceneBuilder) {name : String} {world : Except SceneFault World}
    {blob : Blob} (h : Blob.ofRead name world = .ok blob) :
    ∃ bytes, blob = .ofPayload name bytes ∧ s.addRead name world = s.addPayload name bytes := by
  obtain ⟨w, bytes, rfl, hw, rfl⟩ := Blob.ofRead_eq_ok h
  exact ⟨bytes, rfl, by simp only [addRead, hw]⟩

/-- A call refuses its scene, or embeds the payload that it has read. -/
theorem call_eq_addPayload [Stack] (s : SceneBuilder) (c : SceneCall) :
    (∃ fault, c.blob = .error fault ∧ (s.call c).outcome = .error fault ∧
      (s.call c).builder = s) ∨
    ∃ owner bytes, c.blob = .ok (.ofPayload owner bytes) ∧
      s.call c = s.addPayload owner bytes := by
  have hread : ∀ name world, s.call c = s.addRead name world → c.blob = Blob.ofRead name world →
      ((∃ fault, c.blob = .error fault ∧ (s.call c).outcome = .error fault ∧
        (s.call c).builder = s) ∨
      ∃ owner bytes, c.blob = .ok (.ofPayload owner bytes) ∧
        s.call c = s.addPayload owner bytes) := by
    intro name world hcall hblob
    rw [hcall, hblob]
    cases hofRead : Blob.ofRead name world with
    | error fault => exact .inl ⟨fault, rfl, s.addRead_of_error hofRead⟩
    | ok blob =>
      obtain ⟨bytes, rfl, hadd⟩ := s.addRead_of_ok hofRead
      exact .inr ⟨name, bytes, rfl, hadd⟩
  cases c with
  | scene name text => exact hread name _ rfl rfl
  | sceneBytes name bytes => exact hread name _ rfl rfl
  | payload owner bytes => exact .inr ⟨owner, bytes, rfl, rfl⟩

/-- All that a call can do: refuse the scene, keep a blob whose container cannot be written, or
embed the blob. -/
theorem call_cases [Stack] (s : SceneBuilder) (c : SceneCall) :
    (∃ fault, c.blob = .error fault ∧ (s.call c).outcome = .error fault ∧
      (s.call c).builder = s) ∨
    (∃ blob fault, c.blob = .ok blob ∧ s.embed.decodeCall = .error fault ∧
      (s.call c).outcome = .error (.template fault) ∧
      (s.call c).builder = { s with blobs := s.blobs ++ [blob] }) ∨
    (∃ blob decode, c.blob = .ok blob ∧ s.embed.decodeCall = .ok decode ∧
      (s.call c).outcome = .ok blob ∧
      (s.call c).builder = { s with
        builder := s.builder.file none (s.embed.container decode blob)
        blobs := s.blobs ++ [blob] }) := by
  rcases s.call_eq_addPayload c with hrefused | ⟨owner, bytes, hblob, hcall⟩
  · exact .inl hrefused
  · rw [hcall]
    rcases s.addPayload_cases owner bytes with ⟨fault, hdecode, hstep⟩ | ⟨decode, hdecode, hstep⟩
    · exact .inr (.inl ⟨_, fault, hblob, hdecode, hstep⟩)
    · exact .inr (.inr ⟨_, decode, hblob, hdecode, hstep⟩)

/-- A failing call touches nothing but the blobs, and these only if the decoding expression cannot
be filled. -/
theorem call_failed [Stack] {s : SceneBuilder} {c : SceneCall} {fault : EmbedFault}
    (h : (s.call c).outcome = .error fault) :
    (s.call c).builder.builder = s.builder ∧ (s.call c).builder.embed = s.embed ∧
      ((∃ decode, s.embed.decodeCall = .ok decode) → (s.call c).builder = s) := by
  rcases s.call_cases c with ⟨_, -, -, hstate⟩ | ⟨blob, f, -, hdecode, -, hstate⟩ |
    ⟨blob, decode, -, -, houtcome, -⟩
  · rw [hstate]
    exact ⟨rfl, rfl, fun _ => rfl⟩
  · rw [hstate]
    refine ⟨rfl, rfl, ?_⟩
    rintro ⟨decode, hfilled⟩
    rw [hdecode] at hfilled
    cases hfilled
  · rw [houtcome] at h
    cases h

/-! ## Runs -/

theorem ofSettings_builder (settings : UnitSettings) (embed : EmbedSettings) :
    (ofSettings settings embed).builder =
      { Builder.ofSettings settings with
        epilogue := if embed.emitInterface then [embed.writeInterface] else [] } := by
  unfold ofSettings
  by_cases h : embed.emitInterface
  · simp [h, Builder.addEpilogue, Builder.ofSettings]
  · simp [h, Builder.ofSettings]

/-- A new builder that holds these blobs, each with its container in the root. -/
def holding (settings : UnitSettings) (embed : EmbedSettings) (decode : String)
    (blobs : List Blob) : SceneBuilder :=
  let new := ofSettings settings embed
  { new with
    builder := { new.builder with
      namespaces := ⟨settings.root,
        if blobs.isEmpty then [] else [⟨settings.root, blobs.map (embed.container decode)⟩]⟩
      count := blobs.length }
    blobs := blobs }

theorem holding_nil (settings : UnitSettings) (embed : EmbedSettings) (decode : String) :
    holding settings embed decode [] = ofSettings settings embed := by
  unfold holding ofSettings
  by_cases h : embed.emitInterface
  · simp [h, Builder.addEpilogue, Builder.ofSettings, Namespaces.ofRoot]
  · simp [h, Builder.ofSettings, Namespaces.ofRoot]

theorem bodies_holding (settings : UnitSettings) (embed : EmbedSettings) (decode : String)
    (blobs : List Blob) :
    (holding settings embed decode blobs).builder.namespaces.bodies settings.root =
      blobs.map (embed.container decode) := by
  cases blobs <;> simp [holding, Namespaces.bodies]

/-- Embedding one more blob. -/
theorem file_holding (settings : UnitSettings) (embed : EmbedSettings) (decode : String)
    (blobs : List Blob) (blob : Blob) :
    let s := holding settings embed decode blobs
    { s with
      builder := s.builder.file none (embed.container decode blob)
      blobs := s.blobs ++ [blob] } = holding settings embed decode (blobs ++ [blob]) := by
  cases blobs <;> simp [holding, Builder.file, Namespaces.add, Namespaces.target, Namespaces.file]

/-- A call on a builder that holds some blobs. -/
theorem call_holding [Stack] {settings : UnitSettings} {embed : EmbedSettings} {decode : String}
    (hdecode : embed.decodeCall = .ok decode) (blobs : List Blob) (c : SceneCall) :
    ((holding settings embed decode blobs).call c).builder =
      holding settings embed decode (blobs ++ c.blob.toOption.toList) := by
  have hembed : (holding settings embed decode blobs).embed = embed := rfl
  rcases (holding settings embed decode blobs).call_cases c with ⟨fault, hblob, -, hstate⟩ |
    ⟨blob, fault, -, hfault, -, -⟩ | ⟨blob, filled, hblob, hfilled, -, hstate⟩
  · rw [hstate, hblob]
    simp [Except.toOption]
  · rw [hembed, hdecode] at hfault
    cases hfault
  · rw [hembed, hdecode] at hfilled
    cases hfilled
    rw [hstate, hblob]
    exact file_holding settings embed decode blobs blob

theorem run_holding [Stack] {settings : UnitSettings} {embed : EmbedSettings} {decode : String}
    (hdecode : embed.decodeCall = .ok decode) (blobs : List Blob) (calls : List SceneCall) :
    (holding settings embed decode blobs).run calls =
      holding settings embed decode (blobs ++ calls.filterMap fun c => c.blob.toOption) := by
  induction calls generalizing blobs with
  | nil => simp [run]
  | cons c rest ih =>
    rw [run, call_holding hdecode, ih, List.append_assoc]
    cases hblob : c.blob <;> simp [Except.toOption, hblob]

/-- Each call of a run without failures has its blob. -/
theorem blobs_of_accepts [Stack] {s : SceneBuilder} {calls : List SceneCall} (h : s.Accepts calls) :
    ∃ blobs, List.Forall₂ (fun c blob => SceneCall.blob c = .ok blob) calls blobs := by
  induction calls generalizing s with
  | nil => exact ⟨[], .nil⟩
  | cons c rest ih =>
    obtain ⟨⟨blob, houtcome⟩, hrest⟩ := h
    obtain ⟨blobs, hblobs⟩ := ih hrest
    rcases s.call_cases c with ⟨fault, -, hfailed, -⟩ | ⟨b, fault, -, -, hfailed, -⟩ |
      ⟨b, decode, hb, -⟩
    · rw [houtcome] at hfailed
      cases hfailed
    · rw [houtcome] at hfailed
      cases hfailed
    · exact ⟨b :: blobs, .cons hb hblobs⟩

/-- If the decoding expression can be filled, calls that have their blobs do not fail. -/
theorem accepts_of_blobs [Stack] {s : SceneBuilder} {decode : String}
    (hdecode : s.embed.decodeCall = .ok decode) {calls : List SceneCall}
    (h : ∀ c ∈ calls, ∃ blob, c.blob = .ok blob) : s.Accepts calls := by
  induction calls generalizing s with
  | nil => trivial
  | cons c rest ih =>
    obtain ⟨⟨blob, hblob⟩, hrest⟩ := List.forall_mem_cons.mp h
    rcases s.call_cases c with ⟨fault, hfault, -⟩ | ⟨b, fault, -, hfault, -⟩ |
      ⟨b, filled, -, -, houtcome, hstate⟩
    · rw [hblob] at hfault
      cases hfault
    · rw [hdecode] at hfault
      cases hfault
    · refine ⟨⟨b, houtcome⟩, ih ?_ hrest⟩
      rw [hstate]
      exact hdecode

/-- A run without failures on a new builder holds the blobs of its calls. -/
theorem run_of_blobs [Stack] {settings : UnitSettings} {embed : EmbedSettings} {decode : String}
    (hdecode : embed.decodeCall = .ok decode) {calls : List SceneCall} {blobs : List Blob}
    (h : List.Forall₂ (fun c blob => SceneCall.blob c = .ok blob) calls blobs) :
    (ofSettings settings embed).run calls = holding settings embed decode blobs := by
  have hblobs : calls.filterMap (fun c => c.blob.toOption) = blobs := by
    induction h with
    | nil => rfl
    | cons hb _ ih => rw [List.filterMap_cons, hb, ih]; rfl
  rw [← holding_nil settings embed decode, run_holding hdecode, List.nil_append, hblobs]

/-- Whether there are as many blobs as fragments and as bodies in the root, and each body is the
container of the blob at its place. -/
structure Paired (root : String) (s : SceneBuilder) : Prop where
  count : s.blobs.length = s.builder.count
  bodies : (s.builder.namespaces.bodies root).length = s.builder.count
  containers : List.Forall₂ (fun blob body => s.embed.writeContainer blob = .ok body) s.blobs
    (s.builder.namespaces.bodies root)

theorem paired_holding (settings : UnitSettings) {embed : EmbedSettings} {decode : String}
    (hdecode : embed.decodeCall = .ok decode) (blobs : List Blob) :
    Paired settings.root (holding settings embed decode blobs) where
  count := rfl
  bodies := by
    rw [bodies_holding, List.length_map]
    rfl
  containers := by
    rw [bodies_holding, List.forall₂_map_right_iff]
    refine List.forall₂_same.mpr fun blob _ => ?_
    rw [EmbedSettings.writeContainer_eq]
    show Except.map _ embed.decodeCall = _
    rw [hdecode]
    rfl

/-! ## The main statements -/

/-- **A scene is taken whole or not at all, if the decoding expression can be filled.** No failing
call touches the namespaces, the imports, the declarations or the count of fragments; that it never
touches the blobs either is the same as that the expression can be filled. Then blobs, fragments and
bodies go together after any calls on a new builder, failing or not. -/
theorem failed_call_unchanged [Stack] (embed : EmbedSettings) :
    (∀ (s : SceneBuilder) (c : SceneCall) (fault : EmbedFault),
      (s.call c).outcome = .error fault →
        (s.call c).builder.builder = s.builder ∧ (s.call c).builder.embed = s.embed) ∧
    ((∀ (s : SceneBuilder) (c : SceneCall) (fault : EmbedFault), s.embed = embed →
      (s.call c).outcome = .error fault → (s.call c).builder = s) ↔
        ∃ decode, embed.decodeCall = .ok decode) ∧
    ((∃ decode, embed.decodeCall = .ok decode) →
      ∀ (settings : UnitSettings) (calls : List SceneCall),
        Paired settings.root ((ofSettings settings embed).run calls)) := by
  refine ⟨fun s c fault h => ⟨(call_failed h).1, (call_failed h).2.1⟩, ⟨?_, ?_⟩, ?_⟩
  · intro hwhole
    cases hdecode : embed.decodeCall with
    | ok decode => exact ⟨decode, rfl⟩
    | error fault =>
      let s := ofSettings AssetKind.scenes.settings embed
      rcases s.addPayload_cases "" [] with ⟨f, -, houtcome, hstate⟩ | ⟨decode, hfilled, -⟩
      · have hsame := hwhole s (.payload "" []) _ rfl houtcome
        have hblobs := congrArg (fun b => b.blobs.length) (hstate.symm.trans hsame)
        simp at hblobs
      · have hembed : s.embed = embed := rfl
        rw [hembed, hdecode] at hfilled
        cases hfilled
  · rintro ⟨decode, hdecode⟩ s c fault hembed hfailed
    exact (call_failed hfailed).2.2 ⟨decode, by rw [hembed, hdecode]⟩
  · rintro ⟨decode, hdecode⟩ settings calls
    have hrun : (holding settings embed decode []).run calls = _ := run_holding hdecode [] calls
    rw [holding_nil] at hrun
    rw [hrun]
    exact paired_holding settings hdecode _

/-- The usual expression can be filled, so that runs with it keep blobs and bodies together. -/
theorem failed_call_unchanged_usual :
    EmbedSettings.usual.decodeCall =
        .ok "JsonDocument.Parse(Convert.FromBase64String(Base64WorldContents))" ∧
      ∀ (settings : UnitSettings) (calls : List SceneCall),
        Paired settings.root ((ofSettings settings .usual).run calls) := by
  have hdecode := EmbedSettings.decodeCall_usual
  exact ⟨hdecode, (failed_call_unchanged .usual).2.2 ⟨_, hdecode⟩⟩

/-- With a brace that nothing closes, a failing call leaves its blob behind. -/
theorem failed_payload_kept :
    let s := ofSettings AssetKind.scenes.settings
      { EmbedSettings.usual with decodeExpression := "\x7b" }
    let step := s.call (.payload "a.yaml" [120])
    step.outcome = .error (.template .malformed) ∧ s.blobs = [] ∧
      step.builder.blobs = [⟨"a.yaml", "eA=="⟩] ∧ step.builder.builder.count = 0 := by
  intro s step
  have hdecode : s.embed.decodeCall = .error .malformed := by decide +kernel
  have hwrite := s.embed.writeContainer_eq (.ofPayload "a.yaml" [120])
  rw [hdecode] at hwrite
  have hstep : step = ⟨{ s with blobs := s.blobs ++ [.ofPayload "a.yaml" [120]] },
      s.notices (.ofPayload "a.yaml" [120]) [120], .error (.template .malformed)⟩ := by
    simp only [step, call, addPayload, hwrite, Except.map]
  rw [hstep]
  exact ⟨rfl, rfl, by decide +kernel, rfl⟩

end SceneBuilder

end Assemblage
