import Assemblage.Proofs.Build.Imports
import Assemblage.Proofs.Build.Literals
import Assemblage.Proofs.SourceUnit
import Assemblage.Proofs.Text.Contents

/-!
# Containers that are already there

Many owners share one container: names that differ behind the first point or in characters that no
identifier holds. A scene builder compares the container of each payload with those of all payloads
before it, so a call reports that its container is already there exactly if an earlier call had the
same one (`reported_of_accepts`). The source of the builder declares the containers of all calls in
order (`source_holding_texts`), and where neither the settings nor the texts around the containers
declare any themselves they can be read off its lines (`containersIn_holding`).

Main statement: `repeats_reported`.
-/

namespace Assemblage
set_option autoImplicit false
open Assemblage.Text

/-! ## Steps of a run -/

/-- Whether the notice says that a container is already there. -/
def Notice.isSameContainer : Notice → Bool
  | sameContainer .. => true
  | _ => false

/-- The notices of a step that say so. -/
def SceneStep.repeats {α : Type} (step : SceneStep α) : List Notice :=
  step.notices.filter Notice.isSameContainer

namespace SceneBuilder

/-- The steps of calls in order. -/
def steps [Stack] (s : SceneBuilder) : List SceneCall → List (SceneStep Blob)
  | [] => []
  | c :: rest => s.call c :: (s.call c).builder.steps rest

theorem run_concat [Stack] (s : SceneBuilder) (calls : List SceneCall) (c : SceneCall) :
    s.run (calls ++ [c]) = ((s.run calls).call c).builder := by
  induction calls generalizing s with
  | nil => rfl
  | cons d rest ih => exact ih _

theorem steps_concat [Stack] (s : SceneBuilder) (calls : List SceneCall) (c : SceneCall) :
    s.steps (calls ++ [c]) = s.steps calls ++ [(s.run calls).call c] := by
  induction calls generalizing s with
  | nil => rfl
  | cons d rest ih => exact congrArg (s.call d :: ·) (ih _)

theorem accepts_concat [Stack] (s : SceneBuilder) (calls : List SceneCall) (c : SceneCall) :
    s.Accepts (calls ++ [c]) ↔
      s.Accepts calls ∧ ∃ blob, ((s.run calls).call c).outcome = .ok blob := by
  induction calls generalizing s with
  | nil => simp [Accepts, run]
  | cons d rest ih => simp only [List.cons_append, Accepts, run, ih, and_assoc]

/-! ## One call -/

theorem repeats_notices (s : SceneBuilder) (blob : Blob) (payload : Bytes) :
    (s.notices blob payload).filter Notice.isSameContainer =
      if blob.container ∈ s.blobs.map Blob.container then
        [.sameContainer blob.owner blob.container]
      else [] := by
  have hempty : (if payload.isEmpty then [Notice.emptyPayload blob.owner] else []).filter
      Notice.isSameContainer = [] := by
    split <;> rfl
  have hmem : s.hasContainer blob.container = true ↔
      blob.container ∈ s.blobs.map Blob.container := by
    simp [hasContainer]
  rw [notices, List.filter_append, hempty, List.nil_append]
  by_cases h : blob.container ∈ s.blobs.map Blob.container
  · rw [if_pos h, if_pos (hmem.mpr h)]
    rfl
  · rw [if_neg h, if_neg (mt hmem.mp h)]
    rfl

theorem addPayload_notices (s : SceneBuilder) (owner : String) (bytes : Bytes) :
    (s.addPayload owner bytes).notices = s.notices (.ofPayload owner bytes) bytes := by
  unfold addPayload
  simp only
  split <;> rfl

/-- A call that does not fail keeps its blob, and reports a repeated container exactly if one of the
blobs before it has the same. -/
theorem call_repeats [Stack] {s : SceneBuilder} {c : SceneCall} {blob : Blob}
    (h : (s.call c).outcome = .ok blob) :
    (s.call c).builder.blobs = s.blobs ++ [blob] ∧
      (s.call c).repeats = if blob.container ∈ s.blobs.map Blob.container then
        [.sameContainer blob.owner blob.container]
      else [] := by
  rcases s.call_eq_addPayload c with ⟨fault, -, hfailed, -⟩ | ⟨owner, bytes, -, hcall⟩
  · rw [hfailed] at h
    cases h
  · rw [hcall] at h ⊢
    rcases s.addPayload_cases owner bytes with ⟨fault, -, hfailed, -⟩ | ⟨decode, -, hok, hstate⟩
    · rw [hfailed] at h
      cases h
    · rw [hok] at h
      cases h
      refine ⟨by rw [hstate], ?_⟩
      rw [SceneStep.repeats, addPayload_notices, repeats_notices]

/-! ## A run -/

/-- Whether steps embed these blobs and report their repeated containers. -/
structure Reported (steps : List (SceneStep Blob)) (blobs : List Blob) : Prop where
  outcomes : List.Forall₂ (fun step blob => step.outcome = .ok blob) steps blobs
  /-- A step reports its container exactly if an earlier one has it. -/
  each : ∀ (k : Nat) (step : SceneStep Blob) (blob : Blob),
    steps[k]? = some step → blobs[k]? = some blob →
      step.repeats = if blob.container ∈ (blobs.take k).map Blob.container then
        [.sameContainer blob.owner blob.container]
      else []
  distinct : (blobs.map Blob.container).Nodup ↔ ∀ step ∈ steps, step.repeats = []
  count : (steps.flatMap SceneStep.repeats).length +
    (blobs.map Blob.container).eraseDups.length = steps.length

theorem reported_nil : Reported [] [] where
  outcomes := .nil
  each := by simp
  distinct := by simp
  count := rfl

theorem Reported.concat {steps : List (SceneStep Blob)} {blobs : List Blob}
    (h : Reported steps blobs) {step : SceneStep Blob} {blob : Blob}
    (houtcome : step.outcome = .ok blob)
    (hrepeats : step.repeats = if blob.container ∈ blobs.map Blob.container then
      [.sameContainer blob.owner blob.container] else []) :
    Reported (steps ++ [step]) (blobs ++ [blob]) where
  outcomes := List.rel_append h.outcomes (.cons houtcome .nil)
  each := by
    have hlength : steps.length = blobs.length := h.outcomes.length_eq
    intro k step' blob' hstep hblob
    by_cases hk : k < blobs.length
    · rw [List.getElem?_append_left (by omega)] at hstep
      rw [List.getElem?_append_left hk] at hblob
      rw [List.take_append_of_le_length (by omega)]
      exact h.each k step' blob' hstep hblob
    · have hlast : k = blobs.length := by
        have hbound := (List.getElem?_eq_some_iff.mp hblob).1
        simp only [List.length_append, List.length_singleton] at hbound
        omega
      subst hlast
      rw [← hlength, List.getElem?_concat_length] at hstep
      rw [List.getElem?_concat_length] at hblob
      cases hstep
      cases hblob
      rw [List.take_left]
      exact hrepeats
  distinct := by
    have hnew : step.repeats = [] ↔ blob.container ∉ blobs.map Blob.container := by
      rw [hrepeats]
      split <;> simp_all
    rw [List.map_append, List.map_singleton, List.nodup_append_comm, List.singleton_append,
      List.nodup_cons, h.distinct, List.forall_mem_append, ← hnew]
    simp [and_comm]
  count := by
    have hcount := h.count
    rw [List.map_append, List.map_singleton, eraseDups_concat, List.flatMap_append,
      List.length_append, List.length_append, List.flatMap_singleton, hrepeats]
    by_cases hmem : blob.container ∈ blobs.map Blob.container
    · rw [if_pos hmem, if_pos hmem, List.length_singleton, List.length_singleton]
      omega
    · rw [if_neg hmem, if_neg hmem, List.length_append, List.length_nil, List.length_singleton,
        List.length_singleton]
      omega

/-- **Repeated containers are reported**, by every run without failures on a new builder. -/
theorem reported_of_accepts [Stack] {s : SceneBuilder} (hnew : s.blobs = [])
    {calls : List SceneCall} (h : s.Accepts calls) :
    Reported (s.steps calls) (s.run calls).blobs := by
  induction calls using List.reverseRecOn with
  | nil =>
    rw [run, hnew]
    exact reported_nil
  | append_singleton calls c ih =>
    obtain ⟨haccepts, blob, houtcome⟩ := (s.accepts_concat calls c).mp h
    obtain ⟨hblobs, hrepeats⟩ := call_repeats houtcome
    rw [steps_concat, run_concat, hblobs]
    exact (ih haccepts).concat houtcome hrepeats

end SceneBuilder

/-! ## Containers read off a text -/

/-- The container whose declaration begins with a line. -/
def container? (line : List Char) : Option (List Char) :=
  (line.dropPrefix? "public static class ".toList).filter fun name => name.head? == some '_'

/-- The containers that the lines of a text declare. -/
def containersIn (text : String) : List (List Char) :=
  (filledLines isBreak text.toList).filterMap container?

theorem containersIn_empty : containersIn "" = [] := by
  simp [containersIn, filledLines_nil]

/-- A line feed parts two texts, whatever stands around it. -/
theorem containersIn_seam (s t : String) :
    containersIn (s ++ "\n" ++ t) = containersIn s ++ containersIn t := by
  have hchars : (s ++ "\n" ++ t).toList = s.toList ++ '\n' :: t.toList := by simp
  rw [containersIn, hchars, filledLines_seam (by decide), List.filterMap_append]
  rfl

theorem containersIn_append {s : String} (h : s.toList.getLast? = some '\n') (t : String) :
    containersIn (s ++ t) = containersIn s ++ containersIn t := by
  obtain ⟨front, hfront⟩ := List.getLast?_eq_some_iff.mp h
  have hs : s = String.ofList front ++ "\n" := by
    rw [← String.toList_inj, hfront]
    simp
  have halone : containersIn (String.ofList front ++ "\n") = containersIn (String.ofList front) := by
    rw [← String.append_empty (s := String.ofList front ++ "\n"), containersIn_seam,
      containersIn_empty, List.append_nil]
  rw [hs, containersIn_seam, halone]

theorem containersIn_linesText (ls : List String) (t : String) :
    containersIn (linesText ls ++ t) = ls.flatMap containersIn ++ containersIn t := by
  induction ls with
  | nil => simp [linesText]
  | cons l ls ih =>
    have hfirst : linesText (l :: ls) ++ t = l ++ "\n" ++ (linesText ls ++ t) := by
      simp [linesText, String.join_cons, String.append_assoc]
    rw [hfirst, containersIn_seam, ih, List.flatMap_cons, List.append_assoc]

theorem containersIn_unbroken {l : String} (h : Unbroken l) :
    containersIn l = (container? l.toList).toList := by
  by_cases hl : l.toList = []
  · rw [containersIn, hl, filledLines_nil]
    rfl
  · rw [containersIn, filledLines, cutLines_unbroken hl h]
    simp only [List.map_singleton]
    rw [List.filter_cons_of_pos (by simpa using hl), List.filter_nil]
    cases hname : container? l.toList <;> simp [hname]

/-- Only a declaration of a class begins with the letter of its access modifier. -/
theorem container?_of_head {c : Char} {line : List Char} (hc : c ≠ 'p') :
    container? (c :: line) = none := by
  have hfront : "public static class ".toList = 'p' :: "ublic static class ".toList := by decide
  have hdrop : (c :: line).dropPrefix? "public static class ".toList = none := by
    rw [hfront]
    simp [List.dropPrefix?, hc]
  rw [container?, hdrop]
  rfl

theorem containersIn_of_head {c : Char} {front rest : String}
    (hfront : ∃ s, front.toList = c :: s) (hc : c ≠ 'p') (h : Unbroken (front ++ rest)) :
    containersIn (front ++ rest) = [] := by
  obtain ⟨s, hs⟩ := hfront
  rw [containersIn_unbroken h, String.toList_append, hs, List.cons_append, container?_of_head hc]
  rfl

theorem containersIn_class (b : Blob) :
    containersIn ("public static class " ++ b.container) = [b.container.toList] := by
  have hclass : Unbroken "public static class " := unbroken_ofList (by decide)
  have hunbroken : Unbroken ("public static class " ++ b.container) :=
    unbroken_append.mpr ⟨hclass, SceneBuilder.unbroken_container b⟩
  have hhead : b.container.toList.head? = some '_' := by
    rw [Blob.container, String.toList_ofList]
    rfl
  have hname : container? ("public static class ".toList ++ b.container.toList) =
      some b.container.toList := by
    rw [container?, List.dropPrefix?_append_of_beq _ (beq_self_eq_true _)]
    simp [hhead]
  rw [containersIn_unbroken hunbroken, String.toList_append, hname]
  rfl

/-! ## The containers of a source -/

/-- The declaration of a class with these members. -/
def classText (name members : String) : String :=
  linesText ["public static class " ++ name, "\x7b"] ++ members ++ linesText ["\x7d"]

namespace EmbedSettings

/-- The lines of a container between its braces. -/
def memberLines (s : EmbedSettings) (decode : String) (b : Blob) : List String :=
  ["    public const string " ++ (s.constantName ++ (" = \"" ++ (b.base64 ++ "\";"))),
    "    private static readonly Lazy<" ++ (s.accessorType ++ ("> " ++ (s.lazyField ++ " ="))),
    "        new Lazy<" ++ (s.accessorType ++ (">(() => " ++ (decode ++ ");"))),
    "    public static " ++ (s.accessorType ++ (" " ++ (s.accessorName ++ (" => " ++
      (s.lazyField ++ ".Value;")))))]

theorem containerLines_eq (s : EmbedSettings) (decode : String) (b : Blob) :
    s.containerLines decode b =
      ["public static class " ++ b.container, "\x7b"] ++ s.memberLines decode b ++ ["\x7d"] := by
  simp only [containerLines, memberLines, String.append_assoc, List.cons_append, List.nil_append]

theorem linesText_containerLines (s : EmbedSettings) (decode : String) (b : Blob) :
    linesText (s.containerLines decode b) =
      classText b.container (linesText (s.memberLines decode b)) := by
  rw [containerLines_eq, linesText_append, linesText_append, classText]

end EmbedSettings

theorem SceneCall.blob_eq_ok [Stack] {c : SceneCall} {blob : Blob} (h : c.blob = .ok blob) :
    ∃ owner payload, blob = .ofPayload owner payload := by
  have hread : ∀ name world, Blob.ofRead name world = .ok blob →
      ∃ owner payload, blob = .ofPayload owner payload := by
    intro name world hblob
    obtain ⟨-, bytes, -, -, rfl⟩ := Blob.ofRead_eq_ok hblob
    exact ⟨name, bytes, rfl⟩
  cases c with
  | scene name text => exact hread _ _ h
  | sceneBytes name bytes => exact hread _ _ h
  | payload owner bytes =>
    cases h
    exact ⟨owner, bytes, rfl⟩

namespace SceneBuilder

theorem decodeCall_of_accepts [Stack] {s : SceneBuilder} {c : SceneCall} {calls : List SceneCall}
    (h : s.Accepts (c :: calls)) : ∃ decode, s.embed.decodeCall = .ok decode := by
  obtain ⟨⟨blob, houtcome⟩, -⟩ := h
  rcases s.call_cases c with ⟨fault, -, hfailed, -⟩ | ⟨b, fault, -, -, hfailed, -⟩ |
    ⟨b, decode, -, hdecode, -⟩
  · rw [houtcome] at hfailed
    cases hfailed
  · rw [houtcome] at hfailed
    cases hfailed
  · exact ⟨decode, hdecode⟩

theorem run_of_accepts [Stack] {settings : UnitSettings} {embed : EmbedSettings}
    {calls : List SceneCall} (h : (ofSettings settings embed).Accepts calls) :
    ∃ decode blobs, (blobs ≠ [] → embed.decodeCall = .ok decode) ∧
      (∀ b ∈ blobs, ∃ owner payload, b = Blob.ofPayload owner payload) ∧
      (ofSettings settings embed).run calls = holding settings embed decode blobs := by
  cases calls with
  | nil => exact ⟨"", [], by simp, by simp, (holding_nil settings embed "").symm⟩
  | cons c calls =>
    obtain ⟨decode, hdecode⟩ := decodeCall_of_accepts h
    have hdecode : embed.decodeCall = .ok decode := hdecode
    obtain ⟨blobs, hblobs⟩ := blobs_of_accepts h
    refine ⟨decode, blobs, fun _ => hdecode, ?_, run_of_blobs hdecode hblobs⟩
    have hpayloads := hblobs.flip.imp fun b c hb => SceneCall.blob_eq_ok hb
    exact ((List.forall₂_and_left _ _).mp (hpayloads.imp fun b _ hb => ⟨hb, trivial⟩)).1

/-! ## Settings that write no container -/

/-- Whether the settings write no container themselves: the source without a scene declares none,
and no line of a container is broken. -/
structure Plain (settings : UnitSettings) (embed : EmbedSettings) : Prop where
  source : containersIn (ofSettings settings embed).builder.source = []
  constantName : Unbroken embed.constantName
  accessorType : Unbroken embed.accessorType
  accessorName : Unbroken embed.accessorName
  lazyField : Unbroken embed.lazyField
  decode : ∀ decode, embed.decodeCall = .ok decode → Unbroken decode

theorem containersIn_memberLines {embed : EmbedSettings} {settings : UnitSettings}
    (h : Plain settings embed) {decode : String} (hdecode : embed.decodeCall = .ok decode)
    {b : Blob} (hb : Unbroken b.base64) :
    (embed.memberLines decode b).flatMap containersIn = [] := by
  have hindented : ∀ l ∈ embed.memberLines decode b, containersIn l = [] := by
    have hd := h.decode decode hdecode
    simp only [EmbedSettings.memberLines, List.forall_mem_cons, List.not_mem_nil,
      IsEmpty.forall_iff, implies_true, and_true]
    refine ⟨?_, ?_, ?_, ?_⟩ <;>
      refine containersIn_of_head (c := ' ') ⟨_, String.toList_ofList⟩ (by decide) ?_ <;>
      simp only [unbroken_append, h.constantName, h.accessorType, h.accessorName, h.lazyField, hd,
        hb, true_and] <;>
      and_intros <;> exact unbroken_ofList (by decide)
  rw [List.flatMap_eq_nil_iff]
  exact hindented

theorem containersIn_containers {settings : UnitSettings} {embed : EmbedSettings}
    (h : Plain settings embed) {decode : String} {blobs : List Blob}
    (hdecode : blobs ≠ [] → embed.decodeCall = .ok decode)
    (hb : ∀ b ∈ blobs, Unbroken b.base64) :
    (blobs.flatMap (embed.containerLines decode)).flatMap containersIn =
      blobs.map fun b => b.container.toList := by
  have hbrace : ∀ brace ∈ ["\x7b", "\x7d"], containersIn brace = [] := by
    have hopening : Unbroken "\x7b" := unbroken_ofList (by decide)
    have hclosing : Unbroken "\x7d" := unbroken_ofList (by decide)
    simp only [List.forall_mem_cons, List.not_mem_nil, IsEmpty.forall_iff, implies_true, and_true]
    rw [containersIn_unbroken hopening, containersIn_unbroken hclosing]
    decide
  rw [List.flatMap_assoc, ← List.flatMap_singleton' (blobs.map _), List.flatMap_map]
  refine List.flatMap_congr fun b hmem => ?_
  have hmembers := containersIn_memberLines h (hdecode (List.ne_nil_of_mem hmem)) (hb b hmem)
  rw [embed.containerLines_eq, List.flatMap_append, List.flatMap_append, hmembers]
  simp [containersIn_class, hbrace]

/-- The text of a source in front of the containers. -/
def frontText (settings : UnitSettings) : String :=
  SourceUnit.writeHeader
      ((Imports.ofList (settings.imports.map String.toList)).directives.map String.ofList) ++
    SourceUnit.openBlock settings.root ++ SourceUnit.terminated settings.marker

/-- The text of a source behind the containers. -/
def backText (embed : EmbedSettings) : String :=
  (if embed.emitInterface then linesText embed.interfaceLines else "") ++ SourceUnit.closeBlock

theorem source_holding_texts (settings : UnitSettings) (embed : EmbedSettings) (decode : String)
    (blobs : List Blob) :
    (holding settings embed decode blobs).builder.source =
      frontText settings ++
        (linesText (blobs.flatMap (embed.containerLines decode)) ++ backText embed) := by
  rw [source_holding, frontText, backText]
  simp only [String.append_assoc]

theorem source_ofSettings (settings : UnitSettings) (embed : EmbedSettings) :
    (ofSettings settings embed).builder.source = frontText settings ++ backText embed := by
  rw [← holding_nil settings embed "", source_holding_texts, List.flatMap_nil, linesText,
    List.map_nil, String.join_nil, String.empty_append]

theorem containersIn_frontText (settings : UnitSettings) (t : String) :
    containersIn (frontText settings ++ t) = containersIn (frontText settings) ++ containersIn t := by
  refine containersIn_append ?_ t
  rw [frontText, String.toList_append, List.getLast?_append, SourceUnit.getLast?_terminated]
  rfl

theorem linesText_containers (embed : EmbedSettings) (decode : String) (blobs : List Blob) :
    linesText (blobs.flatMap (embed.containerLines decode)) =
      String.join (List.zipWith classText (blobs.map Blob.container)
        (blobs.map fun b => linesText (embed.memberLines decode b))) := by
  rw [linesText_flatMap, List.zipWith_map, List.zipWith_self]
  simp only [embed.linesText_containerLines]

theorem containersIn_holding {settings : UnitSettings} {embed : EmbedSettings}
    (h : Plain settings embed) {decode : String} {blobs : List Blob}
    (hdecode : blobs ≠ [] → embed.decodeCall = .ok decode)
    (hb : ∀ b ∈ blobs, Unbroken b.base64) :
    containersIn (holding settings embed decode blobs).builder.source =
      blobs.map fun b => b.container.toList := by
  have hnone := h.source
  rw [source_ofSettings, containersIn_frontText, List.append_eq_nil_iff] at hnone
  rw [source_holding_texts, containersIn_frontText, containersIn_linesText, hnone.1, hnone.2,
    containersIn_containers h hdecode hb, List.nil_append, List.append_nil]

/-! ## The main statement -/

/-- **Repeated containers are reported.** In a run without failures on a new builder, a call reports
that its container is already there exactly if an earlier call had the same one, so the containers
are different exactly if nothing is reported, and there are as many reports as calls beyond the
different containers. These containers are the classes that the source declares, in their order:
it is the source of a new builder with one class for each call, and where the settings write no
container themselves, its lines declare no others. -/
theorem repeats_reported [Stack] (settings : UnitSettings) (embed : EmbedSettings)
    (calls : List SceneCall) (h : (ofSettings settings embed).Accepts calls) :
    let new := ofSettings settings embed
    let names := (new.run calls).blobs.map Blob.container
    Reported (new.steps calls) (new.run calls).blobs ∧
      (∃ front back members, members.length = names.length ∧
        new.builder.source = front ++ back ∧
        (new.run calls).builder.source =
          front ++ (String.join (List.zipWith classText names members) ++ back)) ∧
      (Plain settings embed →
        containersIn (new.run calls).builder.source = names.map String.toList) := by
  intro new names
  obtain ⟨decode, blobs, hdecode, hpayloads, hrun⟩ := run_of_accepts h
  have hblobs : (new.run calls).blobs = blobs := by rw [hrun]; rfl
  have hnames : names = blobs.map Blob.container := congrArg (List.map Blob.container) hblobs
  refine ⟨reported_of_accepts rfl h, ⟨frontText settings, backText embed,
    blobs.map fun b => linesText (embed.memberLines decode b), ?_, source_ofSettings settings embed,
    ?_⟩, fun hplain => ?_⟩
  · rw [hnames, List.length_map, List.length_map]
  · rw [hrun, source_holding_texts, hnames, linesText_containers]
  · have hb : ∀ b ∈ blobs, Unbroken b.base64 := by
      intro b hb
      obtain ⟨owner, payload, rfl⟩ := hpayloads b hb
      exact unbroken_ofPayload owner payload
    rw [hrun, containersIn_holding hplain hdecode hb, hnames, List.map_map]
    rfl

theorem plain_usual : Plain AssetKind.scenes.settings .usual where
  source := by
    rw [← holding_nil _ _ EmbedSettings.usualDecode, source_lines,
      ← String.append_empty (s := linesText _), containersIn_linesText, containersIn_empty,
      List.append_nil, List.flatMap_eq_nil_iff]
    have hdecode : Unbroken EmbedSettings.usualDecode := unbroken_ofList (by decide)
    have hlines : ∀ l ∈ sourceLines EmbedSettings.usualDecode [], Unbroken l :=
      unbroken_sourceLines hdecode (by simp)
    intro l hl
    rw [containersIn_unbroken (hlines l hl)]
    revert l
    decide +kernel
  constantName := unbroken_ofList (by decide)
  accessorType := unbroken_ofList (by decide)
  accessorName := unbroken_ofList (by decide)
  lazyField := by
    rw [EmbedSettings.lazyField_usual]
    exact unbroken_ofList (by decide)
  decode := by
    intro decode hdecode
    rw [EmbedSettings.decodeCall_usual] at hdecode
    cases hdecode
    exact unbroken_ofList (by decide)

/-- Owners that share a container: one without a stem and one named like its replacement, and two
that differ in punctuation. -/
theorem repeats_reported_shared :
    let new := ofSettings AssetKind.scenes.settings .usual
    let calls := [SceneCall.payload ".x" [1], .payload "a b" [], .payload "scene.yaml" [2],
      .payload "a-b.yml" []]
    new.Accepts calls ∧ Reported (new.steps calls) (new.run calls).blobs ∧
      containersIn (new.run calls).builder.source =
        ["_scene", "_a_b", "_scene", "_a_b"].map String.toList := by
  intro new calls
  have hblobs : List.Forall₂ (fun c blob => SceneCall.blob c = .ok blob) calls
      [.ofPayload ".x" [1], .ofPayload "a b" [], .ofPayload "scene.yaml" [2],
        .ofPayload "a-b.yml" []] :=
    .cons rfl (.cons rfl (.cons rfl (.cons rfl .nil)))
  have haccepts : new.Accepts calls :=
    accepts_of_blobs (s := new) EmbedSettings.decodeCall_usual (by simp [calls, SceneCall.blob])
  obtain ⟨hreported, -, hcontainers⟩ := repeats_reported _ _ calls haccepts
  refine ⟨haccepts, hreported, ?_⟩
  rw [hcontainers plain_usual, run_of_blobs EmbedSettings.decodeCall_usual hblobs]
  decide +kernel

end SceneBuilder

end Assemblage
