import Assemblage.Proofs.Base64
import Assemblage.Proofs.Build.Scenes
import Assemblage.Proofs.World.Scene

/-!
# Scenes read back from a source

With the usual settings the source of a scene builder is a list of lines: those in front, the lines
of a container for each blob, those of the interface, and a brace (`source_holding`). No name and no
payload can break a line. `literal?` reads the literal of the constant off a line.

Main statement: the literals of the source are those of the scenes that were taken, in their order,
and each is read back as the world of its scene (`embeds_scenes`).
-/

namespace Assemblage
set_option autoImplicit false
open Assemblage.Text

/-! ## Texts made of lines -/

/-- Lines in a row, each with a line feed behind it. -/
def linesText (ls : List String) : String := String.join (ls.map (· ++ "\n"))

theorem linesText_append (ls ms : List String) :
    linesText (ls ++ ms) = linesText ls ++ linesText ms := by
  rw [linesText, List.map_append, String.join_append]
  rfl

theorem linesText_flatMap {α : Type} (f : α → List String) (xs : List α) :
    linesText (xs.flatMap f) = String.join (xs.map fun x => linesText (f x)) := by
  induction xs with
  | nil => rfl
  | cons x xs ih => rw [List.flatMap_cons, linesText_append, ih, List.map_cons, String.join_cons]

/-- Whether a text ends no line. -/
def Unbroken (s : String) : Prop := ∀ c ∈ s.toList, isBreak c = false

instance (s : String) : Decidable (Unbroken s) :=
  decidable_of_iff (s.toList.all fun c => !isBreak c) (by simp [Unbroken])

/-- A literal is taken as the list of its characters; to read it from its bytes is much slower. -/
theorem unbroken_ofList {l : List Char} (h : (l.all fun c => !isBreak c) = true) :
    Unbroken (String.ofList l) := by
  intro c hc
  rw [String.toList_ofList] at hc
  simpa using List.all_eq_true.mp h c hc

theorem unbroken_append {s t : String} : Unbroken (s ++ t) ↔ Unbroken s ∧ Unbroken t := by
  rw [Unbroken, String.toList_append, List.forall_mem_append]
  rfl

theorem contents_linesText {ls : List String} (h : ∀ l ∈ ls, Unbroken l) :
    (physicalLines (linesText ls).toList).map Line.content = ls.map String.toList := by
  have hchars : (linesText ls).toList = (ls.map String.toList).flatMap (· ++ ['\n']) := by
    rw [linesText, String.toList_join, List.flatMap_map, List.flatMap_map]
    congr 1
    funext l
    simp
  rw [hchars]
  exact physicalLines_of_lines (by simpa [Unbroken] using h)

/-! ## The lines of a source -/

namespace EmbedSettings

/-- The lines of a container. -/
def containerLines (s : EmbedSettings) (decode : String) (b : Blob) : List String :=
  ["public static class " ++ b.container, "\x7b",
    "    public const string " ++ s.constantName ++ " = \"" ++ b.base64 ++ "\";",
    "    private static readonly Lazy<" ++ s.accessorType ++ "> " ++ s.lazyField ++ " =",
    "        new Lazy<" ++ s.accessorType ++ ">(() => " ++ decode ++ ");",
    "    public static " ++ s.accessorType ++ " " ++ s.accessorName ++ " => " ++ s.lazyField ++
      ".Value;",
    "\x7d"]

theorem container_lines (s : EmbedSettings) (decode : String) (b : Blob) :
    s.container decode b = linesText (s.containerLines decode b) := by
  have hopening : "\n\x7b\n" = "\n" ++ ("\x7b" ++ "\n") := rfl
  have hconstant : "\";\n" = "\";" ++ "\n" := rfl
  have hfield : " =\n" = " =" ++ "\n" := rfl
  have hcall : ");\n" = ");" ++ "\n" := rfl
  have haccessor : ".Value;\n" = ".Value;" ++ "\n" := rfl
  have hclosing : "\x7d\n" = "\x7d" ++ "\n" := rfl
  simp only [container, containerLines, linesText, List.map_cons, List.map_nil, String.join_cons,
    String.join_nil, String.append_empty, String.append_assoc, hopening, hconstant, hfield, hcall,
    haccessor, hclosing]

theorem lazyField_usual : usual.lazyField = "_world" := by decide +kernel

theorem containerLines_usual (decode : String) (b : Blob) :
    usual.containerLines decode b =
      ["public static class " ++ b.container, "\x7b",
        "    public const string Base64WorldContents = \"" ++ b.base64 ++ "\";",
        "    private static readonly Lazy<JsonDocument> _world =",
        "        new Lazy<JsonDocument>(() => " ++ decode ++ ");",
        "    public static JsonDocument World => _world.Value;", "\x7d"] := by
  rw [containerLines, lazyField_usual]
  rfl

/-- The line that declares the interface. -/
def interfaceHeading (s : EmbedSettings) : String := "public interface " ++ s.interfaceName

/-- The lines of the interface. -/
def interfaceLines (s : EmbedSettings) : List String :=
  [s.interfaceHeading, "\x7b", "    public static string " ++ s.constantName ++ ";",
    "    public static " ++ s.accessorType ++ " " ++ s.accessorName ++ ";", "\x7d"]

theorem interfaceLines_usual :
    usual.interfaceLines =
      ["public interface IWorldDataInterface", "\x7b",
        "    public static string Base64WorldContents;",
        "    public static JsonDocument World;", "\x7d"] :=
  rfl

theorem writeInterface_lines (s : EmbedSettings) :
    s.writeInterface = linesText s.interfaceLines := by
  have hopening : "\n\x7b\n" = "\n" ++ ("\x7b" ++ "\n") := rfl
  have hmember : ";\n" = ";" ++ "\n" := rfl
  have hclosing : "\x7d\n" = "\x7d" ++ "\n" := rfl
  have hheading : s.interfaceHeading = "public interface " ++ s.interfaceName := rfl
  simp only [writeInterface, interfaceLines, hheading, linesText, List.map_cons, List.map_nil,
    String.join_cons, String.join_nil, String.append_empty, String.append_assoc, hopening, hmember,
    hclosing]

end EmbedSettings

theorem terminated_linesText {ls : List String} (h : ls ≠ []) :
    SourceUnit.terminated (linesText ls) = linesText ls := by
  obtain ⟨front, last, rfl⟩ := List.eq_nil_or_concat ls |>.resolve_left h
  have hlast : (linesText (front.concat last)).toList.getLast? = some '\n' := by
    rw [List.concat_eq_append, linesText_append, String.toList_append]
    simp [linesText]
  rw [SourceUnit.terminated, if_pos hlast]

namespace SceneBuilder

theorem join_containers (embed : EmbedSettings) (decode : String) (blobs : List Blob) :
    String.join ((blobs.map (embed.container decode)).map SourceUnit.terminated) =
      linesText (blobs.flatMap (embed.containerLines decode)) := by
  rw [linesText_flatMap, List.map_map]
  refine congrArg String.join (List.map_congr_left fun b _ => ?_)
  have hne : embed.containerLines decode b ≠ [] := List.cons_ne_nil _ _
  rw [Function.comp_apply, embed.container_lines, terminated_linesText hne]

/-- The source of a builder that holds some blobs: the containers stand in the root, behind the
marker and in front of the interface. -/
theorem source_holding (settings : UnitSettings) (embed : EmbedSettings) (decode : String)
    (blobs : List Blob) :
    (holding settings embed decode blobs).builder.source =
      SourceUnit.writeHeader
        ((Imports.ofList (settings.imports.map String.toList)).directives.map String.ofList) ++
      SourceUnit.openBlock settings.root ++ SourceUnit.terminated settings.marker ++
      linesText (blobs.flatMap (embed.containerLines decode)) ++
      (if embed.emitInterface then linesText embed.interfaceLines else "") ++
      SourceUnit.closeBlock := by
  have hinterface : SourceUnit.terminated embed.writeInterface =
      linesText embed.interfaceLines := by
    have hne : embed.interfaceLines ≠ [] := List.cons_ne_nil _ _
    rw [embed.writeInterface_lines, terminated_linesText hne]
  have hscopes : String.join ((if blobs.isEmpty then []
      else [⟨settings.root, blobs.map (embed.container decode)⟩]).map
        (SourceUnit.writeScope settings.root)) =
      linesText (blobs.flatMap (embed.containerLines decode)) := by
    rw [← join_containers]
    cases blobs <;> simp [SourceUnit.writeScope]
  have hepilogue : String.join ((if embed.emitInterface then [embed.writeInterface] else []).map
      SourceUnit.terminated) =
        if embed.emitInterface then linesText embed.interfaceLines else "" := by
    by_cases h : embed.emitInterface <;> simp [h, hinterface]
  simp only [Builder.source, SourceUnit.write, Builder.unit, holding, ofSettings_builder,
    Builder.ofSettings, hscopes, hepilogue]

/-- The lines of a source in front of the containers. -/
def frontLines (s : UnitSettings) : List String :=
  s.imports ++ ["", "namespace " ++ s.root, "\x7b", s.marker]

theorem front_lines {s : UnitSettings} (hmarker : s.marker.toList.getLast? ≠ some '\n') :
    SourceUnit.writeHeader s.imports ++ SourceUnit.openBlock s.root ++
      SourceUnit.terminated s.marker = linesText (frontLines s) := by
  have hopening : "\n\x7b\n" = "\n" ++ ("\x7b" ++ "\n") := rfl
  rw [SourceUnit.terminated, if_neg hmarker, frontLines, linesText_append]
  simp only [SourceUnit.writeHeader, SourceUnit.openBlock, linesText, List.map_cons, List.map_nil,
    String.join_cons, String.join_nil, String.empty_append, String.append_empty,
    String.append_assoc, hopening]

theorem frontLines_scenes :
    frontLines AssetKind.scenes.settings =
      ["using System;", "using System.Diagnostics;", "using DefaultEcs;",
        "using Microsoft.Xna.Framework;", "using System.IO;", "using System.Text.Json;", "",
        "namespace SceneData", "\x7b", "public static class Example\x7b\x7d"] :=
  rfl

/-- The lines of a source with these blobs. -/
def sourceLines (decode : String) (blobs : List Blob) : List String :=
  frontLines AssetKind.scenes.settings ++
    blobs.flatMap (EmbedSettings.usual.containerLines decode) ++
    EmbedSettings.usual.interfaceLines ++ ["\x7d"]

theorem source_lines (decode : String) (blobs : List Blob) :
    (holding AssetKind.scenes.settings .usual decode blobs).builder.source =
      linesText (sourceLines decode blobs) := by
  have himports : (Imports.ofList
      (AssetKind.scenes.settings.imports.map String.toList)).directives.map String.ofList =
        AssetKind.scenes.settings.imports := by
    have hchars : String.toList ∘ String.ofList = id := funext fun _ => String.toList_ofList
    rw [show AssetKind.scenes.settings.imports = List.map String.ofList [_, _, _, _, _, _] from rfl,
      List.map_map, hchars, List.map_id]
    exact congrArg (List.map String.ofList) (by decide +kernel)
  have hmarker : AssetKind.scenes.settings.marker.toList.getLast? ≠ some '\n' := by
    rw [show AssetKind.scenes.settings.marker.toList = _ from String.toList_ofList]
    decide
  rw [source_holding, himports, front_lines hmarker, sourceLines, linesText_append,
    linesText_append, linesText_append]
  rfl

/-! ## No line is broken -/

theorem isBreak_nameChar (c : Char) : isBreak (Blob.nameChar c) = false := by
  by_cases hfeed : c = '\n'
  · subst hfeed
    decide +kernel
  by_cases hreturn : c = '\r'
  · subst hreturn
    decide +kernel
  unfold Blob.nameChar
  split
  · simp [isBreak, hfeed, hreturn]
  · decide

theorem unbroken_container (b : Blob) : Unbroken b.container := by
  intro c hc
  rw [Blob.container, String.toList_ofList] at hc
  rcases List.mem_cons.mp hc with rfl | hc
  · decide
  · obtain ⟨a, -, rfl⟩ := List.mem_map.mp hc
    exact isBreak_nameChar a

theorem isBreak_eq_false {c : Char} (h : isAnyBreak c = false) : isBreak c = false := by
  cases hbreak : isBreak c with
  | false => rfl
  | true => simp [isAnyBreak, hbreak] at h

theorem unbroken_ofPayload (owner : String) (payload : Bytes) :
    Unbroken (Blob.ofPayload owner payload).base64 := by
  intro c hc
  rw [Blob.ofPayload, String.toList_ofList] at hc
  exact isBreak_eq_false (Base64.plain_of_mem_encode hc).2.2.2

theorem unbroken_containerLines {decode : String} (hdecode : Unbroken decode) {b : Blob}
    (hb : Unbroken b.base64) :
    ∀ l ∈ EmbedSettings.usual.containerLines decode b, Unbroken l := by
  simp only [EmbedSettings.containerLines_usual, List.forall_mem_cons, List.not_mem_nil,
    IsEmpty.forall_iff, implies_true, unbroken_append, unbroken_container, hb, hdecode, and_true]
  and_intros <;> exact unbroken_ofList (by decide)

theorem unbroken_sourceLines {decode : String} (hdecode : Unbroken decode) {blobs : List Blob}
    (hblobs : ∀ b ∈ blobs, Unbroken b.base64) :
    ∀ l ∈ sourceLines decode blobs, Unbroken l := by
  have hfront : ∀ l ∈ frontLines AssetKind.scenes.settings, Unbroken l := by
    simp only [frontLines_scenes, List.forall_mem_cons, List.not_mem_nil, IsEmpty.forall_iff,
      implies_true, and_true]
    and_intros <;> exact unbroken_ofList (by decide)
  have hback : ∀ l ∈ EmbedSettings.usual.interfaceLines ++ ["\x7d"], Unbroken l := by
    simp only [EmbedSettings.interfaceLines_usual, List.forall_mem_append, List.forall_mem_cons,
      List.not_mem_nil, IsEmpty.forall_iff, implies_true, and_true]
    and_intros <;> exact unbroken_ofList (by decide)
  rw [sourceLines, List.append_assoc]
  intro l hl
  rcases List.mem_append.mp hl with hl | hl
  · rcases List.mem_append.mp hl with hl | hl
    · exact hfront l hl
    · obtain ⟨b, hb, hl⟩ := List.mem_flatMap.mp hl
      exact unbroken_containerLines hdecode (hblobs b hb) l hl
  · exact hback l hl

end SceneBuilder

/-! ## Literals -/

/-- What stands in front of the literal of a constant, behind the indentation of its line. -/
def literalFront : List Char := "public const string Base64WorldContents = \"".toList

/-- What stands behind it. -/
def literalBack : List Char := "\";".toList

/-- The literal of the constant, if the line declares it. -/
def literal? (line : List Char) : Option (List Char) :=
  ((line.dropWhile (· == ' ')).dropPrefix? literalFront).bind (·.dropSuffix? literalBack)

theorem literalFront_eq : ∃ s, literalFront =
    'p' :: 'u' :: 'b' :: 'l' :: 'i' :: 'c' :: ' ' :: 'c' :: 'o' :: 'n' :: 's' :: 't' :: s :=
  ⟨_, String.toList_ofList⟩

/-- A line declares the constant if it is the declaration with blanks in front of it. -/
theorem literal?_eq_some_iff {line literal : List Char} :
    literal? line = some literal ↔
      ∃ n, line = List.replicate n ' ' ++ (literalFront ++ (literal ++ literalBack)) := by
  rw [literal?, Option.bind_eq_some_iff]
  constructor
  · rintro ⟨s, hfront, hback⟩
    obtain ⟨front, hline, hfronts⟩ := List.dropPrefix?_eq_some_iff.mp hfront
    obtain ⟨back, hs, hbacks⟩ := List.dropSuffix?_eq_some_iff.mp hback
    rw [hs, eq_of_beq hfronts, eq_of_beq hbacks] at hline
    have hblanks : line.takeWhile (· == ' ') =
        List.replicate (line.takeWhile (· == ' ')).length ' ' :=
      List.eq_replicate_of_mem fun c hc => by simpa using List.mem_takeWhile_imp hc
    exact ⟨_, by rw [← hblanks, ← hline, List.takeWhile_append_dropWhile]⟩
  · rintro ⟨n, rfl⟩
    obtain ⟨s, hhead⟩ := literalFront_eq
    have hblanks : ∀ c ∈ List.replicate n ' ', (c == ' ') = true := by simp
    have hstop : ∀ c ∈ (literalFront ++ (literal ++ literalBack)).head?, (c == ' ') = false := by
      rw [hhead]
      rintro c ⟨⟩
      decide
    rw [dropWhile_append_stop hblanks hstop]
    exact ⟨_, List.dropPrefix?_append_of_beq _ (beq_self_eq_true _),
      List.dropSuffix?_eq_some_iff.mpr ⟨_, rfl, beq_self_eq_true _⟩⟩

/-- Whether a line declares something else than a constant. -/
def isOtherLine (line : List Char) : Bool :=
  let front := ['p', 'u', 'b', 'l', 'i', 'c', ' ', 'c', 'o', 'n', 's', 't']
  !front.isPrefixOf (line.dropWhile (· == ' '))

theorem literal?_eq_none {line : List Char} (h : isOtherLine line = true) :
    literal? line = none := by
  rw [literal?, Option.bind_eq_none_iff]
  intro s hs
  obtain ⟨front, hline, hfront⟩ := List.dropPrefix?_eq_some_iff.mp hs
  obtain ⟨t, ht⟩ := literalFront_eq
  rw [isOtherLine, hline, eq_of_beq hfront, ht] at h
  cases h

theorem literal?_ofList {l : List Char} (h : isOtherLine l = true) :
    literal? (String.ofList l).toList = none := by
  rw [String.toList_ofList]
  exact literal?_eq_none h

namespace SceneBuilder

theorem literal?_constant (literal : String) :
    literal? ("    public const string Base64WorldContents = \"" ++ literal ++ "\";").toList =
      some literal.toList := by
  have hfront : "    public const string Base64WorldContents = \"" =
      "    " ++ "public const string Base64WorldContents = \"" := rfl
  have hindent : "    ".toList = List.replicate 4 ' ' := String.toList_ofList
  refine literal?_eq_some_iff.mpr ⟨4, ?_⟩
  rw [hfront, String.toList_append, String.toList_append, String.toList_append, hindent,
    List.append_assoc, List.append_assoc]
  rfl

/-- A container declares one literal, that of its blob. -/
theorem literals_container (decode : String) (b : Blob) :
    ((EmbedSettings.usual.containerLines decode b).map String.toList).filterMap literal? =
      [b.base64.toList] := by
  have hclass : literal? ("public static class " ++ b.container).toList = none := by
    rw [String.toList_append, show "public static class ".toList = _ from String.toList_ofList]
    exact literal?_eq_none rfl
  have hopening : literal? "\x7b".toList = none := literal?_ofList (by decide)
  have hfield : literal? "    private static readonly Lazy<JsonDocument> _world =".toList = none :=
    literal?_ofList (by decide)
  have hdecode : literal? ("        new Lazy<JsonDocument>(() => " ++ decode ++ ");").toList =
      none := by
    rw [String.toList_append, String.toList_append,
      show "        new Lazy<JsonDocument>(() => ".toList = _ from String.toList_ofList]
    exact literal?_eq_none rfl
  have haccessor : literal? "    public static JsonDocument World => _world.Value;".toList =
      none := literal?_ofList (by decide)
  have hclosing : literal? "\x7d".toList = none := literal?_ofList (by decide)
  rw [EmbedSettings.containerLines_usual]
  simp only [List.map_cons, List.map_nil]
  rw [List.filterMap_cons_none hclass, List.filterMap_cons_none hopening,
    List.filterMap_cons_some (literal?_constant _), List.filterMap_cons_none hfield,
    List.filterMap_cons_none hdecode, List.filterMap_cons_none haccessor,
    List.filterMap_cons_none hclosing, List.filterMap_nil]

theorem literals_back :
    ((EmbedSettings.usual.interfaceLines ++ ["\x7d"]).map String.toList).filterMap literal? =
      [] := by
  rw [List.filterMap_map, List.filterMap_eq_nil_iff]
  simp only [EmbedSettings.interfaceLines_usual, List.forall_mem_append, List.forall_mem_cons,
    List.not_mem_nil, IsEmpty.forall_iff, implies_true, and_true, Function.comp_apply]
  and_intros <;> exact literal?_ofList (by decide)

/-- The literals of a source are those of its blobs. -/
theorem literals_sourceLines (decode : String) (blobs : List Blob) :
    ((sourceLines decode blobs).map String.toList).filterMap literal? =
      blobs.map fun b => b.base64.toList := by
  have hfront : ((frontLines AssetKind.scenes.settings).map String.toList).filterMap literal? =
      [] := by
    rw [List.filterMap_map, List.filterMap_eq_nil_iff]
    simp only [frontLines_scenes, List.forall_mem_cons, List.not_mem_nil, IsEmpty.forall_iff,
      implies_true, and_true, Function.comp_apply]
    and_intros <;> exact literal?_ofList (by decide)
  have hcontainers : ((blobs.flatMap (EmbedSettings.usual.containerLines decode)).map
      String.toList).filterMap literal? = blobs.map fun b => b.base64.toList := by
    induction blobs with
    | nil => rfl
    | cons b blobs ih =>
      rw [List.flatMap_cons, List.map_append, List.filterMap_append, literals_container, ih]
      rfl
  rw [sourceLines, List.append_assoc, List.map_append, List.map_append, List.filterMap_append,
    List.filterMap_append, hfront, literals_back, hcontainers, List.nil_append, List.append_nil]

end SceneBuilder

/-! ## The main statement -/

/-- Whether a world is read back from the literal of its scene. -/
structure Recovers [Stack] (literal : List Char) (text : String) : Prop where
  /-- The literal needs no escape. -/
  plain : ∀ c ∈ literal, c ≠ '"' ∧ c ≠ '\\' ∧ isAnyBreak c = false
  world : ∃ w payload w', Scene.read text.toList = .ok w ∧ Base64.decode literal = .ok payload ∧
    Payload.decode payload = .ok w' ∧ w.Alike w'

/-- Whether the lines of a source embed scenes, given by their names and texts. -/
structure Embeds [Stack] (scenes : List (String × String)) (lines : List (List Char)) : Prop where
  literals : List.Forall₂ (fun scene literal => Recovers literal scene.2) scenes
    (lines.filterMap literal?)
  /-- The interface is declared once. -/
  once : lines.count EmbedSettings.usual.interfaceHeading.toList = 1
  /-- It stands behind all literals and in front of the brace that closes the root. -/
  last : ∃ before, lines = before ++
      (EmbedSettings.usual.interfaceLines ++ ["\x7d"]).map String.toList ∧
    before.filterMap literal? = lines.filterMap literal?

namespace SceneBuilder

/-- What the blob of a scene holds. -/
theorem recovers_of_blob [Stack] {name text : String} {blob : Blob}
    (h : (SceneCall.scene name text).blob = .ok blob) : Recovers blob.base64.toList text := by
  obtain ⟨w, bytes, hread, hencode, rfl⟩ := Blob.ofRead_eq_ok h
  have hchars : (Blob.ofPayload name bytes).base64.toList = Base64.encode bytes :=
    String.toList_ofList
  rw [hchars]
  refine ⟨fun c hc => (Base64.plain_of_mem_encode hc).2, w, bytes, w.arranged, hread,
    Base64.decode_encode_bytes bytes, ?_, w.alike_arranged⟩
  exact Payload.decode_of_encode (Scene.proper_of_read hread) hencode

theorem unbroken_of_recovers [Stack] {blob : Blob} {text : String}
    (h : Recovers blob.base64.toList text) : Unbroken blob.base64 :=
  fun c hc => isBreak_eq_false (h.plain c hc).2.2

theorem interfaceHeading_not_mem (decode : String) (b : Blob) :
    EmbedSettings.usual.interfaceHeading ∉ EmbedSettings.usual.containerLines decode b := by
  -- No line of a container starts as the heading does, whatever the names in it are.
  have hlines : ∀ l ∈ EmbedSettings.usual.containerLines decode b,
      "public interface".toList.isPrefixOf l.toList = false := by
    simp only [EmbedSettings.containerLines, List.forall_mem_cons, String.toList_append]
    exact ⟨rfl, rfl, rfl, rfl, rfl, rfl, rfl, by simp⟩
  have hheading : "public interface".toList.isPrefixOf
      EmbedSettings.usual.interfaceHeading.toList = true := by
    have hwords : EmbedSettings.usual.interfaceHeading =
        "public interface" ++ (" " ++ EmbedSettings.usual.interfaceName) := rfl
    rw [hwords, String.toList_append]
    exact List.isPrefixOf_iff_prefix.mpr (List.prefix_append _ _)
  intro hmem
  rw [hlines _ hmem] at hheading
  cases hheading

theorem count_interfaceHeading (decode : String) (blobs : List Blob) :
    ((sourceLines decode blobs).map String.toList).count
      EmbedSettings.usual.interfaceHeading.toList = 1 := by
  have hfront : (frontLines AssetKind.scenes.settings).count
      EmbedSettings.usual.interfaceHeading = 0 := by decide +kernel
  have hback : (EmbedSettings.usual.interfaceLines ++ ["\x7d"]).count
      EmbedSettings.usual.interfaceHeading = 1 := by decide +kernel
  have hcontainers : (blobs.flatMap (EmbedSettings.usual.containerLines decode)).count
      EmbedSettings.usual.interfaceHeading = 0 := by
    rw [List.count_eq_zero]
    intro hmem
    obtain ⟨b, -, hb⟩ := List.mem_flatMap.mp hmem
    exact interfaceHeading_not_mem decode b hb
  rw [List.count_map_of_injective _ _ fun _ _ => String.toList_injective, sourceLines,
    List.append_assoc, List.count_append, List.count_append, hfront, hback, hcontainers]

/-- **A source embeds the scenes that were taken.** After a run of scenes without failures, the
source has one literal for each, in their order, and reads back its world from it; the interface is
declared once, behind them all, right in front of the last brace. -/
theorem embeds_scenes [Stack] (scenes : List (String × String))
    (h : (ofSettings AssetKind.scenes.settings .usual).Accepts (SceneCall.ofScenes scenes)) :
    Embeds scenes ((physicalLines ((ofSettings AssetKind.scenes.settings .usual).run
      (SceneCall.ofScenes scenes)).builder.source.toList).map Line.content) := by
  obtain ⟨blobs, hblobs⟩ := blobs_of_accepts h
  rw [run_of_blobs EmbedSettings.decodeCall_usual hblobs, source_lines]
  rw [SceneCall.ofScenes, List.forall₂_map_left_iff] at hblobs
  have hrecovers : List.Forall₂ (fun scene blob => Recovers blob.base64.toList scene.2) scenes
      blobs := hblobs.imp fun scene blob hblob => recovers_of_blob hblob
  have hunbroken : ∀ b ∈ blobs, Unbroken b.base64 := by
    have hboth := hrecovers.flip.imp fun blob scene hrecovers =>
      And.intro (unbroken_of_recovers hrecovers) hrecovers
    exact ((List.forall₂_and_left _ _).mp hboth).1
  rw [contents_linesText (unbroken_sourceLines (by decide) hunbroken)]
  have hsplit : (sourceLines EmbedSettings.usualDecode blobs).map String.toList =
      (frontLines AssetKind.scenes.settings ++ blobs.flatMap
        (EmbedSettings.usual.containerLines EmbedSettings.usualDecode)).map String.toList ++
      (EmbedSettings.usual.interfaceLines ++ ["\x7d"]).map String.toList := by
    rw [← List.map_append, sourceLines, List.append_assoc]
  refine ⟨?_, count_interfaceHeading _ blobs, _, hsplit, ?_⟩
  · rw [literals_sourceLines, List.forall₂_map_right_iff]
    exact hrecovers
  · rw [hsplit, List.filterMap_append, literals_back, List.append_nil]

theorem exists_blob [Stack] {name text : String} {w : World}
    (hread : Scene.read text.toList = .ok w) (hencode : (Payload.encode w).isOk = true) :
    ∃ blob, (SceneCall.scene name text).blob = .ok blob := by
  cases hpayload : Payload.encode w with
  | error fault =>
    rw [hpayload] at hencode
    cases hencode
  | ok payload =>
    refine ⟨.ofPayload name payload, ?_⟩
    simp only [SceneCall.blob, Blob.ofRead, hread, hpayload]

/-- Two scenes, one with nothing in it and a name that would end a line and a constant. -/
theorem embeds_scenes_pair :
    let scenes := [("a.yaml", "max_capacity: \"3\""), ("b\n\"", "")]
    let s := ofSettings AssetKind.scenes.settings .usual
    s.Accepts (SceneCall.ofScenes scenes) ∧
      Embeds scenes ((physicalLines (s.run
        (SceneCall.ofScenes scenes)).builder.source.toList).map Line.content) := by
  intro scenes s
  have hcapacity : Scene.read "max_capacity: \"3\"".toList = .ok ⟨some 3, []⟩ := by
    rw [Scene.read_capacity (t := RawText.ofString "3") (by decide +kernel)]
    rfl
  have hblobs : ∀ c ∈ SceneCall.ofScenes scenes, ∃ blob, c.blob = .ok blob := by
    simp only [SceneCall.ofScenes, scenes, List.map_cons, List.map_nil, List.forall_mem_cons]
    exact ⟨exists_blob hcapacity (by decide +kernel),
      exists_blob (show Scene.read "".toList = .ok .empty from rfl) (by decide +kernel), by simp⟩
  have haccepts := accepts_of_blobs (s := s) EmbedSettings.decodeCall_usual hblobs
  exact ⟨haccepts, embeds_scenes scenes haccepts⟩

end SceneBuilder

end Assemblage
