import Assemblage.Proofs.Build.Literals
import Mathlib.Data.List.DropRight

/-!
# Members of a container

`declared?` reads off a line the name that it declares. A container that is written with the usual
settings declares itself and three members: the constant, the field behind the accessor, and the
accessor (`declaredNames_container`). The names of the container and of the field both begin with
an underscore. They agree for one name of an owner, up to its first point
(`container_eq_field_iff`); then the container has a member with its own name
(`container_named_world`).

Main statement: `container_members`.
-/

namespace Assemblage
set_option autoImplicit false
open Assemblage.Text

/-! ## Declarations -/

/-- Whether a line declares something: an access modifier stands behind its indentation. -/
def isDeclaration (line : List Char) : Bool :=
  let s := line.dropWhile (· == ' ')
  "public ".toList.isPrefixOf s || "private ".toList.isPrefixOf s

/-- The name that a line declares: its last word, or the last word in front of an equals sign. -/
def declared? (line : List Char) : Option (List Char) :=
  if isDeclaration line then
    some (((line.takeWhile (· != '=')).rdropWhile (· == ' ')).rtakeWhile (· != ' '))
  else none

/-- The names that the lines of a text declare. -/
def declaredNames (text : String) : List (List Char) :=
  ((physicalLines text.toList).map Line.content).filterMap declared?

theorem declared?_ofList {line name : List Char} (h : declared? line = some name) :
    declared? (String.ofList line).toList = some (String.ofList name).toList := by
  rw [String.toList_ofList, String.toList_ofList, h]

/-- A line without an equals sign declares its last word. -/
theorem declared?_word {front name : List Char} (hfront : ∀ c ∈ front, (c != '=') = true)
    (hne : name ≠ []) (hname : ∀ c ∈ name, c ≠ '=' ∧ c ≠ ' ')
    (hdeclaration : isDeclaration (front ++ ' ' :: name) = true) :
    declared? (front ++ ' ' :: name) = some name := by
  have htake : (front ++ ' ' :: name).takeWhile (· != '=') = front ++ ' ' :: name := by
    rw [List.takeWhile_eq_self_iff, List.forall_mem_append, List.forall_mem_cons]
    exact ⟨hfront, by decide, fun c hc => by simpa using (hname c hc).1⟩
  have hdrop : (front ++ ' ' :: name).rdropWhile (· == ' ') = front ++ ' ' :: name := by
    rw [List.rdropWhile_eq_self_iff]
    intro h
    rw [List.getLast_append_of_right_ne_nil _ _ (List.cons_ne_nil ' ' name), List.getLast_cons hne]
    simpa using (hname _ (List.getLast_mem hne)).2
  have hlast : (front ++ ' ' :: name).rtakeWhile (· != ' ') = name := by
    have hreverse : (front ++ ' ' :: name).reverse = name.reverse ++ ' ' :: front.reverse := by
      simp
    rw [List.rtakeWhile, hreverse, takeWhile_append_stop, List.reverse_reverse]
    · intro c hc
      simpa using (hname c (List.mem_reverse.mp hc)).2
    · rintro c ⟨⟩
      decide
  rw [declared?, if_pos hdeclaration, htake, hdrop, hlast]

/-! ## Names of containers -/

namespace Blob

theorem isAlnum_eq_false {d : Char} (hd : d ∈ ['_', '=', ' ']) : isAlnum d = false := by
  have hall : (['_', '=', ' '].all fun d => !isAlnum d) = true := by decide +kernel
  simpa using List.all_eq_true.mp hall d hd

theorem nameChar_ne {d : Char} (halnum : isAlnum d = false) (hd : d ≠ '_') (c : Char) :
    nameChar c ≠ d := by
  unfold nameChar
  split
  · next hc =>
    rintro rfl
    rw [halnum, Bool.false_or, beq_iff_eq] at hc
    exact hd hc
  · exact hd.symm

theorem nameChar_of_ne {c : Char} (h : nameChar c ≠ '_') : nameChar c = c := by
  unfold nameChar at h ⊢
  split
  · rfl
  · next hc =>
    rw [if_neg hc] at h
    exact absurd rfl h

/-- A name of letters and numbers comes from no other text. -/
theorem map_nameChar_eq_iff {s name : List Char} (h : ∀ c ∈ name, isAlnum c = true) :
    s.map nameChar = name ↔ s = name := by
  constructor
  · intro hs
    have hself : ∀ c ∈ s, nameChar c = c := by
      intro c hc
      refine nameChar_of_ne fun hunderscore => ?_
      have halnum := h (nameChar c) (hs ▸ List.mem_map_of_mem hc)
      rw [hunderscore, isAlnum_eq_false (by decide)] at halnum
      cases halnum
    rw [← hs, List.map_congr_left hself, List.map_id']
  · rintro rfl
    have hself : ∀ c ∈ s, nameChar c = c := fun c hc => by simp [nameChar, h c hc]
    rw [List.map_congr_left hself, List.map_id']

theorem stem_eq_world_iff {owner : List Char} :
    stem owner = "world".toList ↔ owner.takeWhile (· != '.') = "world".toList := by
  unfold stem
  by_cases h : owner.takeWhile (· != '.') = []
  · rw [h]
    decide
  · have hempty : ¬ (owner.takeWhile (· != '.')).isEmpty = true := by simpa using h
    rw [if_neg hempty]

/-- The one name of an owner for which the container is named like the field in it. -/
theorem container_eq_field_iff (b : Blob) :
    b.container = EmbedSettings.usual.lazyField ↔
      b.owner.toList.takeWhile (· != '.') = "world".toList := by
  have hworld : "world".toList = ['w', 'o', 'r', 'l', 'd'] := String.toList_ofList
  have hfield : EmbedSettings.usual.lazyField = String.ofList ('_' :: "world".toList) := by
    rw [EmbedSettings.lazyField_usual, hworld]
  have halnum : ∀ c ∈ "world".toList, isAlnum c = true := by
    rw [hworld]
    exact List.all_eq_true.mp (by decide)
  rw [container, containerChars, hfield, String.ofList_inj, List.cons_inj_right,
    map_nameChar_eq_iff halnum, stem_eq_world_iff]

/-- The name of a container is one word, without an equals sign. -/
theorem container_word (b : Blob) : ∀ c ∈ b.container.toList, c ≠ '=' ∧ c ≠ ' ' := by
  rw [container, String.toList_ofList]
  refine List.forall_mem_cons.mpr ⟨by decide, fun c hc => ?_⟩
  obtain ⟨a, -, rfl⟩ := List.mem_map.mp hc
  exact ⟨nameChar_ne (isAlnum_eq_false (by decide)) (by decide) a,
    nameChar_ne (isAlnum_eq_false (by decide)) (by decide) a⟩

theorem container_ne (b : Blob) {c : Char} {rest : List Char} (hc : c ≠ '_') :
    b.container ≠ String.ofList (c :: rest) := by
  rw [container, containerChars, Ne, String.ofList_inj, List.cons.injEq]
  exact fun h => hc h.1.symm

end Blob

/-! ## The members of a container -/

namespace EmbedSettings

theorem writeContainer_usual (b : Blob) :
    usual.writeContainer b = .ok (usual.container usualDecode b) := by
  rw [writeContainer_eq, decodeCall_usual]
  rfl

theorem declared?_class (b : Blob) :
    declared? ("public static class " ++ b.container).toList = some b.container.toList := by
  have hfront : "public static class ".toList =
      ['p', 'u', 'b', 'l', 'i', 'c', ' ', 's', 't', 'a', 't', 'i', 'c', ' ', 'c', 'l', 'a', 's', 's']
        ++ [' '] := String.toList_ofList
  have hne : b.container.toList ≠ [] := by
    rw [Blob.container, String.toList_ofList]
    exact List.cons_ne_nil _ _
  rw [String.toList_append, hfront, List.append_assoc]
  exact declared?_word (List.all_eq_true.mp (by decide)) hne b.container_word rfl

theorem declaredNames_container (owner : String) (payload : Bytes) :
    declaredNames (usual.container usualDecode (.ofPayload owner payload)) =
      [(Blob.ofPayload owner payload).container, usual.constantName, usual.lazyField,
        usual.accessorName].map String.toList := by
  have hbase64 := SceneBuilder.unbroken_ofPayload owner payload
  generalize Blob.ofPayload owner payload = b at hbase64 ⊢
  have hopening : declared? "\x7b".toList = none := by decide
  have hconstant : declared? ("    public const string Base64WorldContents = \"" ++ b.base64 ++
      "\";").toList = some "Base64WorldContents".toList := by
    rw [String.toList_append, String.toList_append,
      show "    public const string Base64WorldContents = \"".toList = _ from String.toList_ofList,
      show "Base64WorldContents".toList = _ from String.toList_ofList]
    rfl
  have hfield : declared? "    private static readonly Lazy<JsonDocument> _world =".toList =
      some "_world".toList := declared?_ofList (by decide)
  have hcall : declared? ("        new Lazy<JsonDocument>(() => " ++ usualDecode ++ ");").toList =
      none := by
    rw [String.toList_append, String.toList_append,
      show "        new Lazy<JsonDocument>(() => ".toList = _ from String.toList_ofList]
    rfl
  have haccessor : declared? "    public static JsonDocument World => _world.Value;".toList =
      some "World".toList := declared?_ofList (by decide)
  have hclosing : declared? "\x7d".toList = none := by decide
  have hunbroken : ∀ l ∈ usual.containerLines usualDecode b, Unbroken l :=
    SceneBuilder.unbroken_containerLines (unbroken_ofList (by decide)) hbase64
  rw [container_lines, declaredNames, contents_linesText hunbroken, containerLines_usual,
    lazyField_usual]
  simp only [List.map_cons, List.map_nil]
  rw [List.filterMap_cons_some (declared?_class b), List.filterMap_cons_none hopening,
    List.filterMap_cons_some hconstant, List.filterMap_cons_some hfield,
    List.filterMap_cons_none hcall, List.filterMap_cons_some haccessor,
    List.filterMap_cons_none hclosing, List.filterMap_nil]
  rfl

/-- **The members of a container** with the usual settings: the source of a payload declares a
container, a constant, a field and an accessor. The three members have different names, the
container is named like neither the constant nor the accessor, and it is named like the field
exactly if the owner's name up to its first point is the accessor's name in lower case. -/
theorem container_members (owner : String) (payload : Bytes) :
    ∃ text container constant field accessor,
      usual.writeContainer (.ofPayload owner payload) = .ok text ∧
      declaredNames text = [container, constant, field, accessor] ∧
      [constant, field, accessor].Nodup ∧ container ≠ constant ∧ container ≠ accessor ∧
      (container = field ↔ owner.toList.takeWhile (· != '.') = "world".toList) := by
  have hconstant : (Blob.ofPayload owner payload).container ≠ usual.constantName :=
    Blob.container_ne _ (show 'B' ≠ '_' by decide)
  have haccessor : (Blob.ofPayload owner payload).container ≠ usual.accessorName :=
    Blob.container_ne _ (show 'W' ≠ '_' by decide)
  have hdistinct : ([usual.constantName, usual.lazyField, usual.accessorName].map
      String.toList).Nodup := by
    rw [List.nodup_map_iff fun _ _ => String.toList_injective, lazyField_usual]
    decide
  refine ⟨_, _, _, _, _, writeContainer_usual _, declaredNames_container owner payload, hdistinct,
    ?_, ?_, ?_⟩
  · rwa [Ne, String.toList_inj]
  · rwa [Ne, String.toList_inj]
  · rw [String.toList_inj]
    exact Blob.container_eq_field_iff _

/-- A container with a member of its own name. -/
theorem container_named_world :
    ∃ text, usual.writeContainer (.ofPayload "world.yaml" []) = .ok text ∧
      declaredNames text =
        ["_world", "Base64WorldContents", "_world", "World"].map String.toList := by
  refine ⟨_, writeContainer_usual _, ?_⟩
  have hcontainer : (Blob.ofPayload "world.yaml" []).container = "_world" := by decide +kernel
  rw [declaredNames_container, hcontainer, lazyField_usual]
  rfl

end EmbedSettings

end Assemblage
