import Assemblage.Build.Builder
import Assemblage.Proofs.Build.Imports

/-!
# Builds as one merge

The source of a build can be computed from all its fragments at once: `Merged.text` groups the
bodies by the namespaces that the fragments are aimed at and drops every repetition of a directive,
a namespace or a declaration behind its first occurrence. A builder instead takes its fragments one
by one, and gives its unit and its source whenever it is asked.

Main statement: after any calls, in any order, the source of a builder is the merged text of the
fragments and declarations that were given to it (`run_source`).
-/

namespace Assemblage
set_option autoImplicit false

/-! ## Calls -/

/-- A call on a builder of scripts or systems. -/
inductive BuilderCall where
  | add (f : Fragment)
  | addEpilogue (declaration : String)
  | unit
  | source

/-- What a call gives back. -/
inductive BuilderAnswer where
  | taken (notices : List Notice)
  | unit (u : SourceUnit)
  | source (text : String)

namespace BuilderCall

/-- The fragments among the calls, in order. -/
def fragments (calls : List BuilderCall) : List Fragment :=
  calls.filterMap fun
    | add f => some f
    | _ => none

/-- The declarations among the calls, in order. -/
def declarations (calls : List BuilderCall) : List String :=
  calls.filterMap fun
    | addEpilogue d => some d
    | _ => none

end BuilderCall

namespace Builder

/-- The builder after a call, and the answer. -/
def call (b : Builder) : BuilderCall → Builder × BuilderAnswer
  | .add f => ((b.add f).1, .taken (b.add f).2)
  | .addEpilogue d => (b.addEpilogue d, .taken [])
  | .unit => (b, .unit b.unit)
  | .source => (b, .source b.source)

/-- The builder after calls in order, and every answer. -/
def run (b : Builder) : List BuilderCall → Builder × List BuilderAnswer
  | [] => (b, [])
  | c :: rest =>
    let first := b.call c
    let more := first.1.run rest
    (more.1, first.2 :: more.2)

end Builder

/-! ## The merge of all fragments -/

namespace Merged

/-- The namespace that a fragment is aimed at; no hint and the empty one are the root. -/
def aim (root : String) (f : Fragment) : String := (f.hint.filter (· ≠ "")).getD root

/-- The text of a fragment without its header. -/
def body (g : DirectiveGrammar) (f : Fragment) : String :=
  String.ofList (f.text.toList.drop (Header.extract g f.text.toList).span.stop)

/-- Every directive that a build is given: its own imports, then the headers of the fragments. -/
def given (s : UnitSettings) (fs : List Fragment) : List (List Char) :=
  s.imports.map String.toList ++
    fs.flatMap fun f => (Header.extract s.grammar f.text.toList).directives

def directives (s : UnitSettings) (fs : List Fragment) : List (List Char) :=
  (Imports.normalForms (given s fs)).eraseDups

/-- The namespaces in the order in which they are first aimed at. -/
def names (root : String) (fs : List Fragment) : List String := (fs.map (aim root)).eraseDups

/-- The bodies of the fragments that are aimed at a namespace. -/
def bodies (s : UnitSettings) (fs : List Fragment) (name : String) : List String :=
  (fs.filter fun f => aim s.root f = name).map (body s.grammar)

/-! ### The text -/

/-- A text with a line feed at its end. -/
def ended (text : String) : String :=
  if ['\n'].isSuffixOf text.toList then text else text ++ "\n"

def block (name : String) (inner : List String) : List String :=
  ["namespace ", name, "\n\x7b\n"] ++ inner ++ ["\x7d\n"]

/-- The bodies of one namespace: as they are in the root, in a block of their own elsewhere. -/
def scope (s : UnitSettings) (fs : List Fragment) (name : String) : List String :=
  let inner := (bodies s fs name).map ended
  if name = s.root then inner else block name inner

/-- The whole text: directives, a blank line, and the root block with the marker, the bodies of
every namespace and the declarations. -/
def text (s : UnitSettings) (fs : List Fragment) (ds : List String) : String :=
  String.join ((directives s fs).map (fun d => String.ofList d ++ "\n") ++ ["\n"] ++
    block s.root ([ended s.marker] ++ (names s.root fs).flatMap (scope s fs) ++
      ds.eraseDups.map ended))

end Merged

/-! ## One step -/

namespace Merged

/-- The builder that has taken these fragments and declarations, written down at once. -/
def builder (s : UnitSettings) (fs : List Fragment) (ds : List String) : Builder where
  settings := s
  imports := ⟨directives s fs⟩
  namespaces := ⟨s.root, (names s.root fs).map fun name => ⟨name, bodies s fs name⟩⟩
  epilogue := ds.eraseDups
  count := fs.length

theorem builder_nil (s : UnitSettings) : builder s [] [] = Builder.ofSettings s := by
  have h : directives s [] = (Imports.ofList (s.imports.map String.toList)).directives := by
    rw [Imports.ofList_eq]
    simp [directives, given]
  simp [builder, Builder.ofSettings, h, names, Namespaces.ofRoot]

theorem given_concat (s : UnitSettings) (fs : List Fragment) (f : Fragment) :
    given s (fs ++ [f]) = given s fs ++ (Header.extract s.grammar f.text.toList).directives := by
  simp only [given, List.flatMap_append, List.flatMap_singleton, List.append_assoc]

theorem merge_directives (s : UnitSettings) (fs : List Fragment) (f : Fragment) :
    (Imports.mk (directives s fs)).merge (Header.extract s.grammar f.text.toList).directives =
      ⟨directives s (fs ++ [f])⟩ := by
  unfold directives
  rw [Imports.merge_eraseDups, given_concat, Imports.normalForms_append]

theorem bodies_concat (s : UnitSettings) (fs : List Fragment) (f : Fragment) (name : String) :
    bodies s (fs ++ [f]) name =
      bodies s fs name ++ if aim s.root f = name then [body s.grammar f] else [] := by
  unfold bodies
  rw [List.filter_append, List.map_append]
  by_cases h : aim s.root f = name
  · simp [h]
  · simp [h]

/-- A namespace that nothing is aimed at has no bodies yet. -/
theorem bodies_eq_nil (s : UnitSettings) (fs : List Fragment) (name : String)
    (h : name ∉ fs.map (aim s.root)) : bodies s fs name = [] := by
  have hf : fs.filter (fun f => aim s.root f = name) = [] := by
    rw [List.filter_eq_nil_iff]
    intro f hf ha
    exact h (List.mem_map.mpr ⟨f, hf, by simpa using ha⟩)
  rw [bodies, hf, List.map_nil]

/-- Filing a body among scopes of distinct names. -/
theorem file_map (name text : String) (ns : List String) (hn : ns.Nodup)
    (g : String → List String) :
    Namespaces.file name text (ns.map fun n => ⟨n, g n⟩) =
      if name ∈ ns then ns.map fun n => ⟨n, g n ++ if name = n then [text] else []⟩
      else (ns.map fun n => ⟨n, g n⟩) ++ [⟨name, [text]⟩] := by
  induction ns with
  | nil => rfl
  | cons n ns ih =>
    obtain ⟨hnot, hn⟩ := List.nodup_cons.mp hn
    rw [List.map_cons, Namespaces.file]
    by_cases h : n = name
    · subst h
      have hrest : ∀ m ∈ ns, (⟨m, g m ++ if n = m then [text] else []⟩ : Scope) = ⟨m, g m⟩ := by
        intro m hm
        have hne : n ≠ m := fun e => hnot (e ▸ hm)
        simp [hne]
      simp only [if_true, List.mem_cons, true_or, List.map_cons, List.map_congr_left hrest]
    · have hne : name ≠ n := fun e => h e.symm
      rw [if_neg h, ih hn]
      by_cases hm : name ∈ ns
      · simp [hm, hne]
      · simp [hm, hne]

theorem file_scopes (s : UnitSettings) (fs : List Fragment) (f : Fragment) :
    Namespaces.file (aim s.root f) (body s.grammar f)
        ((names s.root fs).map fun name => ⟨name, bodies s fs name⟩) =
      (names s.root (fs ++ [f])).map fun name => ⟨name, bodies s (fs ++ [f]) name⟩ := by
  have hmem : ∀ name, name ∈ names s.root fs ↔ name ∈ fs.map (aim s.root) := by
    intro name
    exact List.mem_eraseDups
  have hnodup : (names s.root fs).Nodup := nodup_eraseDups _
  rw [file_map _ _ _ hnodup]
  simp only [bodies_concat]
  unfold names at hmem ⊢
  rw [List.map_append, List.map_singleton, eraseDups_concat]
  by_cases h : aim s.root f ∈ fs.map (aim s.root)
  · rw [if_pos ((hmem _).mpr h), if_pos h]
  · have hnew : bodies s fs (aim s.root f) = [] := bodies_eq_nil s fs _ h
    have hold : ∀ name ∈ (fs.map (aim s.root)).eraseDups, aim s.root f ≠ name := by
      intro name hname he
      exact h ((hmem _).mp (he ▸ hname))
    rw [if_neg fun hm => h ((hmem _).mp hm), if_neg h, List.map_append, List.map_singleton, hnew]
    congr 1
    · apply List.map_congr_left
      intro name hname
      simp [hold name hname]
    · simp

theorem target_eq_aim (s : UnitSettings) (scopes : List Scope) (f : Fragment) :
    (Namespaces.mk s.root scopes).target f.hint = aim s.root f := by
  unfold Namespaces.target aim
  cases f.hint with
  | none => rfl
  | some name =>
    by_cases h : name = ""
    · subst h
      rfl
    · simp [Option.filter, h]

theorem add_builder (s : UnitSettings) (fs : List Fragment) (ds : List String) (f : Fragment) :
    ((builder s fs ds).add f).1 = builder s (fs ++ [f]) ds := by
  have himports := merge_directives s fs f
  have hscopes := file_scopes s fs f
  simp only [builder, Builder.add, Builder.file, Builder.extract, Extraction.body, Namespaces.add,
    target_eq_aim, himports]
  simp only [body] at hscopes
  rw [hscopes, List.length_append, List.length_singleton]

theorem addEpilogue_builder (s : UnitSettings) (fs : List Fragment) (ds : List String)
    (d : String) : (builder s fs ds).addEpilogue d = builder s fs (ds ++ [d]) := by
  unfold Builder.addEpilogue
  simp only [builder, eraseDups_concat, List.contains_iff_mem, List.mem_eraseDups]
  by_cases h : d ∈ ds
  · simp [h]
  · simp [h]

/-! ## The text of a merged builder -/

theorem ended_eq (text : String) : ended text = SourceUnit.terminated text := by
  have h : ['\n'].isSuffixOf text.toList = true ↔ text.toList.getLast? = some '\n' := by
    rw [List.isSuffixOf_iff_suffix, List.getLast?_eq_some_iff]
    constructor
    · rintro ⟨t, ht⟩
      exact ⟨t, ht.symm⟩
    · rintro ⟨t, ht⟩
      exact ⟨t, ht.symm⟩
  unfold ended SourceUnit.terminated
  by_cases hl : text.toList.getLast? = some '\n'
  · rw [if_pos hl, if_pos (h.mpr hl)]
  · rw [if_neg hl, if_neg fun he => hl (h.mp he)]

theorem join_block (name : String) (inner : List String) :
    String.join (block name inner) =
      SourceUnit.openBlock name ++ String.join inner ++ SourceUnit.closeBlock := by
  simp only [block, SourceUnit.openBlock, SourceUnit.closeBlock, String.join_append,
    String.join_cons, String.join_nil, String.append_empty, String.append_assoc]

theorem join_scope (s : UnitSettings) (fs : List Fragment) (name : String) :
    String.join (scope s fs name) = SourceUnit.writeScope s.root ⟨name, bodies s fs name⟩ := by
  have hinner : (bodies s fs name).map ended = (bodies s fs name).map SourceUnit.terminated :=
    List.map_congr_left fun text _ => ended_eq text
  unfold scope SourceUnit.writeScope
  rw [hinner]
  by_cases h : name = s.root
  · simp [h]
  · simp [h, join_block]

theorem join_scopes (s : UnitSettings) (fs : List Fragment) (ns : List String) :
    String.join (ns.flatMap (scope s fs)) =
      String.join ((ns.map fun name => ⟨name, bodies s fs name⟩).map
        (SourceUnit.writeScope s.root)) := by
  induction ns with
  | nil => rfl
  | cons name ns ih =>
    rw [List.flatMap_cons, String.join_append, ih, join_scope]
    simp only [List.map_cons, String.join_cons]

theorem source_builder (s : UnitSettings) (fs : List Fragment) (ds : List String) :
    (builder s fs ds).source = text s fs ds := by
  have hheader : (directives s fs).map (fun d => String.ofList d ++ "\n") =
      ((directives s fs).map String.ofList).map (· ++ "\n") := by
    rw [List.map_map]
    rfl
  have hepilogue : ds.eraseDups.map ended = ds.eraseDups.map SourceUnit.terminated :=
    List.map_congr_left fun d _ => ended_eq d
  unfold text Builder.source SourceUnit.write
  rw [hheader, hepilogue]
  simp only [String.join_append, join_block, join_scopes, ended_eq, String.join_cons,
    String.join_nil, String.append_empty, String.append_assoc]
  simp only [builder, Builder.unit, SourceUnit.writeHeader, String.append_assoc]

/-! ## Runs -/

theorem call_builder (s : UnitSettings) (fs : List Fragment) (ds : List String) (c : BuilderCall) :
    ((builder s fs ds).call c).1 =
      builder s (fs ++ BuilderCall.fragments [c]) (ds ++ BuilderCall.declarations [c]) := by
  cases c with
  | add f =>
    simp only [Builder.call, BuilderCall.fragments, BuilderCall.declarations]
    simpa using add_builder s fs ds f
  | addEpilogue d =>
    simp only [Builder.call, BuilderCall.fragments, BuilderCall.declarations]
    simpa using addEpilogue_builder s fs ds d
  | unit => simp [Builder.call, BuilderCall.fragments, BuilderCall.declarations]
  | source => simp [Builder.call, BuilderCall.fragments, BuilderCall.declarations]

theorem run_builder (s : UnitSettings) (fs : List Fragment) (ds : List String)
    (calls : List BuilderCall) :
    ((builder s fs ds).run calls).1 =
      builder s (fs ++ BuilderCall.fragments calls) (ds ++ BuilderCall.declarations calls) := by
  induction calls generalizing fs ds with
  | nil => simp [Builder.run, BuilderCall.fragments, BuilderCall.declarations]
  | cons c rest ih =>
    have hf : BuilderCall.fragments (c :: rest) =
        BuilderCall.fragments [c] ++ BuilderCall.fragments rest :=
      List.filterMap_append (l := [c])
    have hd : BuilderCall.declarations (c :: rest) =
        BuilderCall.declarations [c] ++ BuilderCall.declarations rest :=
      List.filterMap_append (l := [c])
    rw [Builder.run]
    simp only [call_builder, ih]
    rw [hf, hd, List.append_assoc, List.append_assoc]

/-- The builder after any calls on a new one. -/
theorem run_ofSettings (s : UnitSettings) (calls : List BuilderCall) :
    ((Builder.ofSettings s).run calls).1 =
      builder s (BuilderCall.fragments calls) (BuilderCall.declarations calls) := by
  have hrun := run_builder s [] [] calls
  rw [builder_nil, List.nil_append, List.nil_append] at hrun
  exact hrun

end Merged

/-! ## The main statement -/

theorem Builder.run_append (b : Builder) (calls more : List BuilderCall) :
    b.run (calls ++ more) =
      (((b.run calls).1.run more).1, (b.run calls).2 ++ ((b.run calls).1.run more).2) := by
  induction calls generalizing b with
  | nil => rfl
  | cons c rest ih => simp only [List.cons_append, Builder.run, ih]

/-- **The source after any calls is the merged text of all fragments and declarations.** Neither
units nor sources that were asked for on the way matter, and a last call for the source answers
with that text. -/
theorem Builder.run_source (s : UnitSettings) (calls : List BuilderCall) :
    let text := Merged.text s (BuilderCall.fragments calls) (BuilderCall.declarations calls)
    ((Builder.ofSettings s).run calls).1.source = text ∧
      ((Builder.ofSettings s).run (calls ++ [.source])).2.getLast? = some (.source text) := by
  intro text
  have hsource : ((Builder.ofSettings s).run calls).1.source = text := by
    rw [Merged.run_ofSettings, Merged.source_builder]
  refine ⟨hsource, ?_⟩
  rw [Builder.run_append, Builder.run, Builder.run, Builder.call, hsource, List.getLast?_concat]

end Assemblage
