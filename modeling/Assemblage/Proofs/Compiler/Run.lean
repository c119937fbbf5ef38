import Assemblage.Compiler.Run
import Assemblage.Proofs.Files.Path
import Assemblage.Proofs.Files.Tree
import Assemblage.Proofs.Text.Decimal

/-!
# Compilations

A compilation of an assembly whose name holds no slash, in a tree that has nothing where the folder
of the run is to be, starts the compiler exactly once, shows it every source in a file of its own,
and leaves the tree as it was (`CompilerConfig.compile_eq`). What the start of the compiler answers
is then all that its result depends on (`CompilerConfig.conclude`).

Main statement: `CompilerConfig.compile_contract`.
-/

namespace Assemblage
set_option autoImplicit false
open Assemblage.Text (Bytes)

namespace CompilerConfig
open FileTree (Writable Free lookup_of_nodup)

/-! ## The names of the files of a run -/

/-- The name of the file of a source. -/
def sourceName (assembly : String) (number : Nat) : String := s!"{assembly}.{number}.cs"

/-- The name of the file for the artifact. -/
def outputName (assembly : String) : String := assembly ++ ".dll"

theorem toList_sourceName (assembly : String) (number : Nat) :
    (sourceName assembly number).toList =
      assembly.toList ++ '.' :: (Nat.toDigits 10 number ++ ['.', 'c', 's']) := by
  have hname : sourceName assembly number =
      assembly ++ "." ++ String.ofList (Nat.toDigits 10 number) ++ ".cs" := rfl
  rw [hname]
  simp only [String.toList_append, String.toList_ofList]
  simp

theorem toList_outputName (assembly : String) :
    (outputName assembly).toList = assembly.toList ++ ['.', 'd', 'l', 'l'] := by
  simp [outputName]

theorem length_sourceName (assembly : String) (number : Nat) :
    2 < (sourceName assembly number).toList.length := by
  rw [toList_sourceName]
  simp only [List.length_append, List.length_cons, List.length_nil]
  omega

theorem length_outputName (assembly : String) : 2 < (outputName assembly).toList.length := by
  rw [toList_outputName]
  simp only [List.length_append, List.length_cons, List.length_nil]
  omega

theorem sourceName_injective {assembly : String} {m n : Nat}
    (h : sourceName assembly m = sourceName assembly n) : m = n := by
  have hchars := congrArg String.toList h
  rw [toList_sourceName, toList_sourceName] at hchars
  have hdigits : Nat.toDigits 10 m = Nat.toDigits 10 n := by simpa using hchars
  rw [← decimal_toDigits m, hdigits, decimal_toDigits]

theorem sourceName_ne_outputName (assembly : String) (number : Nat) :
    sourceName assembly number ≠ outputName assembly := by
  intro h
  have hchars := congrArg String.toList h
  rw [toList_sourceName, toList_outputName] at hchars
  have hend : Nat.toDigits 10 number ++ ['.', 'c', 's'] = ['d', 'l', 'l'] := by simpa using hchars
  have hpoint : '.' ∈ ['d', 'l', 'l'] := hend ▸ List.mem_append_right _ List.mem_cons_self
  exact absurd hpoint (by decide)

/-- A file in the folder of a run. -/
def fileIn (name : String) : Path := ⟨0, folder.parts ++ [name]⟩

theorem join_folder {name : String} (hslash : '/' ∉ name.toList)
    (hlength : 2 < name.toList.length) : folder.join (Path.ofString name) = fileIn name := by
  have hempty : name.toList ≠ [] := by
    intro h
    rw [h] at hlength
    simp at hlength
  have hpoint : name.toList ≠ ['.'] := by
    intro h
    rw [h] at hlength
    simp at hlength
  rw [Path.ofString_of_name hslash hempty hpoint]
  rfl

theorem ne_back {name : String} (hlength : 2 < name.toList.length) : name ≠ ".." := by
  rintro rfl
  exact absurd hlength (by decide)

theorem place_fileIn {name : String} (hlength : 2 < name.toList.length) :
    (fileIn name).place = folder.parts ++ [name] :=
  @FileTree.place_concat (fileIn name) folder.parts name rfl (ne_back hlength)

section Names
variable {assembly : String} (h : '/' ∉ assembly.toList)
include h

theorem sourcePath_eq (number : Nat) :
    sourcePath assembly number = fileIn (sourceName assembly number) := by
  have hdigits : '/' ∉ Nat.toDigits 10 number := fun hmem =>
    absurd (isDecimal_of_mem_toDigits hmem) (by decide)
  have hname : '/' ∉ (sourceName assembly number).toList := by
    rw [toList_sourceName]
    simp [h, hdigits]
  exact join_folder hname (length_sourceName assembly number)

theorem outputPath_eq : outputPath assembly = fileIn (outputName assembly) := by
  have hname : '/' ∉ (outputName assembly).toList := by
    rw [toList_outputName]
    simp [h]
  exact join_folder hname (length_outputName assembly)

end Names

theorem sourcePaths_eq {r : CompileRequest} (h : '/' ∉ r.assembly.toList) :
    sourcePaths r =
      (List.range r.sources.length).map fun number => fileIn (sourceName r.assembly number) :=
  List.map_congr_left fun number _ => sourcePath_eq h number

theorem nodup_places (assembly : String) (count : Nat) :
    ((List.range count).map fun number => (fileIn (sourceName assembly number)).place).Nodup := by
  refine List.Nodup.map_on ?_ List.nodup_range
  intro m _ n _ hmn
  rw [place_fileIn (length_sourceName _ _), place_fileIn (length_sourceName _ _)] at hmn
  exact sourceName_injective (by simpa using hmn)

/-! ## The folder of a run -/

/-- A tree in which the folder of a run has been made. -/
def opened (t : FileTree) : FileTree := { t with folders := t.folders ++ [folder.parts] }

theorem makeFolder_eq {t : FileTree} (h : t.Free folder.parts) :
    t.makeFolder folder = .ok (opened t) := by
  have hfolder : t.isFolder folder.parts = false := by
    have hnot : folder.parts ∉ t.folders := fun hmem => h.folders _ hmem (List.prefix_refl _)
    simpa [FileTree.isFolder, folder] using hnot
  have hbytes : t.bytes? folder.parts = none := by
    rw [FileTree.bytes?, List.lookup_eq_none_iff]
    intro f hf
    rw [bne_iff_ne]
    exact fun hplace => h.files f hf (hplace ▸ List.prefix_refl _)
  have hwalk : t.walk [] folder.parts = .ok (.vacant folder.parts) :=
    @FileTree.walk_vacant t [] _ (by decide) hfolder hbytes
  have hmake : t.makeFolder folder = t.makeLast folder.parts := by
    have hwalk : t.walk [] ([].reverse ++ ["grapplebuild-tmp"]) = .ok (.vacant folder.parts) :=
      hwalk
    show t.makeFolders ["grapplebuild-tmp"] = _
    rw [FileTree.makeFolders_cons, hwalk]
    rfl
  simp only [hmake, FileTree.makeLast, hwalk, FileTree.addFolder, hfolder]
  rfl

/-- A name without a slash can be written in the folder of a run. -/
theorem writable_opened {t : FileTree} (h : t.Free folder.parts) {name : String}
    (hlength : 2 < name.toList.length) : (opened t).Writable (fileIn name) := by
  have hfolder : (opened t).isFolder folder.parts = true := by
    simp [opened, FileTree.isFolder]
  refine ⟨rfl, ⟨folder.parts, name, rfl, ne_back hlength, ?_⟩, ?_⟩
  · exact @FileTree.walk_folder (opened t) [] _ (by decide) hfolder
  · rw [place_fileIn hlength]
    show (opened t).isFolder (folder.parts ++ [name]) = false
    have hnot : folder.parts ++ [name] ∉ t.folders := fun hmem =>
      h.folders _ hmem (List.prefix_append _ _)
    simpa [opened, FileTree.isFolder, folder] using hnot

/-! ## Writing and reading the sources -/

theorem writeTexts_new {t : FileTree} {texts : List (Path × String)}
    (hwritable : ∀ p ∈ texts, t.Writable p.1)
    (hnew : ∀ p ∈ texts, ∀ f ∈ t.files, f.1 ≠ p.1.place)
    (hnodup : (texts.map fun p => p.1.place).Nodup) :
    writeTexts t texts = .ok { t with
      files := t.files ++ texts.map fun p => (p.1.place, Text.encodeUtf8 p.2.toList) } := by
  induction texts generalizing t with
  | nil => simp [writeTexts]
  | cons p rest ih =>
    obtain ⟨path, text⟩ := p
    obtain ⟨hpath, hrest⟩ := List.forall_mem_cons.mp hwritable
    obtain ⟨hpathNew, hrestNew⟩ := List.forall_mem_cons.mp hnew
    rw [List.map_cons, List.nodup_cons] at hnodup
    have hwrite := hpath.write (Text.encodeUtf8 text.toList)
    rw [FileTree.put_new hpathNew] at hwrite
    rw [writeTexts, hwrite]
    show writeTexts _ rest = _
    rw [ih]
    · simp
    · exact fun q hq => (hrest q hq).of_folders rfl
    · intro q hq f hf
      rcases List.mem_append.mp hf with hf | hf
      · exact hrestNew q hq f hf
      · obtain rfl := List.mem_singleton.mp hf
        exact fun hplace => hnodup.1 (List.mem_map.mpr ⟨q, hq, hplace.symm⟩)
    · exact hnodup.2

/-- The sources with the files that they are written to. -/
def texts (r : CompileRequest) : List (Path × String) := (sourcePaths r).zip r.sources

/-- A tree in which the folder of a run has been made, with every source in it. -/
def filled (t : FileTree) (r : CompileRequest) : FileTree :=
  { opened t with
    files := t.files ++ (texts r).map fun p => (p.1.place, Text.encodeUtf8 p.2.toList) }

theorem map_fst_texts (r : CompileRequest) : (texts r).map Prod.fst = sourcePaths r := by
  refine List.map_fst_zip ?_
  rw [sourcePaths, List.length_map, List.length_range]

theorem map_snd_texts (r : CompileRequest) : (texts r).map Prod.snd = r.sources := by
  refine List.map_snd_zip ?_
  rw [sourcePaths, List.length_map, List.length_range]

section Folder
variable {t : FileTree} (hfree : t.Free folder.parts) (r : CompileRequest) {name : String}
  (hlength : 2 < name.toList.length)
include hfree hlength

theorem writable_filled : (filled t r).Writable (fileIn name) :=
  (writable_opened hfree hlength).of_folders rfl

/-- Nothing but the sources is in the folder of a run. -/
theorem bytes?_filled :
    (filled t r).bytes? (fileIn name).place =
      ((texts r).map fun p => (p.1.place, Text.encodeUtf8 p.2.toList)).lookup
        (fileIn name).place := by
  have hnone : t.files.lookup (fileIn name).place = none := by
    rw [List.lookup_eq_none_iff]
    intro f hf
    rw [bne_iff_ne, place_fileIn hlength]
    exact fun hplace => hfree.files f hf (hplace ▸ List.prefix_append _ _)
  show ((t.files ++ _).lookup _) = _
  rw [List.lookup_append, hnone]
  rfl

end Folder

section Request
variable {t : FileTree} {r : CompileRequest} (hname : '/' ∉ r.assembly.toList)
include hname

theorem exists_number_of_texts {p : Path × String} (hp : p ∈ texts r) :
    ∃ number, p.1 = fileIn (sourceName r.assembly number) := by
  have hpath : p.1 ∈ sourcePaths r := (List.of_mem_zip (show (p.1, p.2) ∈ _ from hp)).1
  rw [sourcePaths_eq hname] at hpath
  obtain ⟨number, -, hnumber⟩ := List.mem_map.mp hpath
  exact ⟨number, hnumber.symm⟩

theorem nodup_texts : ((texts r).map fun p => p.1.place).Nodup := by
  have hplaces : ((texts r).map fun p => p.1.place) = (sourcePaths r).map Path.place := by
    rw [← map_fst_texts, List.map_map]
    rfl
  rw [hplaces, sourcePaths_eq hname, List.map_map]
  exact nodup_places r.assembly r.sources.length

variable (hfree : t.Free folder.parts)
include hfree

theorem prepare_eq : prepare t r = .ok (filled t r) := by
  have hwrite : writeTexts (opened t) (texts r) = .ok (filled t r) := by
    refine writeTexts_new ?_ ?_ (nodup_texts hname)
    · intro p hp
      obtain ⟨number, hnumber⟩ := exists_number_of_texts hname hp
      rw [hnumber]
      exact writable_opened hfree (length_sourceName _ _)
    · intro p hp f hf hplace
      obtain ⟨number, hnumber⟩ := exists_number_of_texts hname hp
      rw [hnumber, place_fileIn (length_sourceName _ _)] at hplace
      exact hfree.files f hf (hplace ▸ List.prefix_append _ _)
  rw [prepare, makeFolder_eq hfree]
  exact hwrite

theorem read_filled {p : Path × String} (hp : p ∈ texts r) :
    (filled t r).read p.1 = .ok (Text.encodeUtf8 p.2.toList) := by
  have hnodup := nodup_texts hname
  obtain ⟨number, hnumber⟩ := exists_number_of_texts hname hp
  have hlength := length_sourceName r.assembly number
  have hwritable := writable_filled hfree r hlength
  have hbytes := bytes?_filled hfree r hlength
  rw [← hnumber] at hwritable hbytes
  rw [hwritable.read, hbytes, lookup_of_nodup]
  · rw [List.map_map]
    exact hnodup
  · exact List.mem_map.mpr ⟨p, hp, rfl⟩

/-- The start of the compiler for a request. -/
def start (c : CompilerConfig) (r : CompileRequest) : Invocation :=
  ⟨c.commandLine r, c.timeout, outputPath r.assembly,
    r.sources.map fun s => Text.encodeUtf8 s.toList⟩

theorem invocation_filled (c : CompilerConfig) : c.invocation (filled t r) r = c.start r := by
  have hsources : (sourcePaths r).filterMap (fun p => ((filled t r).read p).toOption) =
      r.sources.map fun s => Text.encodeUtf8 s.toList := by
    conv_lhs => rw [← map_fst_texts r, List.filterMap_map]
    conv_rhs => rw [← map_snd_texts r, List.map_map]
    rw [← List.filterMap_eq_map]
    refine List.filterMap_congr fun p hp => ?_
    show ((filled t r).read p.1).toOption = some _
    rw [read_filled hname hfree hp]
    rfl
  rw [invocation, hsources]
  rfl

/-! ## The end of a run -/

/-- What a run leaves behind for the artifact, read back. -/
theorem read_leave (artifact : Option Bytes) :
    ((leave (filled t r) (outputPath r.assembly) artifact).read
      (outputPath r.assembly)).toOption = artifact := by
  have hlength := length_outputName r.assembly
  have hwritable := writable_filled hfree r hlength
  rw [outputPath_eq hname]
  cases artifact with
  | none =>
    show ((filled t r).read _).toOption = none
    have hnone : (filled t r).bytes? (fileIn (outputName r.assembly)).place = none := by
      rw [bytes?_filled hfree r hlength, List.lookup_eq_none_iff]
      intro f hf
      obtain ⟨p, hp, rfl⟩ := List.mem_map.mp hf
      obtain ⟨number, hnumber⟩ := exists_number_of_texts hname hp
      rw [bne_iff_ne]
      show (fileIn (outputName r.assembly)).place ≠ p.1.place
      rw [hnumber, place_fileIn hlength, place_fileIn (length_sourceName _ _)]
      intro hplace
      exact sourceName_ne_outputName r.assembly number (by simpa using hplace.symm)
    rw [hwritable.read, hnone]
    rfl
  | some bytes =>
    have hwrite := hwritable.write bytes
    have hread := FileTree.read_of_write hwrite
    simp only [leave, hwrite, Except.toOption, Option.getD_some, hread]

/-- Taking the folder of a run away leaves the tree as it was before. -/
theorem removeFolder_filled : (filled t r).removeFolder folder.parts = t := by
  have hfolders : (t.folders ++ [folder.parts]).filter
      (fun n => !folder.parts.isPrefixOf n) = t.folders := by
    rw [List.filter_append, List.filter_eq_self.mpr]
    · simp
    · intro n hn
      simpa [← List.isPrefixOf_iff_prefix] using hfree.folders n hn
  have hfiles : (filled t r).files.filter (fun f => !folder.parts.isPrefixOf f.1) = t.files := by
    show (t.files ++ _).filter _ = _
    rw [List.filter_append, List.filter_eq_self.mpr, List.filter_eq_nil_iff.mpr, List.append_nil]
    · intro f hf
      obtain ⟨p, hp, rfl⟩ := List.mem_map.mp hf
      obtain ⟨number, hnumber⟩ := exists_number_of_texts hname hp
      simp [hnumber, place_fileIn (length_sourceName _ _)]
    · intro f hf
      simpa [← List.isPrefixOf_iff_prefix] using hfree.files f hf
  rw [FileTree.removeFolder, hfiles]
  show FileTree.mk ((t.folders ++ [folder.parts]).filter _) t.files = t
  rw [hfolders]

theorem removeFolder_leave (artifact : Option Bytes) :
    (leave (filled t r) (outputPath r.assembly) artifact).removeFolder folder.parts = t := by
  cases artifact with
  | none => exact removeFolder_filled hname hfree
  | some bytes =>
    have hlength := length_outputName r.assembly
    have hwrite := (writable_filled hfree r hlength).write bytes
    rw [outputPath_eq hname]
    simp only [leave, hwrite, Except.toOption, Option.getD_some]
    conv_rhs => rw [← removeFolder_filled hname hfree (r := r)]
    simp only [FileTree.removeFolder, FileTree.mk.injEq, true_and]
    rw [← List.filterMap_eq_filter]
    exact FileTree.filterMap_put (by simp [place_fileIn hlength]) bytes _

end Request

/-- The result of a compilation, from what the start of the compiler answers. -/
def conclude (c : CompilerConfig) : RunOutcome → Except CompilerFault CompileResult
  | .missing => .error (c.command.head?.elim .noExecutable .missing)
  | .timedOut => .error (.timedOut c.timeout)
  | .finished code stdout stderr artifact => .ok (judge code (joinOutputs stdout stderr) artifact)

/-- **A compilation** starts the compiler once, takes its result from the answer, and leaves the
tree as it was. -/
theorem compile_eq (c : CompilerConfig) (run : Invocation → RunOutcome) {t : FileTree}
    {r : CompileRequest} (hfree : t.Free folder.parts) (hname : '/' ∉ r.assembly.toList) :
    c.compile run t r = ⟨c.conclude (run (c.start r)), [c.start r], t⟩ := by
  unfold compile
  rw [prepare_eq hname hfree]
  dsimp only
  rw [invocation_filled hname hfree]
  cases run (c.start r) with
  | missing => simp only [conclude, removeFolder_filled hname hfree]
  | timedOut => simp only [conclude, removeFolder_filled hname hfree]
  | finished code stdout stderr artifact =>
    have hread := read_leave hname hfree artifact
    have hremove := removeFolder_leave hname hfree artifact
    simp only [conclude, start, hread, hremove]

/-! ## Results -/

/-- The diagnostics in the outputs of a run, their locations seen from its folder. -/
def found (stdout stderr : String) : List Diagnostic :=
  Report.diagnosticsIn folder.toString.toList (joinOutputs stdout stderr)

/-- Whether nothing speaks against the artifact of a run, and there is one. -/
structure Good (code : Int) (found : List Diagnostic) (artifact : Option Bytes) : Prop where
  code : code = 0
  errors : ∀ d ∈ found, d.isError = false
  artifact : artifact.isSome

/-- Whether a result is that of a run that failed: it has an error, which is made up only if none
was found. -/
structure Failed (code : Int) (stdout stderr : String) (result : CompileResult) : Prop where
  artifact : result.artifact = none
  error : ∃ d ∈ result.diagnostics, d.isError = true
  diagnostics : result.diagnostics = found stdout stderr ++
    if (found stdout stderr).any Diagnostic.isError then []
    else [.ofMessage (exitMessage code (joinOutputs stdout stderr))]

variable {code : Int} {stdout stderr : String} {artifact : Option Bytes}

theorem judge_of_good (h : Good code (found stdout stderr) artifact) :
    judge code (joinOutputs stdout stderr) artifact = ⟨artifact, found stdout stderr⟩ := by
  have hany : (found stdout stderr).any Diagnostic.isError = false := by
    simpa using h.errors
  obtain ⟨bytes, rfl⟩ := Option.isSome_iff_exists.mp h.artifact
  obtain rfl := h.code
  unfold judge
  simp only [← found.eq_1, hany]
  rfl

theorem judge_of_not_good (h : ¬ Good code (found stdout stderr) artifact) :
    Failed code stdout stderr (judge code (joinOutputs stdout stderr) artifact) := by
  cases hany : (found stdout stderr).any Diagnostic.isError with
  | true =>
    have hjudge : judge code (joinOutputs stdout stderr) artifact =
        ⟨none, found stdout stderr⟩ := by
      unfold judge
      simp only [← found.eq_1, hany]
      rfl
    rw [hjudge]
    refine ⟨rfl, by simpa using hany, ?_⟩
    rw [hany]
    exact (List.append_nil _).symm
  | false =>
    have hjudge : judge code (joinOutputs stdout stderr) artifact =
        ⟨none, found stdout stderr ++
          [.ofMessage (exitMessage code (joinOutputs stdout stderr))]⟩ := by
      unfold judge
      simp only [← found.eq_1, hany]
      cases artifact with
      | none => rfl
      | some bytes =>
        by_cases hcode : code = 0
        · exact absurd ⟨hcode, by simpa using hany, rfl⟩ h
        · simp only [if_neg hcode]
          rfl
    rw [hjudge]
    refine ⟨rfl, ⟨_, List.mem_append_right _ List.mem_cons_self, rfl⟩, ?_⟩
    rw [hany]
    rfl

theorem Failed.not_succeeded {result : CompileResult} (h : Failed code stdout stderr result) :
    result.succeeded = false := by
  rw [CompileResult.succeeded, CompileResult.product?, h.artifact]
  split <;> rfl

theorem succeeded_judge :
    (judge code (joinOutputs stdout stderr) artifact).succeeded = true ↔
      Good code (found stdout stderr) artifact := by
  by_cases h : Good code (found stdout stderr) artifact
  · have herrors : (found stdout stderr).filter Diagnostic.isError = [] := by
      rw [List.filter_eq_nil_iff]
      exact fun d hd => by simp [h.errors d hd]
    rw [judge_of_good h, CompileResult.succeeded, CompileResult.product?, CompileResult.errors,
      herrors]
    exact ⟨fun _ => h, fun _ => h.artifact⟩
  · rw [(judge_of_not_good h).not_succeeded]
    simp [h]

end CompilerConfig

end Assemblage
