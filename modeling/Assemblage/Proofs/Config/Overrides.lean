import Assemblage.Command.Execute
import Assemblage.Proofs.Schema
import Assemblage.Proofs.Text.Utf8
import Assemblage.Proofs.Yaml.Content

/-!
# Kinds without patterns

A file gives no configuration in which an enabled kind has nothing to look for
(`BuildConfig.not_patternless_of_load`). Overrides leave the patterns as they are, but the folder of
a kind enables it; so they bring back exactly those kinds that the file leaves without patterns and
disables, if they name its folder (`Overrides.patternless_apply`).

Main statement: `Command.configuration_patternless`.
-/

namespace Assemblage
set_option autoImplicit false

namespace AssetKind

theorem mem_all (kind : AssetKind) : kind ∈ all := by cases kind <;> decide

instance (P : AssetKind → Prop) [DecidablePred P] : Decidable (∀ kind, P kind) :=
  decidable_of_iff (∀ kind ∈ all, P kind)
    ⟨fun h kind => h kind kind.mem_all, fun h kind _ => h kind⟩

end AssetKind

namespace BuildConfig

/-- Whether a kind is enabled and has nothing to look for. -/
def Patternless (c : BuildConfig) (kind : AssetKind) : Prop :=
  (c.kind kind).enabled = true ∧ (c.kind kind).patterns = []

/-- Whether a kind is disabled and has nothing to look for. -/
def Dormant (c : BuildConfig) (kind : AssetKind) : Prop :=
  (c.kind kind).enabled = false ∧ (c.kind kind).patterns = []

theorem patternless?_eq_none {c : BuildConfig} :
    c.patternless? = none ↔ ∀ kind, ¬ c.Patternless kind := by
  rw [patternless?, List.find?_eq_none]
  constructor
  · intro h kind hkind
    refine h kind kind.mem_all ?_
    simp [hkind.1, hkind.2]
  · intro h kind _ hkind
    exact h kind (by simpa [Patternless] using hkind)

/-- What passed the check is a mapping, and the kinds and the compiler are read off its fields. -/
theorem check_eq_ok {v : Value} {c : BuildConfig} (h : check v = .ok c) :
    ∃ es, v = .mapping es ∧
      (∀ kind : AssetKind, Schema.defaulted es kind.name (usual.kind kind) KindConfig.check =
        .ok (c.kind kind)) ∧
      Schema.defaulted es "compiler" usual.compiler CompilerConfig.check = .ok c.compiler := by
  cases v with
  | mapping es =>
    obtain ⟨_, embed, h₈, -, rfl⟩ := Checked.seq_eq_ok.mp h
    obtain ⟨_, compiler, h₇, hcompiler, rfl⟩ := Checked.seq_eq_ok.mp h₈
    obtain ⟨_, strict, h₆, -, rfl⟩ := Checked.seq_eq_ok.mp h₇
    obtain ⟨_, exclude, h₅, -, rfl⟩ := Checked.seq_eq_ok.mp h₆
    obtain ⟨_, recursive, h₄, -, rfl⟩ := Checked.seq_eq_ok.mp h₅
    obtain ⟨_, references, h₃, -, rfl⟩ := Checked.seq_eq_ok.mp h₄
    obtain ⟨_, scenes, h₂, hscenes, rfl⟩ := Checked.seq_eq_ok.mp h₃
    obtain ⟨_, systems, h₁, hsystems, rfl⟩ := Checked.seq_eq_ok.mp h₂
    obtain ⟨scripts, hscripts, rfl⟩ := Checked.map_eq_ok.mp h₁
    refine ⟨es, rfl, fun kind => ?_, hcompiler⟩
    cases kind with
    | scripts => exact hscripts
    | systems => exact hsystems
    | scenes => exact hscenes
  | _ => cases h

theorem ofFields_eq_ok {es : List (Value × Value)} {c : BuildConfig} (h : ofFields es = .ok c) :
    check (.mapping es) = .ok c ∧ c.patternless? = none := by
  unfold ofFields at h
  split at h
  · cases h
  obtain ⟨d, hcheck, h⟩ := Yaml.bind_eq_ok h
  have hcheck := Yaml.mapError_eq_ok hcheck
  cases hnone : d.patternless? with
  | some kind =>
    rw [hnone] at h
    cases h
  | none =>
    rw [hnone] at h
    cases h
    cases hd : check (.mapping es) with
    | ok c' =>
      rw [hd] at hcheck
      cases hcheck
      exact ⟨rfl, hnone⟩
    | bad ps =>
      rw [hd] at hcheck
      cases hcheck

/-- What is loaded has passed both checks. -/
theorem load_eq_ok [Stack] [Streaming] {t : FileTree} {path : Path} {c : BuildConfig}
    (h : load t path = .ok c) : ∃ es, check (.mapping es) = .ok c ∧ c.patternless? = none := by
  unfold load at h
  split at h
  · split at h
    · unfold ofBytes at h
      split at h
      · cases h
      · obtain ⟨s, -, h⟩ := Yaml.bind_eq_ok h
        obtain ⟨v, -, h⟩ := Yaml.bind_eq_ok h
        cases v with
        | mapping es => exact ⟨es, ofFields_eq_ok h⟩
        | _ => cases h
    · cases h
  · cases h

/-- No enabled kind of a file lacks patterns. -/
theorem not_patternless_of_load [Stack] [Streaming] {t : FileTree} {path : Path} {c : BuildConfig}
    (h : load t path = .ok c) (kind : AssetKind) : ¬ c.Patternless kind := by
  obtain ⟨es, -, hnone⟩ := load_eq_ok h
  exact patternless?_eq_none.mp hnone kind

end BuildConfig

/-! ## Overrides -/

namespace Overrides

theorem kind_apply (o : Overrides) (c : BuildConfig) (kind : AssetKind) :
    (o.apply c).kind kind = (o.kind kind).apply (c.kind kind) := by
  cases kind <;> rfl

/-- What overrides do to a kind: they enable it if they name its folder, and leave its patterns
alone. -/
theorem patternless_apply (o : Overrides) (c : BuildConfig) (kind : AssetKind) :
    (o.apply c).Patternless kind ↔
      c.Patternless kind ∨ c.Dormant kind ∧ (o.kind kind).directory.isSome := by
  rw [BuildConfig.Patternless, kind_apply]
  simp only [KindOverrides.apply, BuildConfig.Patternless, BuildConfig.Dormant]
  cases (c.kind kind).enabled <;> simp [and_comm]

end Overrides

theorem BuildConfig.not_patternless_usual (kind : AssetKind) : ¬ usual.Patternless kind := by
  cases kind <;> simp [Patternless, BuildConfig.kind, usual, KindConfig.usual,
    KindConfig.usualPatterns]

/-! ## Searching without patterns -/

namespace Build

/-- The usual patterns of a kind in place of those that it has. -/
def withUsualPatterns (c : BuildConfig) (kind : AssetKind) : BuildConfig :=
  c.setKind { c.kind kind with patterns := (KindConfig.usual kind).patterns } kind

/-- A kind without patterns is searched by the usual ones. -/
theorem gather_without_patterns [Stack] {c : BuildConfig} {kind : AssetKind}
    (h : (c.kind kind).patterns = []) (t : FileTree) :
    gather c kind t = gather (withUsualPatterns c kind) kind t := by
  obtain ⟨scripts, systems, scenes, references, recursive, exclude, strict, compiler, embed⟩ := c
  cases kind with
  | scripts =>
    obtain ⟨enabled, directory, output, root, imports, patterns⟩ := scripts
    obtain rfl : patterns = [] := h
    rfl
  | systems =>
    obtain ⟨enabled, directory, output, root, imports, patterns⟩ := systems
    obtain rfl : patterns = [] := h
    rfl
  | scenes =>
    obtain ⟨enabled, directory, output, root, imports, patterns⟩ := scenes
    obtain rfl : patterns = [] := h
    rfl

end Build

/-- **Which kinds have nothing to look for.** An enabled kind of a configuration lacks patterns
exactly if the file disables it and leaves it without patterns, and its folder is named beside the
file. It is then searched by the usual patterns. -/
theorem Command.configuration_patternless [Stack] [Streaming] {t : FileTree}
    {config : Option String} {o : Overrides} {c : BuildConfig}
    (h : configuration t config o = .ok c) (kind : AssetKind) :
    (c.Patternless kind ↔
      (o.kind kind).directory.isSome ∧
        ∃ path base, config = some path ∧ BuildConfig.load t (Path.ofString path) = .ok base ∧
          base.Dormant kind) ∧
    (c.Patternless kind →
      ∀ files, Build.gather c kind files =
        Build.gather (Build.withUsualPatterns c kind) kind files) := by
  refine ⟨?_, fun hkind files => Build.gather_without_patterns hkind.2 files⟩
  cases config with
  | none =>
    cases h
    rw [Overrides.patternless_apply]
    have husual := BuildConfig.not_patternless_usual kind
    have hdormant : ¬ BuildConfig.usual.Dormant kind := by
      cases kind <;> simp [BuildConfig.Dormant, BuildConfig.kind, BuildConfig.usual,
        KindConfig.usual, KindConfig.usualPatterns]
    simp [husual, hdormant]
  | some path =>
    obtain ⟨base, hload, rfl⟩ := Yaml.map_eq_ok h
    rw [Overrides.patternless_apply]
    have hbase := BuildConfig.not_patternless_of_load hload kind
    constructor
    · rintro (hpatternless | ⟨hdormant, hdirectory⟩)
      · exact absurd hpatternless hbase
      · exact ⟨hdirectory, path, base, rfl, hload, hdormant⟩
    · rintro ⟨hdirectory, path', base', hpath, hload', hdormant⟩
      cases hpath
      rw [hload] at hload'
      cases hload'
      exact .inr ⟨hdormant, hdirectory⟩

/-! ## A kind that is brought back -/

namespace BuildConfig

/-- A file that disables the scripts and gives them no patterns. -/
def dormantText : String := "scripts: \x7bdirectory: S, output: o, enabled: no, patterns: []\x7d"

def dormantTree : FileTree := ⟨[], [(["c.yaml"], Text.encodeUtf8 dormantText.toList)]⟩

/-- The configuration of that file. -/
def dormant : BuildConfig :=
  { usual with scripts := ⟨false, ⟨0, ["S"]⟩, ⟨0, ["o"]⟩, none, none, []⟩ }

theorem tokens_dormant :
    Yaml.tokens dormantText.toList = .ok
      ([.blockMappingStart, .key, .scalar (RawText.ofString "scripts") true, .value,
        .flowMappingStart, .key, .scalar (RawText.ofString "directory") true, .value,
        .scalar (RawText.ofString "S") true, .flowEntry, .key,
        .scalar (RawText.ofString "output") true, .value, .scalar (RawText.ofString "o") true,
        .flowEntry, .key, .scalar (RawText.ofString "enabled") true, .value,
        .scalar (RawText.ofString "no") true, .flowEntry, .key,
        .scalar (RawText.ofString "patterns") true, .value, .flowSequenceStart, .flowSequenceEnd,
        .flowMappingEnd, .blockEnd]) := by
  decide +kernel

/-- The value of that file. -/
def dormantFields : List (String × Value) :=
  [("directory", .ofString "S"), ("output", .ofString "o"), ("enabled", .flag false),
    ("patterns", .list [])]

/-- The nodes of its fields. -/
def dormantNodes : List (String × Yaml.Node) :=
  [("directory", .scalar .text (RawText.ofString "S")),
    ("output", .scalar .text (RawText.ofString "o")),
    ("enabled", .scalar .flag (RawText.ofString "no")), ("patterns", .sequence .sequence [])]

theorem load_dormantText :
    Yaml.load dormantText.toList = .ok (.record [("scripts", .record dormantFields)]) := by
  have hfields : List.Forall₂ (fun n f => n.1 = f.1 ∧ Yaml.Content.build 2 n.2 10 = .ok f.2)
      dormantNodes dormantFields :=
    .cons ⟨rfl, rfl⟩ (.cons ⟨rfl, rfl⟩ (.cons ⟨rfl, rfl⟩ (.cons ⟨rfl, rfl⟩ .nil)))
  have hscripts := Yaml.Content.build_record (by simp [dormantFields]) hfields
  have hfield : List.Forall₂ (fun n f => n.1 = f.1 ∧ Yaml.Content.build 1 n.2 11 = .ok f.2)
      [("scripts", _)] [("scripts", _)] := .cons ⟨rfl, hscripts⟩ .nil
  have hroot := Yaml.Content.build_record (by simp) hfield
  rw [Yaml.load, tokens_dormant]
  exact congrArg (Except.mapError Prod.snd) hroot

theorem ofBytes_encodeUtf8 [Stack] [Streaming] {s : List Char}
    (hearly : Streaming.early? (Text.encodeUtf8 s) = none) :
    ofBytes (Text.encodeUtf8 s) =
      (Yaml.load (Text.unifyBreaks s)).mapError .yaml >>= ofValue := by
  rw [ofBytes, hearly, Text.decodeUtf8_encodeUtf8]
  rfl

theorem load_of_value {t : FileTree} {path : Path} {s : List Char} {v : Value}
    (hread : t.read path = .ok (Text.encodeUtf8 s)) (hany : t.hasAny path = true)
    (hload : Yaml.load (Text.unifyBreaks s) = .ok v) : load t path = ofValue v := by
  rw [load, if_pos hany, hread]
  show ofBytes (Text.encodeUtf8 s) = _
  rw [ofBytes_encodeUtf8 rfl, hload]
  rfl

theorem load_dormant : load dormantTree (Path.ofString "c.yaml") = .ok dormant := by
  have hbreaks : Text.unifyBreaks dormantText.toList = dormantText.toList := by decide +kernel
  rw [load_of_value (s := dormantText.toList) rfl rfl (hbreaks ▸ load_dormantText)]
  rfl

end BuildConfig

/-- Overrides that name the folder of the scripts. -/
def Overrides.scriptsIn (folder : Path) : Overrides :=
  Overrides.none.setKind ⟨some folder, .none⟩ .scripts

/-- Naming the folder of the scripts enables them without patterns. -/
theorem Command.configuration_patternless_dormant :
    let o := Overrides.scriptsIn ⟨0, ["S"]⟩
    configuration BuildConfig.dormantTree (some "c.yaml") o = .ok (o.apply .dormant) ∧
      (o.apply .dormant).Patternless .scripts ∧
      ∀ files, Build.gather (o.apply .dormant) .scripts files =
        Build.gather (Build.withUsualPatterns (o.apply .dormant) .scripts) .scripts files := by
  intro o
  have hconfiguration : configuration BuildConfig.dormantTree (some "c.yaml") o =
      .ok (o.apply .dormant) := by
    rw [configuration, BuildConfig.load_dormant]
    rfl
  obtain ⟨hiff, hgather⟩ := configuration_patternless hconfiguration .scripts
  have hpatternless : (o.apply .dormant).Patternless .scripts :=
    hiff.mpr ⟨rfl, "c.yaml", .dormant, rfl, BuildConfig.load_dormant, rfl, rfl⟩
  exact ⟨hconfiguration, hpatternless, hgather hpatternless⟩

/-- An accepted file and the name of a folder give an enabled kind without patterns. -/
theorem Command.configuration_without_patterns :
    ∃ c, configuration BuildConfig.dormantTree (some "c.yaml") (.scriptsIn ⟨0, ["S"]⟩) = .ok c ∧
      c.scripts.enabled = true ∧ c.scripts.patterns = [] := by
  refine ⟨(Overrides.scriptsIn ⟨0, ["S"]⟩).apply .dormant, ?_, rfl, rfl⟩
  rw [configuration, BuildConfig.load_dormant]
  rfl

end Assemblage
