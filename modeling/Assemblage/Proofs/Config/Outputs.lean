import Assemblage.Proofs.Config.Overrides
import Assemblage.Proofs.Files.Path

/-!
# The outputs of a configuration

Every output of a configuration is the path of a text: of a field of its file, of an argument of the
command line, or the usual one. So no part of it holds a slash, and neither does the name of an
assembly, which is taken from it.

Main statement: `Command.slash_not_mem_assembly`.
-/

namespace Assemblage
set_option autoImplicit false

/-! ## Outputs of files -/

theorem Path.clean_check {v : Value} {p : Path} (h : Path.check v = .ok p) : p.Clean := by
  unfold Path.check at h
  split at h
  · cases h
    exact Path.clean_ofString _
  · cases h

theorem KindConfig.clean_check {v : Value} {k : KindConfig} (h : check v = .ok k) :
    k.output.Clean := by
  cases v with
  | mapping es =>
    obtain ⟨_, patterns, h₅, -, rfl⟩ := Checked.seq_eq_ok.mp h
    obtain ⟨_, imports, h₄, -, rfl⟩ := Checked.seq_eq_ok.mp h₅
    obtain ⟨_, root, h₃, -, rfl⟩ := Checked.seq_eq_ok.mp h₄
    obtain ⟨_, output, h₂, houtput, rfl⟩ := Checked.seq_eq_ok.mp h₃
    obtain ⟨_, directory, h₁, -, rfl⟩ := Checked.seq_eq_ok.mp h₂
    obtain ⟨enabled, -, rfl⟩ := Checked.map_eq_ok.mp h₁
    obtain ⟨u, -, hcheck⟩ := Schema.required_eq_ok houtput
    exact Path.clean_check hcheck
  | _ => cases h

namespace BuildConfig

theorem clean_usual (kind : AssetKind) : (usual.kind kind).output.Clean := by
  cases kind <;> simp [Path.Clean, BuildConfig.kind, usual, KindConfig.usual]

theorem clean_check {v : Value} {c : BuildConfig} (h : check v = .ok c) (kind : AssetKind) :
    (c.kind kind).output.Clean := by
  obtain ⟨es, -, hkinds, -⟩ := check_eq_ok h
  rcases Schema.defaulted_eq_ok (hkinds kind) with hkind | ⟨v, -, hcheck⟩
  · rw [hkind]
    exact clean_usual kind
  · exact KindConfig.clean_check hcheck

theorem clean_load [Stack] [Streaming] {t : FileTree} {path : Path} {c : BuildConfig}
    (h : load t path = .ok c) (kind : AssetKind) : (c.kind kind).output.Clean := by
  obtain ⟨es, hcheck, -⟩ := load_eq_ok h
  exact clean_check hcheck kind

/-- The name of an assembly is the stem of its output, or a usual one. -/
theorem slash_not_mem_assembly {c : BuildConfig} {kind : AssetKind}
    (h : (c.kind kind).output.Clean) : '/' ∉ (c.settings kind).assembly.toList := by
  have husual : '/' ∉ kind.settings.assembly.toList := by
    cases kind <;> decide
  unfold settings
  dsimp only
  split
  · exact husual
  · exact h.stem

end BuildConfig

/-! ## Outputs of the command line -/

namespace Command

theorem ofArguments_eq_build {options : List CommandOption} {command : Arguments → Option Command}
    {args : List String} {config : Option String} {o : Overrides}
    (h : ofArguments options command args = some (.build config o)) :
    ∃ a, command a = some (.build config o) := by
  unfold ofArguments at h
  split at h
  · cases h
  · split at h
    · cases h
    · exact ⟨_, h⟩

theorem read?_eq_build {args : List String} {config : Option String} {o : Overrides}
    (h : read? args = some (.build config o)) : ∃ a, ofBuild a = some (.build config o) := by
  unfold read? at h
  split at h
  · cases h
  · unfold named? at h
    split at h
    · exact ofArguments_eq_build h
    split at h
    · obtain ⟨a, ha⟩ := ofArguments_eq_build h
      unfold ofPreview at ha
      split at ha
      · cases ha
      · obtain ⟨_, -, ha⟩ := Option.bind_eq_some_iff.mp ha
        cases ha
      · cases ha
    split at h
    · obtain ⟨a, ha⟩ := ofArguments_eq_build h
      unfold ofInit at ha
      split at ha <;> cases ha
    split at h
    · obtain ⟨a, ha⟩ := ofArguments_eq_build h
      unfold ofVersion at ha
      split at ha <;> cases ha
    · split at h <;> cases h
  · cases h

theorem clean_path? {a : Arguments} {parameter : String} {p : Path}
    (h : a.path? parameter = some p) : p.Clean := by
  obtain ⟨s, -, rfl⟩ := Option.map_eq_some_iff.mp h
  exact Path.clean_ofString s

/-- The outputs that a build is given are paths of arguments. -/
theorem clean_overrides {args : List String} {config : Option String} {o : Overrides}
    (h : read? args = some (.build config o)) (kind : AssetKind) {p : Path}
    (hp : (o.kind kind).output = some p) : p.Clean := by
  obtain ⟨a, ha⟩ := read?_eq_build h
  obtain ⟨timeout, -, hbuild⟩ := Option.bind_eq_some_iff.mp ha
  split at hbuild
  · cases hbuild
  · cases hbuild
    cases kind <;> exact clean_path? hp

/-- **The name of an assembly holds no slash.** -/
theorem slash_not_mem_assembly [Stack] [Streaming] {t : FileTree} {args : List String}
    {config : Option String} {o : Overrides} {c : BuildConfig}
    (hread : read? args = some (.build config o)) (hconfiguration : configuration t config o = .ok c)
    (kind : AssetKind) :
    '/' ∉ (c.settings kind).assembly.toList := by
  have happly : ∀ base : BuildConfig, (base.kind kind).output.Clean →
      ((o.apply base).kind kind).output.Clean := by
    intro base hbase
    rw [Overrides.kind_apply]
    show ((o.kind kind).output.getD (base.kind kind).output).Clean
    cases houtput : (o.kind kind).output with
    | none => exact hbase
    | some p => exact clean_overrides hread kind houtput
  apply BuildConfig.slash_not_mem_assembly
  cases config with
  | none =>
    cases hconfiguration
    exact happly _ (BuildConfig.clean_usual kind)
  | some path =>
    obtain ⟨base, hload, rfl⟩ := Yaml.map_eq_ok hconfiguration
    exact happly base (BuildConfig.clean_load hload kind)

end Command

end Assemblage
