import Assemblage.Compiler.Run
import Assemblage.Embed.Settings

/-!
Configurations: for every kind of asset where its files are and where its assembly goes, and what
all kinds share. A configuration gives the settings of each build.
-/

namespace Assemblage
set_option autoImplicit false

/-- The inputs and the output of one kind of asset. -/
structure KindConfig where
  enabled : Bool
  directory : Path
  output : Path
  /-- Replaces the usual root namespace. -/
  root : Option String
  /-- Replaces the usual imports. -/
  imports : Option (List String)
  patterns : List String
  deriving DecidableEq, Repr

structure BuildConfig where
  scripts : KindConfig
  systems : KindConfig
  scenes : KindConfig
  references : List Path
  recursive : Bool
  exclude : List String
  /-- Whether a failed build fails the run. -/
  strict : Bool
  compiler : CompilerConfig
  embed : EmbedSettings
  deriving DecidableEq, Repr

namespace KindConfig

def usualPatterns : List String := ["*.cs"]

def usual : AssetKind → KindConfig
  | .scripts =>
    ⟨true, ⟨0, ["Scripts"]⟩, ⟨0, ["GrappleFightScripts.dll"]⟩, none, none, usualPatterns⟩
  | .systems =>
    ⟨false, ⟨0, ["Systems"]⟩, ⟨0, ["GrappleFightSystems.dll"]⟩, none, none, usualPatterns⟩
  | .scenes =>
    ⟨true, ⟨0, ["Scenes"]⟩, ⟨0, ["GrappleFightScenes.dll"]⟩, none, none, ["*.yaml", "*.yml"]⟩

/-- The patterns that are not given are those of scripts, whatever the kind. -/
def check : Value → Checked KindConfig :=
  Schema.record fun es =>
    KindConfig.mk
      <$> Schema.defaulted es "enabled" true Schema.flag
      <*> Schema.required es "directory" Path.check
      <*> Schema.required es "output" Path.check
      <*> Schema.defaulted es "namespace" none (Schema.optional Schema.string)
      <*> Schema.defaulted es "imports" none (Schema.optional (Schema.listOf Schema.string))
      <*> Schema.defaulted es "patterns" usualPatterns (Schema.listOf Schema.string)

end KindConfig

namespace BuildConfig

def usualExclude : List String := ["bin", "obj", ".git", "*.meta"]

def usual : BuildConfig where
  scripts := .usual .scripts
  systems := .usual .systems
  scenes := .usual .scenes
  references := []
  recursive := false
  exclude := usualExclude
  strict := false
  compiler := .usual
  embed := .usual

def check : Value → Checked BuildConfig :=
  Schema.record fun es =>
    BuildConfig.mk
      <$> Schema.defaulted es "scripts" usual.scripts KindConfig.check
      <*> Schema.defaulted es "systems" usual.systems KindConfig.check
      <*> Schema.defaulted es "scenes" usual.scenes KindConfig.check
      <*> Schema.defaulted es "references" usual.references (Schema.listOf Path.check)
      <*> Schema.defaulted es "recursive" usual.recursive Schema.flag
      <*> Schema.defaulted es "exclude_patterns" usual.exclude (Schema.listOf Schema.string)
      <*> Schema.defaulted es "strict" usual.strict Schema.flag
      <*> Schema.defaulted es "compiler" usual.compiler CompilerConfig.check
      <*> Schema.defaulted es "embed" usual.embed EmbedSettings.check

def kind (c : BuildConfig) : AssetKind → KindConfig
  | .scripts => c.scripts
  | .systems => c.systems
  | .scenes => c.scenes

def setKind (c : BuildConfig) (k : KindConfig) : AssetKind → BuildConfig
  | .scripts => { c with scripts := k }
  | .systems => { c with systems := k }
  | .scenes => { c with scenes := k }

/-- The settings of the build of one kind. The assembly is named after the output file. -/
def settings (c : BuildConfig) (kind : AssetKind) : UnitSettings :=
  let k := c.kind kind
  let usual := kind.settings
  { usual with
    references := c.references
    root := (k.root.filter (· != "")).getD usual.root
    imports := k.imports.getD usual.imports
    assembly := if k.output.stem = "" then usual.assembly else k.output.stem }

end BuildConfig

end Assemblage
