import Assemblage.Files.Path
import Assemblage.Header.Directive
import Assemblage.SourceUnit

/-!
Settings of a build: the root namespace, the name of the assembly, the imports and references that
it starts with, the marker, and the grammar of its directives. Every kind of asset has its own
usual settings.
-/

namespace Assemblage
set_option autoImplicit false

/-- The kinds of assets, each with an assembly of its own. -/
inductive AssetKind where
  | scripts
  | systems
  | scenes
  deriving DecidableEq, Repr

structure UnitSettings where
  root : String
  assembly : String
  imports : List String
  references : List Path
  marker : String
  grammar : DirectiveGrammar
  deriving DecidableEq, Repr

namespace AssetKind

def name : AssetKind → String
  | scripts => "scripts"
  | systems => "systems"
  | scenes => "scenes"

/-- The kinds in the order in which they are built. -/
def all : List AssetKind := [scripts, systems, scenes]

def ofName? (name : String) : Option AssetKind := all.find? fun kind => kind.name == name

/-- What every build imports. -/
def usualImports : List String :=
  ["using System;", "using System.Diagnostics;", "using DefaultEcs;",
    "using Microsoft.Xna.Framework;"]

/-- What the containers of scenes need beside that. -/
def sceneImports : List String := usualImports ++ ["using System.IO;", "using System.Text.Json;"]

def settings : AssetKind → UnitSettings
  | scripts =>
    ⟨"ScriptData", "GrappleFightScripts", usualImports, [], SourceUnit.usualMarker, .usual⟩
  | systems =>
    ⟨"SystemData", "GrappleFightSystems", usualImports, [], SourceUnit.usualMarker, .usual⟩
  | scenes => ⟨"SceneData", "GrappleFightScenes", sceneImports, [], SourceUnit.usualMarker, .usual⟩

end AssetKind

/-- A text that is a path. -/
def Path.check (v : Value) : Checked Path :=
  match Schema.string v with
  | .ok s => .ok (Path.ofString s)
  | .bad _ => .fail .path

namespace UnitSettings

/-- Settings with some fields replaced. -/
def check (usual : UnitSettings) : Value → Checked UnitSettings :=
  Schema.record fun es =>
    UnitSettings.mk
      <$> Schema.defaulted es "root_namespace" usual.root Schema.string
      <*> Schema.defaulted es "assembly_name" usual.assembly Schema.string
      <*> Schema.defaulted es "imports" usual.imports (Schema.tupleOf Schema.string)
      <*> Schema.defaulted es "references" usual.references (Schema.tupleOf Path.check)
      <*> Schema.defaulted es "marker_declaration" usual.marker Schema.string
      <*> Schema.defaulted es "grammar" usual.grammar DirectiveGrammar.check

end UnitSettings

end Assemblage
