import Assemblage.Config.Basic

/-!
Overrides: what a command line says in place of a configuration. What is not given keeps its value;
references are added to those of the configuration; naming the folder of a kind enables it.
-/

namespace Assemblage
set_option autoImplicit false

/-- The folder and the output of one kind, where they are given. -/
structure KindOverrides where
  directory : Option Path
  output : Option Path
  deriving DecidableEq, Repr

structure Overrides where
  scripts : KindOverrides
  systems : KindOverrides
  scenes : KindOverrides
  recursive : Option Bool
  references : List Path
  /-- The command of the compiler; an empty one is not given. -/
  compiler : List String
  strict : Option Bool
  timeout : Option Int
  deriving DecidableEq, Repr

namespace KindOverrides

def none : KindOverrides := ⟨.none, .none⟩

def apply (o : KindOverrides) (k : KindConfig) : KindConfig :=
  { k with
    enabled := k.enabled || o.directory.isSome
    directory := o.directory.getD k.directory
    output := o.output.getD k.output }

end KindOverrides

namespace Overrides

def none : Overrides := ⟨.none, .none, .none, .none, [], [], .none, .none⟩

def kind (o : Overrides) : AssetKind → KindOverrides
  | .scripts => o.scripts
  | .systems => o.systems
  | .scenes => o.scenes

def setKind (o : Overrides) (k : KindOverrides) : AssetKind → Overrides
  | .scripts => { o with scripts := k }
  | .systems => { o with systems := k }
  | .scenes => { o with scenes := k }

/-- The configuration with the overrides on top. -/
def apply (o : Overrides) (c : BuildConfig) : BuildConfig :=
  { c with
    scripts := o.scripts.apply c.scripts
    systems := o.systems.apply c.systems
    scenes := o.scenes.apply c.scenes
    recursive := o.recursive.getD c.recursive
    references := c.references ++ o.references
    strict := o.strict.getD c.strict
    compiler :=
      { c.compiler with
        command := if o.compiler.isEmpty then c.compiler.command else o.compiler
        timeout := o.timeout.getD c.compiler.timeout } }

end Overrides

end Assemblage
