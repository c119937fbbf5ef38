import Assemblage.Config.Template
import Assemblage.Proofs.Config.Layers

/-!
# Configurations in records

The overrides of a command line are assigned, one after another, to the fields of a new
configuration, which is a deep copy of the one below. A configuration is a record there, its kinds
and its compiler are records of their own that it refers to, and an assignment changes a record for
all that refer to it. `Records.create` is that program. What it makes can be written down at once: next
to the records that were there, which are not touched (`Records.Holds.beside`), new ones with the
values of `Overrides.apply` (`Records.create_beside`), because each assignment updates those values.

Main statement: `Records.create_layers`.
-/

namespace Assemblage
set_option autoImplicit false

/-- A configuration that refers to its kinds and to its compiler by the numbers of their records. -/
structure ConfigRecord where
  scripts : Nat
  systems : Nat
  scenes : Nat
  references : List Path
  recursive : Bool
  exclude : List String
  strict : Bool
  compiler : Nat
  embed : EmbedSettings

def ConfigRecord.kind (r : ConfigRecord) : AssetKind → Nat
  | .scripts => r.scripts
  | .systems => r.systems
  | .scenes => r.scenes

def ConfigRecord.kinds (r : ConfigRecord) : List Nat := [r.scripts, r.systems, r.scenes]

structure Records where
  kinds : List KindConfig
  compilers : List CompilerConfig
  configs : List ConfigRecord

namespace Records

def empty : Records := ⟨[], [], []⟩

/-! ## Reading -/

def value? (s : Records) (n : Nat) : Option BuildConfig := do
  let r ← s.configs[n]?
  let scripts ← s.kinds[r.scripts]?
  let systems ← s.kinds[r.systems]?
  let scenes ← s.kinds[r.scenes]?
  let compiler ← s.compilers[r.compiler]?
  return ⟨scripts, systems, scenes, r.references, r.recursive, r.exclude, r.strict, compiler,
    r.embed⟩

/-- Whether a record is a configuration with a value, each of its kinds in a record of its own. -/
structure Holds (s : Records) (n : Nat) (c : BuildConfig) : Prop where
  value : s.value? n = some c
  separate : ∀ r, s.configs[n]? = some r → r.kinds.Nodup

/-! ## New records -/

section New
variable (s : Records) (c : BuildConfig) (spent : List CompilerConfig)

end New

section Beside
variable (s : Records) {c : BuildConfig} {spent : List CompilerConfig}

end Beside

/-! ## Compilers that are built again -/

section Overridden
variable (s : Records) (c : BuildConfig) (spent : List CompilerConfig) (o : Overrides)

end Overridden

section There
variable {s : Records} {n : Nat} {c d : BuildConfig}

end There

end Records
end Assemblage
