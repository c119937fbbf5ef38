import Assemblage.Compiler.Run
import Assemblage.Fragment
import Assemblage.Header.Extraction
import Assemblage.Imports

/-!
Builders. A builder takes fragments in order: the directives of a fragment join the imports, and
its body is filed under its namespace. At any time the builder gives the source unit of all that it
has taken so far; compiling that unit does not change the builder, and the artifact is written only
if the compilation succeeded.
-/

namespace Assemblage
set_option autoImplicit false
open Assemblage.Text (Bytes)

/-- What is reported beside the outcome of a step. -/
inductive Notice where
  | stray (source : Option String) (s : Stray)
  | emptyPayload (owner : String)
  | sameContainer (owner container : String)
  | failedCompile (assembly : String)
  deriving DecidableEq

def Notice.message : Notice → String
  | stray source s => s.message source
  | emptyPayload owner => s!"Embedding empty payload for '{owner}'"
  | sameContainer owner container =>
    s!"Scene '{owner}' maps to container {container} which already exists"
  | failedCompile assembly =>
    s!"compile_into_assembly() failed for {assembly}; returning diagnostics"

structure Builder where
  settings : UnitSettings
  imports : Imports
  namespaces : Namespaces
  epilogue : List String
  /-- How many fragments were taken. -/
  count : Nat
  deriving DecidableEq

/-- Why an attempt to compile has no result. -/
inductive BuildFault where
  | compiler (fault : CompilerFault)
  /-- The artifact cannot be written. -/
  | output (fault : FileFault)
  deriving DecidableEq, Repr

/-- An attempt to compile: its result, what is reported, every start of the compiler, and the
files afterwards. -/
structure Attempt where
  result : Except BuildFault CompileResult
  notices : List Notice
  invocations : List Invocation
  files : FileTree

namespace Builder

def ofSettings (s : UnitSettings) : Builder :=
  ⟨s, .ofList (s.imports.map String.toList), .ofRoot s.root, [], 0⟩

/-! ## Taking fragments -/

/-- Files a body under the namespace that a hint names. -/
def file (b : Builder) (hint : Option String) (body : String) : Builder :=
  { b with namespaces := b.namespaces.add hint body, count := b.count + 1 }

/-- The header and the rest of a text by the builder's grammar. -/
def extract (b : Builder) (text : String) : Extraction :=
  Header.extract b.settings.grammar text.toList

/-- Takes a fragment. -/
def add (b : Builder) (f : Fragment) : Builder × List Notice :=
  let e := b.extract f.text
  ({ b with imports := b.imports.merge e.directives }.file f.hint
      (String.ofList (e.body f.text.toList)),
    (e.stray.map (Notice.stray f.source)).toList)

/-- Takes fragments in order. -/
def addAll (b : Builder) : List Fragment → Builder × List Notice
  | [] => (b, [])
  | f :: rest =>
    let (b, notices) := b.add f
    let (b, more) := b.addAll rest
    (b, notices ++ more)

/-- Takes a declaration for the end of the root namespace, unless it is known. -/
def addEpilogue (b : Builder) (declaration : String) : Builder :=
  if b.epilogue.contains declaration then b
  else { b with epilogue := b.epilogue ++ [declaration] }

/-! ## The source -/

def unit (b : Builder) : SourceUnit where
  directives := b.imports.directives.map String.ofList
  root := b.settings.root
  marker := b.settings.marker
  scopes := b.namespaces.scopes
  epilogue := b.epilogue

def source (b : Builder) : String := b.unit.write

/-! ## Compiling -/

/-- What the compiler gets: the source as one text. Without a name the assembly has that of the
settings. -/
def request (b : Builder) (assembly : Option String) : CompileRequest :=
  ⟨[b.source], b.settings.references, (assembly.filter (· != "")).getD b.settings.assembly⟩

/-- Writes the artifact of a successful compilation, and the folders around it. -/
def deliver (t : FileTree) (output : Path) (r : CompileResult) : Except FileFault FileTree :=
  match r.product? with
  | some bytes => do (← t.makeFolder output.parent).write output bytes
  | none => .ok t

/-- Compiles what the builder has taken so far. -/
def compile (b : Builder) (gateway : FileTree → CompileRequest → Compilation) (t : FileTree)
    (output : Path) (assembly : Option String) : Attempt :=
  let request := b.request assembly
  let c := gateway t request
  match c.result with
  | .error fault => ⟨.error (.compiler fault), [], c.invocations, c.files⟩
  | .ok r =>
    let notices := if r.succeeded then [] else [.failedCompile request.assembly]
    match deliver c.files output r with
    | .error fault =>
      -- the folders around the artifact are made before it is written
      ⟨.error (.output fault), notices, c.invocations, c.files.attemptFolder output.parent⟩
    | .ok files => ⟨.ok r, notices, c.invocations, files⟩

end Builder

end Assemblage
