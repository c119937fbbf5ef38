import Assemblage.Compiler.Report
import Assemblage.Files.Tree
import Assemblage.Settings

/-!
Running the compiler. Every source is written into a file of its own in a folder that exists only
for the run; the compiler is started once, and its exit code, its report and the artifact that it
left decide the result. A run that fails without an error in its report gets one that says so.
-/

namespace Assemblage
set_option autoImplicit false
open Assemblage.Text (Bytes)

/-- How the compiler is started. -/
structure CompilerConfig where
  command : List String
  extraArgs : List String
  /-- In seconds. -/
  timeout : Int
  deriving DecidableEq, Repr

namespace CompilerConfig

def usual : CompilerConfig := ⟨["csc"], [], 120⟩

def check : Value → Checked CompilerConfig :=
  Schema.record fun es =>
    CompilerConfig.mk
      <$> Schema.defaulted es "command" usual.command (Schema.listOf Schema.string)
      <*> Schema.defaulted es "extra_args" usual.extraArgs (Schema.listOf Schema.string)
      <*> Schema.defaulted es "timeout" usual.timeout
        fun v => (Schema.integer v).andThen (Schema.above 0)

end CompilerConfig

/-- What is to be compiled. -/
structure CompileRequest where
  sources : List String
  references : List Path
  assembly : String
  deriving DecidableEq, Repr

/-- A start of the compiler: its command line, and what the source files hold. -/
structure Invocation where
  command : List String
  timeout : Int
  output : Path
  sources : List Bytes
  deriving DecidableEq, Repr

/-- How a start of the compiler ends. -/
inductive RunOutcome where
  /-- There is no such executable. -/
  | missing
  | timedOut
  /-- With the artifact that was left in the output file, if any. -/
  | finished (code : Int) (stdout stderr : String) (artifact : Option Bytes)
  deriving DecidableEq, Repr

/-- Why a compilation has no result. -/
inductive CompilerFault where
  | missing (executable : String)
  /-- The command is empty, so that there is no executable to name. -/
  | noExecutable
  | timedOut (seconds : Int)
  | files (fault : FileFault)
  deriving DecidableEq, Repr

/-- The message about a compiler that could not be run. -/
def CompilerFault.message? : CompilerFault → Option String
  | missing executable =>
    some (s!"Compiler executable '{executable}' not found. " ++
      "Install the .NET SDK or set compiler.command in the configuration.")
  | timedOut seconds => some s!"Compiler timed out after {seconds} seconds"
  | noExecutable | files _ => none

/-- A compilation: its result, every start of the compiler, and the files afterwards. -/
structure Compilation where
  result : Except CompilerFault CompileResult
  invocations : List Invocation
  files : FileTree

namespace CompilerConfig

/-- The folder of a run. -/
def folder : Path := ⟨0, ["grapplebuild-tmp"]⟩

def sourcePath (assembly : String) (number : Nat) : Path :=
  folder.join (Path.ofString s!"{assembly}.{number}.cs")

def outputPath (assembly : String) : Path := folder.join (Path.ofString (assembly ++ ".dll"))

def sourcePaths (r : CompileRequest) : List Path :=
  (List.range r.sources.length).map (sourcePath r.assembly)

def commandLine (c : CompilerConfig) (r : CompileRequest) : List String :=
  c.command ++ ["-nologo", "-target:library", "-out:" ++ (outputPath r.assembly).toString] ++
    r.references.map (fun p => "-r:" ++ p.toString) ++ c.extraArgs ++
    (sourcePaths r).map Path.toString

/-- Writes texts into files, in order. -/
def writeTexts (t : FileTree) : List (Path × String) → Except FileFault FileTree
  | [] => .ok t
  | (path, text) :: rest => do
    writeTexts (← t.write path (Text.encodeUtf8 text.toList)) rest

/-- The folder of a run with every source in it. -/
def prepare (t : FileTree) (r : CompileRequest) : Except FileFault FileTree := do
  writeTexts (← t.makeFolder folder) ((sourcePaths r).zip r.sources)

def invocation (c : CompilerConfig) (t : FileTree) (r : CompileRequest) : Invocation :=
  ⟨c.commandLine r, c.timeout, outputPath r.assembly,
    (sourcePaths r).filterMap fun p => (t.read p).toOption⟩

/-! ## Results -/

/-- Both outputs, an empty one left out. -/
def joinOutputs (stdout stderr : String) : List Char :=
  if stdout = "" then stderr.toList
  else if stderr = "" then stdout.toList
  else stdout.toList ++ '\n' :: stderr.toList

/-- How much of the output an exit message quotes. -/
def quotedLength : Nat := 500

def exitMessage (code : Int) (output : List Char) : String :=
  let quoted := (Text.trim Text.isBlank output).take quotedLength
  s!"Compiler exited with code {code}: " ++
    if quoted.isEmpty then "no output" else String.ofList quoted

/-- The result of a run: the artifact only if nothing speaks against it. -/
def judge (code : Int) (output : List Char) (artifact : Option Bytes) : CompileResult :=
  let found := Report.diagnosticsIn folder.toString.toList output
  if found.any Diagnostic.isError then ⟨none, found⟩
  else
    match artifact with
    | some bytes =>
      if code = 0 then ⟨some bytes, found⟩
      else ⟨none, found ++ [.ofMessage (exitMessage code output)]⟩
    | none => ⟨none, found ++ [.ofMessage (exitMessage code output)]⟩

/-- Leaves the artifact of a run in its output file. -/
def leave (t : FileTree) (output : Path) : Option Bytes → FileTree
  | some bytes => (t.write output bytes).toOption.getD t
  | none => t

/-- Compiles sources with a compiler that answers as `run` says. -/
def compile (c : CompilerConfig) (run : Invocation → RunOutcome) (t : FileTree)
    (r : CompileRequest) : Compilation :=
  match prepare t r with
  | .error fault => ⟨.error (.files fault), [], t.removeFolder folder.parts⟩
  | .ok prepared =>
    let start := c.invocation prepared r
    match run start with
    | .missing =>
      ⟨.error (c.command.head?.elim .noExecutable .missing), [start],
        prepared.removeFolder folder.parts⟩
    | .timedOut => ⟨.error (.timedOut c.timeout), [start], prepared.removeFolder folder.parts⟩
    | .finished code stdout stderr artifact =>
      let left := leave prepared start.output artifact
      ⟨.ok (judge code (joinOutputs stdout stderr) (left.read start.output).toOption), [start],
        left.removeFolder folder.parts⟩

end CompilerConfig

end Assemblage
