import Assemblage.Command.Session
import Assemblage.Files.Discovery

/-!
Building every kind of asset. Each enabled kind is tried in turn whatever became of the others: its
files are gathered into a builder, the builder compiles, and the result is shown. A kind without
its folder is skipped, which is no failure.
-/

namespace Assemblage
set_option autoImplicit false

/-- What a run is given: the compiler's answers, and the place where it runs. -/
structure Surroundings where
  run : Invocation → RunOutcome
  here : String

/-- What became of one kind. -/
inductive Verdict where
  | success
  | failure
  | skipped
  deriving DecidableEq, Repr

/-- Why there is no builder of a kind. -/
inductive GatherFault where
  | input (fault : InputFault)
  | embed (fault : EmbedFault)

namespace Build

def errorLine (message : String) : Shown :=
  .markup ("[bold red]Error:[/bold red] " ++ Markup.escape message)

/-! ## Gathering -/

/-- The names of what is built; they are shown as they are. -/
def namesLine (kind : AssetKind) (names : List String) : Shown :=
  let list := ", ".intercalate names
  let list := if list = "" then "(none)" else list
  .markup s!"Building the following {kind.name}: {list}"

/-- A builder with all the files of a kind. -/
structure Gathered where
  outcome : Except GatherFault Builder
  shown : List Shown
  notices : List Notice

def gatherScenes [Stack] (c : BuildConfig) (t : FileTree) : Gathered :=
  let k := c.scenes
  match Discovery.scenes t k.directory k.patterns c.exclude c.recursive with
  | .error fault => ⟨.error (.input fault), [], []⟩
  | .ok scenes =>
    let step := (SceneBuilder.ofSettings (c.settings .scenes) c.embed).addScenes
      (scenes.map fun s => (s.1, Scene.read s.2.toList))
    ⟨match step.outcome with
      | .ok _ => .ok step.builder.builder
      | .error fault => .error (.embed fault),
      [namesLine .scenes (scenes.map Prod.fst)], step.notices⟩

def gatherFragments (c : BuildConfig) (kind : AssetKind) (t : FileTree) : Gathered :=
  let k := c.kind kind
  match Discovery.fragments t k.directory k.patterns c.exclude c.recursive with
  | .error fault => ⟨.error (.input fault), [], []⟩
  | .ok fragments =>
    let (builder, notices) := (Builder.ofSettings (c.settings kind)).addAll fragments
    ⟨.ok builder, [namesLine kind (fragments.filterMap Fragment.source)], notices⟩

def gather [Stack] (c : BuildConfig) (kind : AssetKind) (t : FileTree) : Gathered :=
  match kind with
  | .scenes => gatherScenes c t
  | kind => gatherFragments c kind t

/-! ## Showing results -/

def style : Severity → String
  | .error => "bold red"
  | .warning => "yellow"
  | .info => "dim"

def row (d : Diagnostic) : List String :=
  [Markup.styled (style d.severity) d.severity.name, d.code.getD "",
    Markup.escape (d.location.getD ""), Markup.escape d.message]

def diagnosticsTable (diagnostics : List Diagnostic) : Shown :=
  if diagnostics.isEmpty then .markup "  [dim]No diagnostics[/dim]"
  else
    .table "Diagnostic results" ["Severity", "Code", "Location", "Message"] (diagnostics.map row)

def failureLine (kind : AssetKind) : Shown :=
  .markup s!"[bold red]✗ Building {kind.name} failed![/bold red]"

def resultLine (here : String) (kind : AssetKind) (output : Path) (r : CompileResult) : Shown :=
  if r.succeeded then
    .markup ("[green]✓[/green] Output .dll to file path: " ++ output.absolute here)
  else failureLine kind

/-! ## One kind -/

/-- Compiles a builder and writes the artifact. -/
def compile (env : Surroundings) (c : BuildConfig) (kind : AssetKind) (b : Builder)
    (t : FileTree) : Session Verdict :=
  let output := (c.kind kind).output
  let attempt := b.compile (c.compiler.compile env.run) t output none
  let session (outcome : Except Stop Verdict) (shown : List Shown) : Session Verdict :=
    ⟨outcome, shown, attempt.notices, attempt.invocations, attempt.files⟩
  match attempt.result with
  | .error (.output fault) => session (.error (.files fault)) []
  | .error (.compiler (.files fault)) => session (.error (.files fault)) []
  | .error (.compiler fault) =>
    match fault.message? with
    | some message => session (.ok .failure) [errorLine message]
    | none => session (.error .noExecutable) []
  | .ok r =>
    session (.ok (if r.succeeded then .success else .failure))
      [resultLine env.here kind output r, diagnosticsTable r.diagnostics]

/-- What is done where there is no builder. -/
def refuse (kind : AssetKind) (t : FileTree) : GatherFault → Session Verdict
  | .input (.missingFolder folder) =>
    (Session.done t Verdict.skipped).showing
      [.markup ("[yellow]⚠ " ++ Markup.escape (InputFault.missingFolder folder).message ++
        s!"; skipping {kind.name}[/yellow]")]
  | .input fault =>
    (Session.done t Verdict.failure).showing [errorLine fault.message, failureLine kind]
  | .embed fault =>
    match fault.message? with
    | some message =>
      (Session.done t Verdict.failure).showing [errorLine message, failureLine kind]
    | none => .stop t (.embed fault)

variable [Stack]

/-- Builds one kind. -/
def one (env : Surroundings) (c : BuildConfig) (kind : AssetKind) (t : FileTree) :
    Session Verdict :=
  if !(c.kind kind).enabled then .done t .skipped
  else
    let gathered := gather c kind t
    let session :=
      match gathered.outcome with
      | .error fault => refuse kind t fault
      | .ok builder => compile env c kind builder t
    (session.noticing gathered.notices).showing
      (.markup s!"\n[bold cyan]Building {kind.name}[/bold cyan]" :: gathered.shown)

/-! ## All kinds -/

/-- Builds kinds in order; the outcome pairs each with its verdict. -/
def several (env : Surroundings) (c : BuildConfig) :
    List AssetKind → FileTree → Session (List (AssetKind × Verdict))
  | [], t => .done t []
  | kind :: rest, t =>
    (one env c kind t).andThen fun verdict t =>
      (several env c rest t).andThen fun verdicts t => .done t ((kind, verdict) :: verdicts)

/-- The kinds that failed. -/
def failed (verdicts : List (AssetKind × Verdict)) : List AssetKind :=
  (verdicts.filter fun v => v.2 == .failure).map Prod.fst

/-- The last line, and the exit code: one only for a failure that is taken strictly. -/
def close (strict : Bool) (verdicts : List (AssetKind × Verdict)) : Shown × Nat :=
  let failed := failed verdicts
  if failed.isEmpty then (.markup "\n[bold green]✓ All builds complete[/bold green]", 0)
  else
    (.markup ("\n[bold red]Failed builds:[/bold red] " ++
      ", ".intercalate (failed.map AssetKind.name)), if strict then 1 else 0)

/-- Builds every kind; the outcome is the exit code. -/
def all (env : Surroundings) (c : BuildConfig) (t : FileTree) : Session Nat :=
  (several env c AssetKind.all t).andThen fun verdicts t =>
    let (line, code) := close c.strict verdicts
    (Session.done t code).showing [line]

end Build

end Assemblage
