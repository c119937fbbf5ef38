import Assemblage.Command.Arguments
import Assemblage.Command.Build
import Assemblage.Config.Template

/-!
Carrying out a command line: build, preview, init or version. The outcome is the exit code.
-/

namespace Assemblage
set_option autoImplicit false

namespace Command

def versionNumber : String := "1.0.0"

def banner : Shown :=
  .panel s!"[bold cyan]grapplebuild[/bold cyan] {versionNumber}\nScript & scene assembly builder"

/-- The exit code for what has not the form of a command line. -/
def usageCode : Nat := 2

variable [Stack] [Streaming]

/-- The configuration of a file, or the usual one, with overrides on top. -/
def configuration (t : FileTree) (config : Option String) (o : Overrides) :
    Except ConfigFault BuildConfig :=
  match config with
  | none => .ok (o.apply .usual)
  | some path => (BuildConfig.load t (Path.ofString path)).map o.apply

/-- Goes on with a configuration, or says what is wrong with it. -/
def withConfiguration (t : FileTree) (config : Option String) (o : Overrides)
    (next : BuildConfig → Session Nat) : Session Nat :=
  match configuration t config o with
  | .ok c => next c
  | .error fault =>
    match fault.message? with
    | some message =>
      (Session.done t 1).showing
        [.markup ("[bold red]Configuration Error:[/bold red] " ++ message)]
    | none => .stop t (.config fault)

def runBuild (env : Surroundings) (config : Option String) (o : Overrides) (t : FileTree) :
    Session Nat :=
  (withConfiguration t config o fun c => Build.all env c t).showing [banner]

/-! ## Preview -/

/-- Shows a source, or writes it into a file. -/
def present (source : String) (output : Option String) (t : FileTree) : Session Nat :=
  match output with
  | none => (Session.done t 0).showing [.code source]
  | some output =>
    match t.write (Path.ofString output) (Text.encodeUtf8 source.toList) with
    | .ok t => (Session.done t 0).showing [.markup s!"[green]✓[/green] Wrote {output}"]
    | .error fault => .stop t (.files fault)

def refusePreview (t : FileTree) : GatherFault → Session Nat
  | .input fault => (Session.done t 1).showing [Build.errorLine fault.message]
  | .embed fault =>
    match fault.message? with
    | some message => (Session.done t 1).showing [Build.errorLine message]
    | none => .stop t (.embed fault)

/-- Gives the source of one kind without compiling it. -/
def runPreview (kind : AssetKind) (config : Option String) (o : Overrides) (output : Option String)
    (t : FileTree) : Session Nat :=
  withConfiguration t config o fun c =>
    let gathered := Build.gather c kind t
    let session :=
      match gathered.outcome with
      | .ok builder => present builder.source output t
      | .error fault => refusePreview t fault
    (session.noticing gathered.notices).showing gathered.shown

/-! ## The other commands -/

/-- Writes the configuration to begin with; a file that is there is kept unless forced. -/
def runInit (output : String) (force : Bool) (t : FileTree) : Session Nat :=
  let path := Path.ofString output
  if t.hasAny path && !force then
    (Session.done t 1).showing
      [.markup s!"[yellow]File {output} already exists. Use --force to overwrite.[/yellow]"]
  else
    match BuildConfig.writeUsual t path with
    | .ok t =>
      (Session.done t 0).showing
        [.markup s!"[green]✓[/green] Generated default configuration: {output}"]
    | .error fault => .stop t (.files fault)

def execute (env : Surroundings) (t : FileTree) : Command → Session Nat
  | .build config o => runBuild env config o t
  | .preview kind config o output => runPreview kind config o output t
  | .init output force => runInit output force t
  | .version => (Session.done t 0).showing [.markup s!"grapplebuild version {versionNumber}"]
  | .help => .done t 0

/-- Carries out a command line. -/
def runLine (env : Surroundings) (t : FileTree) (args : List String) : Session Nat :=
  match read? args with
  | some command => execute env t command
  | none => .done t usageCode

end Command

end Assemblage
