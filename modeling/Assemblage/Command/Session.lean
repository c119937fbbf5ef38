import Assemblage.Build.Scenes
import Assemblage.Command.Markup
import Assemblage.Config.Load

/-!
Sessions: what a part of a run does. It has an outcome, shows and reports things, starts the
compiler, and leaves files. Parts are joined so that a part that stops the run ends it.
-/

namespace Assemblage
set_option autoImplicit false

/-- Why a run stops without a message of its own. -/
inductive Stop where
  | config (fault : ConfigFault)
  | embed (fault : EmbedFault)
  | files (fault : FileFault)
  /-- The command of the compiler is empty, and it could not be started. -/
  | noExecutable

structure Session (α : Type) where
  outcome : Except Stop α
  shown : List Shown
  notices : List Notice
  invocations : List Invocation
  files : FileTree

namespace Session

/-- An outcome, and nothing else. -/
def done {α : Type} (t : FileTree) (a : α) : Session α := ⟨.ok a, [], [], [], t⟩

def stop {α : Type} (t : FileTree) (s : Stop) : Session α := ⟨.error s, [], [], [], t⟩

/-- Shows things before anything else. -/
def showing {α : Type} (shown : List Shown) (s : Session α) : Session α :=
  { s with shown := shown ++ s.shown }

def noticing {α : Type} (notices : List Notice) (s : Session α) : Session α :=
  { s with notices := notices ++ s.notices }

/-- Goes on with the outcome and the files, unless the run stopped. -/
def andThen {α β : Type} (s : Session α) (next : α → FileTree → Session β) : Session β :=
  match s.outcome with
  | .error stopped => ⟨.error stopped, s.shown, s.notices, s.invocations, s.files⟩
  | .ok a =>
    let more := next a s.files
    ⟨more.outcome, s.shown ++ more.shown, s.notices ++ more.notices,
      s.invocations ++ more.invocations, more.files⟩

end Session

end Assemblage
