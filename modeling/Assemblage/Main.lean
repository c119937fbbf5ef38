import Assemblage.Command.Execute

/-!
The command line. The files below the current folder are read before a run and the changed ones are
written after it. No process is started from here, so that a compiler counts as not found.
-/

namespace Assemblage
set_option autoImplicit false

/-- What a message says about a run that stopped. -/
def Stop.text : Stop → String
  | config _ => "the configuration file cannot be read"
  | embed _ => "a scene cannot be embedded"
  | files fault => fault.words
  | noExecutable => "no compiler is named"

/-- Every file below a folder, and every folder, under its names. -/
partial def readTree (names : List String) (entries : Array IO.FS.DirEntry) : IO FileTree := do
  let mut tree := FileTree.empty
  for entry in entries do
    let inner := names ++ [entry.fileName]
    if ← entry.path.isDir then
      let below ← readTree inner (← entry.path.readDir)
      tree := ⟨tree.folders ++ inner :: below.folders, tree.files ++ below.files⟩
    else
      let bytes ← IO.FS.readBinFile entry.path
      tree := { tree with files := tree.files ++ [(inner, bytes.toList)] }
  return tree

end Assemblage

open Assemblage in
def main (args : List String) : IO UInt32 := do
  let here ← IO.currentDir
  let tree ← readTree [] (← here.readDir)
  let session := Command.runLine ⟨fun _ => .missing, here.toString⟩ tree args
  for shown in session.shown do
    IO.println shown.plainText
  for notice in session.notices do
    IO.eprintln notice.message
  for (names, bytes) in session.files.changed tree do
    let path := names.foldl (· / ·) here
    if let some folder := path.parent then
      IO.FS.createDirAll folder
    IO.FS.writeBinFile path ⟨bytes.toArray⟩
  match session.outcome with
  | .ok code => return UInt32.ofNat code
  | .error stopped =>
    IO.eprintln stopped.text
    return 1
