import Assemblage.Files.Pattern
import Assemblage.Files.Tree
import Assemblage.Fragment
import Assemblage.Text.Lines

/-!
Finding and reading input files. A file is found if its name matches a pattern and no name on the
way to it is excluded; files come in the order of their paths. The folders between the input
folder and a file make its namespace.
-/

namespace Assemblage
set_option autoImplicit false
open Assemblage.Text (Bytes)

/-- Why input files cannot be read. -/
inductive InputFault where
  | missingFolder (folder : Path)
  /-- A file that is no UTF-8 from a byte on. -/
  | notUtf8 (file : Path) (offset : Nat)
  | unreadable (file : Path) (fault : FileFault)
  deriving DecidableEq, Repr

def InputFault.message : InputFault → String
  | missingFolder folder => s!"Input directory not found: {folder.toString}"
  | notUtf8 file offset =>
    s!"{file.toString} is not valid UTF-8 (byte {offset}): re-save it as UTF-8"
  | unreadable file fault => s!"Cannot read {file.toString}: {fault.message file}"

namespace Discovery

/-- The text of a file: without a byte-order mark in front, every line end a line feed. -/
def decode (bytes : Bytes) : Except Nat (List Char) :=
  (Text.decodeFile bytes).map Text.unifyBreaks

def read (t : FileTree) (p : Path) : Except InputFault String :=
  match t.read p with
  | .error f => .error (.unreadable p f)
  | .ok bytes =>
    match decode bytes with
    | .ok s => .ok (String.ofList s)
    | .error offset => .error (.notUtf8 p offset)

/-- Whether a file below the input folder is wanted. -/
def isWanted (patterns exclude : List String) (recursive : Bool) (below : List String) : Bool :=
  (recursive || below.length == 1) && matchesAny patterns (below.getLastD "") &&
    !below.any (matchesAny exclude)

/-- The names below a folder, of every file in it. -/
def filesBelow (t : FileTree) (folder : List String) : List (List String) :=
  t.files.filterMap fun f =>
    if folder.isPrefixOf f.1 && folder.length < f.1.length then some (f.1.drop folder.length)
    else none

/-- The wanted files below a folder, in the order of their names. -/
def find (t : FileTree) (folder : Path) (patterns exclude : List String) (recursive : Bool) :
    Except InputFault (List (List String)) :=
  match t.locate folder with
  | .ok (.folder names) =>
    .ok (((filesBelow t names).filter (isWanted patterns exclude recursive)).mergeSort Path.partsLe)
  | _ => .error (.missingFolder folder)

/-- The path of a file below a folder. -/
def pathOf (folder : Path) (below : List String) : Path := folder.join ⟨0, below⟩

/-- The namespace of a file below the input folder: none right in it. -/
def hint (below : List String) : Option String :=
  if below.length ≤ 1 then none else some (".".intercalate below.dropLast)

/-- The namespace of a file with this path; no answer for a file that is not below the folder. -/
def hintOf? (file root : Path) : Option (Option String) := (file.below? root).map hint

def orUsual (usual patterns : List String) : List String :=
  if patterns.isEmpty then usual else patterns

def scriptPatterns : List String := ["*.cs"]

def scenePatterns : List String := ["*.yaml", "*.yml"]

/-- Reads every wanted script. -/
def fragments (t : FileTree) (folder : Path) (patterns exclude : List String) (recursive : Bool) :
    Except InputFault (List Fragment) := do
  let found ← find t folder (orUsual scriptPatterns patterns) exclude recursive
  found.mapM fun below => do
    let text ← read t (pathOf folder below)
    return ⟨text, if recursive then hint below else none, some ("/".intercalate below)⟩

/-- Reads every wanted scene, as its file name and its text. -/
def scenes (t : FileTree) (folder : Path) (patterns exclude : List String) (recursive : Bool) :
    Except InputFault (List (String × String)) := do
  let found ← find t folder (orUsual scenePatterns patterns) exclude recursive
  found.mapM fun below => do
    let text ← read t (pathOf folder below)
    return (below.getLastD "", text)

end Discovery

end Assemblage
