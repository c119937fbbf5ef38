import Assemblage.Files.Path
import Assemblage.Text.Utf8

/-!
Trees of files: folders, and files with their bytes, each under the list of names that leads to it
from the root. The root is the place where a run begins; nothing outside of it exists.
-/

namespace Assemblage
set_option autoImplicit false
open Assemblage.Text (Bytes)

structure FileTree where
  folders : List (List String)
  files : List (List String × Bytes)
  deriving DecidableEq, Repr

/-- Why an operation on files fails. -/
inductive FileFault where
  | missing
  | isFolder
  | notFolder
  | taken
  deriving DecidableEq, Repr

namespace FileFault

/-- The system's number and words for the fault. -/
def words : FileFault → String
  | missing => "[Errno 2] No such file or directory"
  | isFolder => "[Errno 21] Is a directory"
  | notFolder => "[Errno 20] Not a directory"
  | taken => "[Errno 17] File exists"

def message (f : FileFault) (path : Path) : String := s!"{f.words}: '{path.toString}'"

end FileFault

/-- What a path leads to; the names are those of the tree. -/
inductive Place where
  | folder (names : List String)
  | file (names : List String) (bytes : Bytes)
  /-- Nothing yet, in a folder that exists. -/
  | vacant (names : List String)

namespace FileTree

def empty : FileTree := ⟨[], []⟩

def isFolder (t : FileTree) (names : List String) : Bool := names.isEmpty || t.folders.contains names

def bytes? (t : FileTree) (names : List String) : Option Bytes := t.files.lookup names

/-- Follows the parts of a path from a folder. -/
def walk (t : FileTree) (names : List String) : List String → Except FileFault Place
  | [] => .ok (.folder names)
  | part :: rest =>
    if part = ".." then
      if names.isEmpty then .error .missing else walk t names.dropLast rest
    else
      let inner := names ++ [part]
      if t.isFolder inner then walk t inner rest
      else
        match t.bytes? inner with
        | some bytes => if rest.isEmpty then .ok (.file inner bytes) else .error .notFolder
        | none => if rest.isEmpty then .ok (.vacant inner) else .error .missing

def locate (t : FileTree) (p : Path) : Except FileFault Place :=
  if p.slashes = 0 then t.walk [] p.parts else .error .missing

def hasFolder (t : FileTree) (p : Path) : Bool :=
  match t.locate p with
  | .ok (.folder _) => true
  | _ => false

def hasAny (t : FileTree) (p : Path) : Bool :=
  match t.locate p with
  | .ok (.folder _) | .ok (.file ..) => true
  | _ => false

def read (t : FileTree) (p : Path) : Except FileFault Bytes :=
  match t.locate p with
  | .ok (.file _ bytes) => .ok bytes
  | .ok (.folder _) => .error .isFolder
  | .ok (.vacant _) => .error .missing
  | .error f => .error f

/-! ## Changes -/

def put (names : List String) (bytes : Bytes) :
    List (List String × Bytes) → List (List String × Bytes)
  | [] => [(names, bytes)]
  | f :: rest => if f.1 = names then (names, bytes) :: rest else f :: put names bytes rest

/-- Writes a file into a folder that exists. -/
def write (t : FileTree) (p : Path) (bytes : Bytes) : Except FileFault FileTree :=
  match t.locate p with
  | .ok (.file names _) | .ok (.vacant names) => .ok { t with files := put names bytes t.files }
  | .ok (.folder _) => .error .isFolder
  | .error f => .error f

def addFolder (t : FileTree) (names : List String) : FileTree :=
  if t.isFolder names then t else { t with folders := t.folders ++ [names] }

/-- Makes a folder and those around it; `reversed` are the parts of its path, the last one
first. -/
def makeFolders (t : FileTree) (reversed : List String) : Except FileFault FileTree :=
  match reversed with
  | [] => .ok t
  | part :: outer =>
    match t.walk [] (part :: outer).reverse with
    | .ok (.folder _) => .ok t
    | .ok (.file ..) => .error .taken
    | .ok (.vacant names) => .ok (t.addFolder names)
    | .error .missing => do
      let t ← makeFolders t outer
      match t.walk [] (part :: outer).reverse with
      | .ok (.folder _) => .ok t
      | .ok (.file ..) => .error .taken
      | .ok (.vacant names) => .ok (t.addFolder names)
      | .error f => .error f
    | .error f => .error f

def makeFolder (t : FileTree) (p : Path) : Except FileFault FileTree :=
  if p.slashes = 0 then t.makeFolders p.parts.reverse else .error .missing

/-- The tree after an attempt to make a folder: if it fails, those around it that could be made are
there. -/
def attemptFolders (t : FileTree) (reversed : List String) : FileTree :=
  match reversed with
  | [] => t
  | part :: outer =>
    match t.makeFolders (part :: outer) with
    | .ok u => u
    | .error _ => t.attemptFolders outer

def attemptFolder (t : FileTree) (p : Path) : FileTree :=
  if p.slashes = 0 then t.attemptFolders p.parts.reverse else t

/-- Takes a folder away, with everything in it. -/
def removeFolder (t : FileTree) (names : List String) : FileTree where
  folders := t.folders.filter fun f => !names.isPrefixOf f
  files := t.files.filter fun f => !names.isPrefixOf f.1

/-! ## Building -/

/-- Every folder around the names. -/
def around : List String → List (List String)
  | [] => []
  | name :: rest => [name] :: (around rest).map (name :: ·)

/-- A tree of files and empty folders; the folders around them are made. -/
def ofList (files : List (List String × Bytes)) (folders : List (List String)) : FileTree :=
  let outer := (files.flatMap fun f => around f.1.dropLast) ++ folders.flatMap around
  ⟨outer.eraseDups, files⟩

/-- The files that another tree has not, or not with these bytes. -/
def changed (t old : FileTree) : List (List String × Bytes) :=
  t.files.filter fun f => old.bytes? f.1 != some f.2

end FileTree

end Assemblage
