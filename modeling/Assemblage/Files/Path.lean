/-!
Paths with slashes. Repeated slashes and single points vanish when a path is read; exactly two
slashes in front stay two.
-/

namespace Assemblage
set_option autoImplicit false

structure Path where
  /-- The slashes in front: none, one or two. -/
  slashes : Nat
  parts : List String
  deriving DecidableEq, Repr, Inhabited

namespace Path

/-- Cuts a text at every slash. -/
def splitSlashes (s : List Char) : List (List Char) :=
  s.foldr
    (fun c parts =>
      match parts with
      | part :: rest => if c == '/' then [] :: part :: rest else (c :: part) :: rest
      | [] => [])
    [[]]

def ofString (s : String) : Path :=
  let leading := (s.toList.takeWhile (· == '/')).length
  let parts := (splitSlashes s.toList).filter fun part => part != [] && part != ['.']
  ⟨if leading = 2 then 2 else min leading 1, parts.map String.ofList⟩

def toString (p : Path) : String :=
  if p.slashes = 0 && p.parts.isEmpty then "."
  else String.ofList (List.replicate p.slashes '/') ++ "/".intercalate p.parts

/-- The place where a run begins. -/
def here : Path := ⟨0, []⟩

def child (p : Path) (name : String) : Path := ⟨p.slashes, p.parts ++ [name]⟩

/-- The second path seen from the first; an absolute one stands for itself. -/
def join (p q : Path) : Path := if q.slashes = 0 then ⟨p.slashes, p.parts ++ q.parts⟩ else q

def parent (p : Path) : Path := ⟨p.slashes, p.parts.dropLast⟩

def name (p : Path) : String := p.parts.getLastD ""

/-- A name up to its last point, unless that is its first or last character. -/
def stemOf (name : List Char) : List Char :=
  let suffix := (name.reverse.takeWhile (· != '.')).length
  let dot := name.length - suffix - 1
  if suffix = 0 || name.length ≤ suffix + 1 then name else name.take dot

def stem (p : Path) : String := String.ofList (stemOf p.name.toList)

/-- The parts of a path with every step back undone. -/
def resolved (parts : List String) : List String :=
  parts.foldl (fun seen part => if part = ".." then seen.dropLast else seen ++ [part]) []

/-- The text of a path seen from the place where the run began. -/
def absolute (p : Path) (here : String) : String :=
  if p.slashes = 0 then here ++ String.join ((resolved p.parts).map ("/" ++ ·))
  else "/" ++ "/".intercalate (resolved p.parts)

/-- The parts of a path below another path. -/
def below? (p root : Path) : Option (List String) :=
  if p.slashes = root.slashes && root.parts.isPrefixOf p.parts then
    some (p.parts.drop root.parts.length)
  else none

/-- The order by parts, and by code points within a part. -/
def partsLe : List String → List String → Bool
  | [], _ => true
  | _ :: _, [] => false
  | a :: s, b :: t => a < b || (a == b && partsLe s t)

end Path

end Assemblage
