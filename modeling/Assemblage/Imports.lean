import Assemblage.Header.Directive

/-!
The imports of a build: a list of directives in normal form without repetition, in the order in
which they were first seen. It only grows.
-/

namespace Assemblage
set_option autoImplicit false

structure Imports where
  directives : List (List Char)
  deriving DecidableEq

namespace Imports

def empty : Imports := ⟨[]⟩

/-- Takes in one directive, unless it is empty or known. -/
def add (r : Imports) (raw : List Char) : Imports :=
  let directive := Directive.normalize raw
  if directive.isEmpty || r.directives.contains directive then r
  else ⟨r.directives ++ [directive]⟩

def merge (r : Imports) (raws : List (List Char)) : Imports := raws.foldl add r

def ofList (raws : List (List Char)) : Imports := empty.merge raws

def contains (r : Imports) (raw : List Char) : Bool :=
  r.directives.contains (Directive.normalize raw)

end Imports

end Assemblage
