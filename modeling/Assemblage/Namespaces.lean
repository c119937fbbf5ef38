/-!
Bodies filed by namespace, in the order in which the namespaces were first met. A body without a
namespace belongs to the root.
-/

namespace Assemblage
set_option autoImplicit false

/-- The bodies of one namespace, in the order of submission. -/
structure Scope where
  name : String
  bodies : List String
  deriving DecidableEq, Repr

structure Namespaces where
  root : String
  scopes : List Scope
  deriving DecidableEq, Repr

namespace Namespaces

def ofRoot (root : String) : Namespaces := ⟨root, []⟩

/-- The namespace that a hint names: none and the empty one are the root. -/
def target (n : Namespaces) (hint : Option String) : String :=
  match hint with
  | none => n.root
  | some name => if name = "" then n.root else name

/-- Puts a body behind the others of its namespace, or opens the namespace with it. -/
def file (name body : String) : List Scope → List Scope
  | [] => [⟨name, [body]⟩]
  | s :: rest =>
    if s.name = name then ⟨s.name, s.bodies ++ [body]⟩ :: rest else s :: file name body rest

def add (n : Namespaces) (hint : Option String) (body : String) : Namespaces :=
  { n with scopes := file (n.target hint) body n.scopes }

def names (n : Namespaces) : List String := n.scopes.map Scope.name

/-- The bodies of a namespace. -/
def bodies (n : Namespaces) (name : String) : List String :=
  ((n.scopes.find? fun s => s.name = name).map Scope.bodies).getD []

def isRoot (n : Namespaces) (name : String) : Bool := name = n.root

end Namespaces

end Assemblage
