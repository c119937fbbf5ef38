import Assemblage.Namespaces
import Assemblage.Schema

/-!
Source units, and the one text that each is written as: the directives and a blank line, the root
namespace with the marker, the bodies of every namespace, and the epilogue. Bodies are never looked
into; each is only brought to the end of its line.
-/

namespace Assemblage
set_option autoImplicit false

structure SourceUnit where
  directives : List String
  root : String
  /-- A declaration that is there even if every body is empty. -/
  marker : String
  scopes : List Scope
  /-- Declarations of the root namespace behind all bodies. -/
  epilogue : List String
  deriving DecidableEq, Repr

namespace SourceUnit

/-- An empty type, through which a program can reach the compiled unit. -/
def usualMarker : String := "public static class Example\x7b\x7d"

def checkScope : Value → Checked Scope :=
  Schema.record fun es =>
    Scope.mk
      <$> Schema.required es "name" Schema.string
      <*> Schema.defaulted es "bodies" [] (Schema.listOf Schema.string)

def check : Value → Checked SourceUnit :=
  Schema.record fun es =>
    SourceUnit.mk
      <$> Schema.defaulted es "directives" [] (Schema.tupleOf Schema.string)
      <*> Schema.required es "root_namespace" Schema.string
      <*> Schema.defaulted es "marker_declaration" usualMarker Schema.string
      <*> Schema.defaulted es "namespace_units" [] (Schema.tupleOf checkScope)
      <*> Schema.defaulted es "epilogue" [] (Schema.tupleOf Schema.string)

/-! ## Writing -/

/-- A text with a line feed at its end. -/
def terminated (s : String) : String :=
  if s.toList.getLast? = some '\n' then s else s ++ "\n"

def writeHeader (directives : List String) : String :=
  String.join (directives.map (· ++ "\n")) ++ "\n"

def openBlock (name : String) : String := "namespace " ++ name ++ "\n\x7b\n"

def closeBlock : String := "\x7d\n"

/-- The bodies of a scope: as they are in the root, in a block of their own elsewhere. -/
def writeScope (root : String) (s : Scope) : String :=
  let inner := String.join (s.bodies.map terminated)
  if s.name = root then inner else openBlock s.name ++ inner ++ closeBlock

def write (u : SourceUnit) : String :=
  writeHeader u.directives ++ openBlock u.root ++ terminated u.marker ++
    String.join (u.scopes.map (writeScope u.root)) ++ String.join (u.epilogue.map terminated) ++ closeBlock

end SourceUnit

end Assemblage
