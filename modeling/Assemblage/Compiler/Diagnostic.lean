import Assemblage.Schema

/-!
Diagnostics, and the result of a compilation: an artifact if there is one, and the diagnostics in
the order in which the compiler gave them. It succeeded if there is an artifact and no error.
-/

namespace Assemblage
set_option autoImplicit false
open Assemblage.Text (Bytes)

inductive Severity where
  | info
  | warning
  | error
  deriving DecidableEq, Repr

namespace Severity

def name : Severity → String
  | info => "info"
  | warning => "warning"
  | error => "error"

def all : List Severity := [error, warning, info]

def check : Value → Checked Severity := Schema.choice (all.map fun s => (s.name, s))

end Severity

structure Diagnostic where
  severity : Severity
  message : String
  code : Option String
  location : Option String
  deriving DecidableEq, Repr

namespace Diagnostic

/-- An error without code and location. -/
def ofMessage (message : String) : Diagnostic := ⟨.error, message, none, none⟩

def isError (d : Diagnostic) : Bool := d.severity == .error

/-- The diagnostic on one line; an empty location or code counts as none. -/
def text (d : Diagnostic) : String :=
  let location := (d.location.filter (· != "")).elim "" (· ++ ": ")
  let code := (d.code.filter (· != "")).elim "" (" " ++ ·)
  location ++ d.severity.name ++ code ++ ": " ++ d.message

def check : Value → Checked Diagnostic :=
  Schema.record fun es =>
    Diagnostic.mk
      <$> Schema.required es "severity" Severity.check
      <*> Schema.required es "message" Schema.string
      <*> Schema.defaulted es "code" none (Schema.optional Schema.string)
      <*> Schema.defaulted es "location" none (Schema.optional Schema.string)

end Diagnostic

structure CompileResult where
  artifact : Option Bytes
  diagnostics : List Diagnostic
  deriving DecidableEq, Repr

namespace CompileResult

def errors (r : CompileResult) : List Diagnostic := r.diagnostics.filter Diagnostic.isError

/-- The artifact of a compilation without an error. -/
def product? (r : CompileResult) : Option Bytes := if r.errors.isEmpty then r.artifact else none

def succeeded (r : CompileResult) : Bool := r.product?.isSome

end CompileResult

end Assemblage
