import Assemblage.Compiler.Diagnostic
import Assemblage.Text.Blank
import Assemblage.Text.Digit
import Assemblage.Text.Lines
import Assemblage.Text.Matcher

/-!
The report of a compiler. Each line that is a diagnostic says its severity, code and message, and
maybe the location in front of them: any text that ends in a place in parentheses. Of several
places the first one counts behind which the rest of the line is a diagnostic.
-/

namespace Assemblage.Report
set_option autoImplicit false
open Assemblage.Text Matcher

/-! ## The parts of a line -/

def isLetter (c : Char) : Bool := ('A' ≤ c && c ≤ 'Z') || ('a' ≤ c && c ≤ 'z')

def char (c : Char) : Matcher := one (· == c)

def number : Matcher := most1 isDigit

/-- A line and a column, or the line and column of a beginning and of an end. -/
def place : Matcher :=
  row [char '(', number, char ',', number,
    opt (row [char ',', number, char ',', number]), char ')']

/-- A colon with white space around it. -/
def colon : Matcher := row [most isBlank, char ':', most isBlank]

def severity? (s : List Char) : Option (Severity × List Char) :=
  (Severity.all.find? fun v => v.name.toList.isPrefixOf s).map fun v =>
    (v, s.drop v.name.length)

/-- A code: letters and digits. -/
def code : Matcher := row [most1 isLetter, most1 isDigit]

/-- The part of a line behind the location. -/
def clause? (s : List Char) : Option Diagnostic := do
  let (severity, s) ← severity? s
  let s ← (most1 isBlank s).head?
  let behind ← (code s).head?
  let message ← (colon behind).head?
  return ⟨severity, String.ofList (trimEnd isBlank message), some (String.ofList (front s behind)),
    none⟩

/-- The diagnostic of a line whose location ends in a place at the front of this part of it. -/
def located? (line part : List Char) : Option Diagnostic := do
  let behind ← (place part).head?
  let rest ← (colon behind).head?
  let d ← clause? rest
  return { d with location := some (String.ofList (front line behind)) }

/-- Looks for the first place in a part of a line that ends a location. -/
def seek? (line : List Char) : List Char → Option Diagnostic
  | [] => none
  | c :: rest =>
    match located? line (c :: rest) with
    | some d => some d
    | none => seek? line rest

/-- The diagnostic of a line, if it is one. A location has a character in front of its place. -/
def diagnostic? (line : List Char) : Option Diagnostic :=
  let line := trim isBlank line
  match seek? line (line.drop 1) with
  | some d => some d
  | none => clause? line

/-! ## Locations -/

def isSeparator (c : Char) : Bool := c == '/' || c == '\\'

/-- A location that begins with the folder's text, without that and the separators behind it. -/
def cutFolder (folder location : List Char) : List Char :=
  if !folder.isEmpty && folder.isPrefixOf location then
    (location.drop folder.length).dropWhile isSeparator
  else location

def localize (folder : List Char) (d : Diagnostic) : Diagnostic :=
  { d with location := d.location.map fun s => String.ofList (cutFolder folder s.toList) }

/-! ## Whole reports -/

/-- The diagnostics of a report, in its order. -/
def diagnostics (report : List Char) : List Diagnostic :=
  (contentLines report).filterMap diagnostic?

/-- The diagnostics, their locations seen from a folder. -/
def diagnosticsIn (folder report : List Char) : List Diagnostic :=
  (diagnostics report).map (localize folder)

end Assemblage.Report
