import Assemblage.Header.Directive
import Assemblage.Header.Span

/-!
Extraction of the header of a fragment. The lines are passed over from the top as long as each is
blank, a comment or a directive; the header ends right behind the last directive, and the line
terminator behind it belongs to the body. A keyword further down is never a directive; if the
header holds none, such a line is reported.
-/

namespace Assemblage
set_option autoImplicit false
open Assemblage.Text

/-- A directive that stands outside the header. -/
structure Stray where
  line : List Char
  offset : Nat
  deriving DecidableEq

def Stray.message (source : Option String) (s : Stray) : String :=
  let source := (source.filter (· != "")).getD "fragment"
  let line := String.ofList (trim isBlank s.line)
  s!"{source}: directive '{line}' at offset {s.offset} is outside the header; treating the whole " ++
    "text as body"

/-- The directives of a header, and the part of the text that it covers. -/
structure Extraction where
  directives : List (List Char)
  span : Span
  stray : Option Stray

namespace Header

/-- What a line is, seen from the top of a fragment. -/
inductive LineKind where
  | blank
  | comment
  | directive (clause : List Char)
  | other
  deriving DecidableEq

/-- The directive on a line, byte-order marks in front of it aside. -/
def directive? (g : DirectiveGrammar) (content : List Char) : Option (List Char) :=
  Directive.recognise g.keywords (content.dropWhile isMark)

def kind (g : DirectiveGrammar) (content : List Char) : LineKind :=
  let inner := trim (fun c => isPadding c || isMark c) content
  if inner.isEmpty then .blank
  else if g.skipComments && "//".toList.isPrefixOf inner then .comment
  else
    match directive? g content with
    | some clause => .directive clause
    | none => .other

/-- Where the content of a line ends, spaces and tabs at its end aside. -/
def contentEnd (line : Line) : Nat := line.start + (trimEnd isPadding line.content).length

/-- The directives of the header, each with the end of its line. -/
def scan (g : DirectiveGrammar) : List Line → List (List Char × Nat)
  | [] => []
  | line :: rest =>
    match kind g line.content with
    | .other => []
    | .directive clause => (Directive.normalize clause, contentEnd line) :: scan g rest
    | .blank | .comment => scan g rest

/-- The first line of a text that is a directive anywhere. -/
def stray? (g : DirectiveGrammar) (lines : List Line) : Option Stray :=
  (lines.find? fun line => (directive? g line.content).isSome).map fun line =>
    ⟨line.content, line.start⟩

def extract (g : DirectiveGrammar) (text : List Char) : Extraction :=
  let lines := physicalLines text
  let found := scan g lines
  match found.getLast? with
  | some last => ⟨found.map Prod.fst, .upTo last.2, none⟩
  | none => ⟨[], .empty, stray? g lines⟩

/-- The extraction with the checks of its span: that the span is in order, and that it fits the
text. -/
def attempt (g : DirectiveGrammar) (text : List Char) : Except SpanFault Extraction := do
  let lines := physicalLines text
  let found := scan g lines
  match found.getLast? with
  | some last =>
    let span ← Span.of 0 last.2
    span.fits text
    return ⟨found.map Prod.fst, span, none⟩
  | none => return ⟨[], .empty, stray? g lines⟩

end Header

namespace Extraction

/-- The text behind the header. -/
def body (e : Extraction) (text : List Char) : List Char := text.drop e.span.stop

def header (e : Extraction) (text : List Char) : List Char := text.take e.span.stop

end Extraction

end Assemblage
