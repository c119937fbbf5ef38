import Assemblage.Schema
import Assemblage.Text.Blank
import Assemblage.Text.Lines
import Assemblage.Text.Matcher

/-!
Directives: the lines at the top of a fragment that import names. A directive opens with a
keyword, may say `static` and give an alias, names what it imports, with type arguments of at most
two levels of angle brackets, and ends with a semicolon. Behind it on the line there may be a
comment.
-/

namespace Assemblage
set_option autoImplicit false
open Assemblage.Text

/-- Which lines are directives. -/
structure DirectiveGrammar where
  keywords : List String
  /-- Whether a line of comment in a header is passed over. -/
  skipComments : Bool
  deriving DecidableEq, Repr

namespace DirectiveGrammar

def usual : DirectiveGrammar := ⟨["using"], true⟩

def check : Value → Checked DirectiveGrammar :=
  Schema.record fun es =>
    DirectiveGrammar.mk
      <$> Schema.defaulted es "keywords" usual.keywords (Schema.someOf Schema.string)
      <*> Schema.defaulted es "skip_comments" usual.skipComments Schema.flag

end DirectiveGrammar

namespace Directive
open Matcher

/-! ## The grammar -/

def isNameStart (c : Char) : Bool :=
  ('A' ≤ c && c ≤ 'Z') || ('a' ≤ c && c ≤ 'z') || c == '_'

def isNamePart (c : Char) : Bool := isNameStart c || ('0' ≤ c && c ≤ '9')

/-- A character of type arguments between their brackets. -/
def isArgument (c : Char) : Bool := c != ';' && c != '<' && c != '>'

def char (c : Char) : Matcher := one (· == c)

def blanks : Matcher := most isBlank

def name : Matcher := row [opt (char '@'), one isNameStart, most isNamePart]

/-- Type arguments inside the brackets of others. -/
def innerArguments : Matcher := row [char '<', most isArgument, char '>', most isArgument]

def arguments : Matcher := row [char '<', most isArgument, many innerArguments, char '>']

/-- A dotted name, perhaps from the global namespace, perhaps with type arguments. -/
def qualified : Matcher :=
  row [opt (word "global::".toList), name, many (row [blanks, char '.', blanks, name]),
    opt (seq blanks arguments)]

def shortName : Matcher := row [name, blanks, char '=', blanks]

def keyword (keywords : List String) : Matcher := oneOf (keywords.map fun k => word k.toList)

/-- A directive up to its semicolon. -/
def clause (keywords : List String) : Matcher :=
  row [keyword keywords, most1 isBlank, opt (seq (word "static".toList) (most1 isBlank)), opt shortName,
    qualified, blanks, char ';']

/-- What may stand behind a directive: spaces and tabs, then a comment. -/
def isTail (s : List Char) : Bool :=
  let rest := s.dropWhile isPadding
  rest.isEmpty || "//".toList.isPrefixOf rest

/-- The directive of a line, as it is written there. -/
def recognise (keywords : List String) (line : List Char) : Option (List Char) :=
  ((most isPadding line).flatMap fun s =>
    ((clause keywords s).filter isTail).map (front s)).head?

/-! ## Normal forms -/

/-- What is cut off the ends of a directive. -/
def isMargin (c : Char) : Bool := isPadding c || isBreak c || isMark c

/-- A directive without white space, line ends and byte-order marks around it. -/
def normalize (s : List Char) : List Char := trim isMargin s

end Directive

end Assemblage
