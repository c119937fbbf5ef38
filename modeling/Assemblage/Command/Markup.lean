import Assemblage.Text.Matcher

/-!
Console markup: style tags in brackets. A text is escaped so that nothing in it is read as a tag:
in front of whatever looks like one, backslashes are doubled and one more is put. A single
backslash at the end is doubled, so that it escapes nothing behind the text.
-/

namespace Assemblage
set_option autoImplicit false

/-- What is shown on the console. -/
inductive Shown where
  | markup (text : String)
  | panel (markup : String)
  | table (title : String) (columns : List String) (rows : List (List String))
  /-- Source text, which holds no markup. -/
  | code (source : String)
  deriving DecidableEq, Repr

namespace Markup
open Matcher

/-- A character that opens a tag behind its bracket. -/
def isTagStart (c : Char) : Bool := ('a' ≤ c && c ≤ 'z') || c == '#' || c == '/' || c == '@'

/-- A tag: the shortest one, without an opening bracket inside. -/
def tag : Matcher := row [one (· == '['), one isTagStart, fewest (· != '['), one (· == ']')]

/-- Escapes a text; `slashes` backslashes stand in front of it. -/
def escapeFrom (slashes : Nat) : List Char → List Char
  | [] => List.replicate (if slashes = 1 then 2 else slashes) '\\'
  | c :: rest =>
    if c == '\\' then escapeFrom (slashes + 1) rest
    else
      let count := if (tag (c :: rest)).isEmpty then slashes else 2 * slashes + 1
      List.replicate count '\\' ++ c :: escapeFrom 0 rest

def escape (text : String) : String := String.ofList (escapeFrom 0 text.toList)

/-- A text between the tags of a style. -/
def styled (style text : String) : String := "[" ++ style ++ "]" ++ text ++ "[/" ++ style ++ "]"

/-! ## Plain text -/

/-- Markup without its tags. Of the backslashes in front of a tag half are kept, and an odd one
makes the tag plain text; `skip` characters belong to a tag that is left out. -/
def plainFrom (slashes skip : Nat) : List Char → List Char
  | [] => List.replicate slashes '\\'
  | c :: rest =>
    match skip with
    | skip + 1 => plainFrom 0 skip rest
    | 0 =>
      if c == '\\' then plainFrom (slashes + 1) 0 rest
      else
        match (tag (c :: rest)).head? with
        | none => List.replicate slashes '\\' ++ c :: plainFrom 0 0 rest
        | some behind =>
          if slashes % 2 = 1 then
            List.replicate (slashes / 2) '\\' ++ c :: plainFrom 0 0 rest
          else
            List.replicate (slashes / 2) '\\' ++ plainFrom 0 (rest.length - behind.length) rest

def plain (markup : String) : String := String.ofList (plainFrom 0 0 markup.toList)

end Markup

namespace Shown

/-- What is shown, as plain lines. -/
def plainText : Shown → String
  | markup text => Markup.plain text
  | panel text => Markup.plain text
  | table title columns rows =>
    "\n".intercalate
      (title :: (columns :: rows).map fun row => " | ".intercalate (row.map Markup.plain))
  | code source => source

end Shown

end Assemblage
