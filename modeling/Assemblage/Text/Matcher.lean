/-!
Matchers. A matcher gives every rest that a match at the front of a text can leave, the preferred
match first; a text that does not match leaves no rest. A match of a pattern is thus the head of a
list, and what a pattern accepts is membership in it.
-/

namespace Assemblage
set_option autoImplicit false

abbrev Matcher := List Char → List (List Char)

namespace Matcher

/-- One character of a class. -/
def one (p : Char → Bool) : Matcher
  | [] => []
  | c :: rest => if p c then [rest] else []

def word (w : List Char) : Matcher := fun s =>
  if w.isPrefixOf s then [s.drop w.length] else []

/-- A run of characters of a class, the shortest one preferred. -/
def fewest (p : Char → Bool) : Matcher
  | [] => [[]]
  | c :: rest => (c :: rest) :: (if p c then fewest p rest else [])

/-- A run of characters of a class, the longest one preferred. -/
def most (p : Char → Bool) : Matcher := fun s => (fewest p s).reverse

/-- The one behind the other. -/
def seq (m n : Matcher) : Matcher := fun s => (m s).flatMap n

/-- The one, or else the other. -/
def alt (m n : Matcher) : Matcher := fun s => m s ++ n s

/-- One of several, the first one preferred. -/
def oneOf (ms : List Matcher) : Matcher := fun s => ms.flatMap fun m => m s

/-- A match, or else nothing. -/
def opt (m : Matcher) : Matcher := fun s => m s ++ [s]

/-- A run of one character at least. -/
def most1 (p : Char → Bool) : Matcher := seq (one p) (most p)

/-- Matches one behind the other, as many as there are preferred. -/
def many (m : Matcher) (s : List Char) : List (List Char) :=
  ((m s).flatMap fun rest => if rest.length < s.length then many m rest else []) ++ [s]
termination_by s.length

/-- Several matchers in a row. -/
def row : List Matcher → Matcher
  | [] => fun s => [s]
  | m :: ms => seq m (row ms)

/-- What stands in front of a rest. -/
def front (s rest : List Char) : List Char := s.take (s.length - rest.length)

end Matcher

end Assemblage
