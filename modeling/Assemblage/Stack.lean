/-!
How deep a run can go. The nodes of a document are read, merge keys are followed and values are
searched one inside another, and the stack of a run has room for so many of each and no more. The
room is not the same for every run: it shrinks with the callers that are on the stack already, and
with what is called innermost. So it is given with the run, and what holds of every run is stated
over every `Stack`.
-/

namespace Assemblage
set_option autoImplicit false

/-- The room on the stack of a run. -/
class Stack where
  /-- How many collections can be open around one another while nodes are read. -/
  nodes : Nat
  /-- Through how many collections a merge key, or a value key, can be followed. -/
  merges : Nat
  /-- How many levels of a value can be searched. -/
  values : Nat

/-- The room on a stack of a thousand calls, of which a collection takes two while it is read. -/
instance Stack.usual : Stack := ⟨485, 960, 970⟩

end Assemblage
