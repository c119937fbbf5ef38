import Assemblage.Schema

/-!
Fragments: the pieces of source text that a build merges. A fragment may name the namespace that it
belongs to and the place that it came from.
-/

namespace Assemblage
set_option autoImplicit false

structure Fragment where
  text : String
  /-- The namespace of the body; none is the root. -/
  hint : Option String
  source : Option String
  deriving DecidableEq, Repr

namespace Fragment

/-- A text without a source. -/
def ofText (text : String) (hint : Option String) : Fragment := ⟨text, hint, none⟩

def check : Value → Checked Fragment :=
  Schema.record fun es =>
    Fragment.mk
      <$> Schema.required es "raw_text" Schema.string
      <*> Schema.defaulted es "namespace" none (Schema.optional Schema.string)
      <*> Schema.defaulted es "source_name" none (Schema.optional Schema.string)

end Fragment

end Assemblage
