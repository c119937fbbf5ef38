import Assemblage.Schema

/-!
Worlds: a forest of named entities, each with components and children. A world is checked from a
value and turned back into one with all its fields.
-/

namespace Assemblage
set_option autoImplicit false

/-- An entity of a world. The keys of its components are pairwise distinct. -/
structure Entity where
  name : Option RawText
  enabled : Bool
  components : List (RawText × Value)
  children : List Entity

structure World where
  capacity : Option Int
  entities : List Entity

namespace Entity

/-- The deepest nesting of entities. -/
def deepest : Nat := 254

/-- Checks an entity that may hold this many levels, itself included. -/
def check : Nat → Value → Checked Entity
  | 0, _ => .fail .nesting
  | levels + 1, v =>
    Schema.record (fun es =>
      Entity.mk <$> Schema.defaulted es "name" none (Schema.optional Schema.text)
        <*> Schema.defaulted es "enabled" true Schema.flag
        <*> Schema.defaulted es "components" [] Schema.dictionary
        <*> Schema.defaulted es "children" [] (Schema.listOf (check levels))) v

mutual

/-- The number of entities in a tree. -/
def count : Entity → Nat
  | ⟨_, _, _, children⟩ => 1 + countAll children

/-- The number of entities in a forest. -/
def countAll : List Entity → Nat
  | [] => 0
  | e :: rest => count e + countAll rest

end

theorem countAll_append (es fs : List Entity) : countAll (es ++ fs) = countAll es + countAll fs := by
  induction es with
  | nil => simp [countAll]
  | cons e es ih => simp [countAll, ih, Nat.add_assoc]

theorem countAll_reverse (es : List Entity) : countAll es.reverse = countAll es := by
  induction es with
  | nil => rfl
  | cons e es ih => simp [countAll, countAll_append, ih, Nat.add_comm]

theorem count_eq (e : Entity) : count e = 1 + countAll e.children := by
  cases e
  rw [count]

/-- Counts the entities of a pile, taking one off at a time and putting its children on top. -/
def countPile (pile : List Entity) (seen : Nat) : Nat :=
  match pile with
  | [] => seen
  | e :: rest => countPile (e.children.reverse ++ rest) (seen + 1)
termination_by countAll pile
decreasing_by
  simp only [List.unattach_reverse, List.unattach_attach, countAll_append, countAll_reverse,
    countAll, count_eq]
  omega

mutual

/-- All fields of an entity. -/
def toValue : Entity → Value
  | ⟨name, enabled, components, children⟩ =>
    .record
      [("name", (name.map Value.text).getD .null), ("enabled", .flag enabled),
        ("components", .mapping (components.map fun c => (.text c.1, c.2))),
        ("children", .list (toValues children))]

def toValues : List Entity → List Value
  | [] => []
  | e :: rest => toValue e :: toValues rest

end

end Entity

namespace World

def empty : World := ⟨none, []⟩

def check (v : Value) : Checked World :=
  Schema.record (fun es =>
    World.mk
      <$> Schema.defaulted es "max_capacity" none
        (Schema.optional fun v => (Schema.integer v).andThen (Schema.atLeast 0))
      <*> Schema.defaulted es "entities" [] (Schema.listOf (Entity.check Entity.deepest))) v

/-- The number of entities, children included. -/
def count (w : World) : Nat := Entity.countPile w.entities.reverse 0

/-- All fields of a world. -/
def toValue (w : World) : Value :=
  .record
    [("max_capacity", (w.capacity.map Value.integer).getD .null),
      ("entities", .list (Entity.toValues w.entities))]

/-- Equality of worlds, the order of keys aside. -/
def same (v w : World) : Bool := Value.same v.toValue w.toValue

end World

end Assemblage
