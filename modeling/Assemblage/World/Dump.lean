import Assemblage.World.Basic

/-!
The dump of a world: its fields without those that hold their defaults, as plain data. Values that
plain data knows are kept as they are, and others become texts and lists. Keys are another matter.
The keys of components lose the halves of surrogate pairs, and a key further inside that holds one
has no dump at all; neither has a value that is nested too deep.
-/

namespace Assemblage
set_option autoImplicit false

/-- The text with three replacement characters for each half of a surrogate pair: a half makes
three bytes, none of which is a character. -/
def RawText.lossy (t : RawText) : RawText :=
  t.flatMap fun r =>
    match r with
    | .char c => [.char c]
    | .half _ => List.replicate 3 (.char '\ufffd')

/-- Why a world has no dump. -/
inductive DumpFault where
  /-- A key inside a component holds half of a surrogate pair. -/
  | halfKey
  /-- Bytes that are no UTF-8. -/
  | encoding
  /-- Entities or values are nested too deep. -/
  | nesting
  deriving DecidableEq, Repr

/-! ## Plain values -/

namespace Value

def bytesText (b : Text.Bytes) : Except DumpFault RawText :=
  ((Text.decodeUtf8 b).map RawText.ofChars).mapError fun _ => .encoding

mutual

/-- The text of a key. -/
def keyText : Value → Except DumpFault RawText
  | text t => if t.toChars?.isSome then .ok t else .error .halfKey
  | flag b => .ok (RawText.ofString (if b then "true" else "false"))
  | date d => .ok (RawText.ofChars d.iso)
  | moment m => .ok (RawText.ofChars m.iso)
  | bytes b => bytesText b
  | tuple xs => return (RawText.ofString ",").intercalate (← keyTexts xs)
  | k => .ok (RawText.ofChars k.quoted)

def keyTexts : List Value → Except DumpFault (List RawText)
  | [] => .ok []
  | x :: xs => return (← keyText x) :: (← keyTexts xs)

end

mutual

/-- The value in nulls, truth values, numbers, texts, lists and mappings with texts as keys; at most
so many values stand around one another. -/
def plain : Nat → Value → Except DumpFault Value
  | 0, _ => .error .nesting
  | _ + 1, bytes b => text <$> bytesText b
  | _ + 1, date d => .ok (text (RawText.ofChars d.iso))
  | _ + 1, moment m => .ok (text (RawText.ofChars m.iso))
  | n + 1, list xs => list <$> plainItems n xs
  | n + 1, tuple xs => list <$> plainItems n xs
  | n + 1, set xs => list <$> plainItems n xs
  | n + 1, mapping es => ofEntries <$> plainEntries n es
  | _ + 1, v => .ok v

def plainItems (n : Nat) : List Value → Except DumpFault (List Value)
  | [] => .ok []
  | x :: xs => return (← plain n x) :: (← plainItems n xs)

def plainEntries (n : Nat) : List (Value × Value) → Except DumpFault (List (Value × Value))
  | [] => .ok []
  | (k, v) :: es => return (text (← keyText k), ← plain n v) :: (← plainEntries n es)

end

end Value

/-! ## Entities and worlds -/

namespace Entity

/-- The components under their names, as far as these can be written. -/
def plainComponents (levels : Nat) :
    List (RawText × Value) → Except DumpFault (List (Value × Value))
  | [] => .ok []
  | (name, v) :: rest =>
    return (.text name.lossy, ← v.plain levels) :: (← plainComponents levels rest)

mutual

/-- The fields of an entity that do not hold their defaults; at most so many levels, the entity
included. -/
def dump : Nat → Entity → Except DumpFault Value
  | 0, _ => .error .nesting
  | levels + 1, ⟨name, enabled, components, children⟩ => do
    let components ← plainComponents levels components
    let children ← dumpAll levels children
    return .record
      ((name.map fun t => ("name", Value.text t)).toList ++
        (if enabled then [] else [("enabled", Value.flag false)]) ++
        (if components.isEmpty then [] else [("components", .ofEntries components)]) ++
        (if children.isEmpty then [] else [("children", .list children)]))

def dumpAll (levels : Nat) : List Entity → Except DumpFault (List Value)
  | [] => .ok []
  | e :: rest => return (← dump levels e) :: (← dumpAll levels rest)

end

end Entity

/-- The fields of a world that do not hold their defaults. -/
def World.dump (w : World) : Except DumpFault Value := do
  let entities ← Entity.dumpAll Entity.deepest w.entities
  return .record
    ((w.capacity.map fun n => ("max_capacity", Value.integer n)).toList ++
      (if entities.isEmpty then [] else [("entities", .list entities)]))

end Assemblage
