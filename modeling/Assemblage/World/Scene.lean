import Assemblage.World.Dump
import Assemblage.World.Safety
import Assemblage.Yaml.Content
import Assemblage.Yaml.Writer

/-!
Worlds as scene texts. A scene is a YAML mapping with the fields of a world, or a list of entities;
an empty text is the empty world. Not every text that is no scene is refused with a message
(`SceneFault.message?`).
-/

namespace Assemblage
set_option autoImplicit false
open Assemblage.Text (Bytes)

/-- Why a text is no scene. -/
inductive SceneFault where
  | yaml (fault : Yaml.Fault)
  /-- The text holds neither a mapping nor a list. -/
  | wrongKind (name : String)
  | unfit (o : Offender)
  | invalid (problems : List Problem)
  /-- The bytes are not UTF-8. -/
  | encoding

namespace Scene

/-- The name of the whole in messages. -/
def root : String := "scene"

end Scene

/-- The message of a fault that is reported as one of the scene. There is none for a value that
cannot even be built, for bytes that are no text, and for an offender without one. -/
def SceneFault.message? : SceneFault → Option String
  | yaml .malformed => some "Invalid YAML in scene"
  | wrongKind name => some s!"Scene must be a mapping or a list of entities, got {name}"
  | unfit o => o.message? Scene.root
  | invalid _ => some "Scene validation failed"
  | yaml _ | encoding => none

namespace Scene

variable [Stack]

def checkFields (es : List (Value × Value)) : Except SceneFault World :=
  match (Value.mapping es).found? with
  | some o => .error (.unfit o)
  | none => (World.check (.mapping es)).toExcept.mapError .invalid

def ofValue (v : Value) : Except SceneFault World :=
  match v with
  | .null => .ok .empty
  | .list xs => checkFields [(.ofString "entities", .list xs)]
  | .mapping es => checkFields es
  | .cycle => .error (.unfit ⟨[], .endless⟩)
  | v => .error (.wrongKind v.kindName)

def read (s : List Char) : Except SceneFault World := do
  ofValue (← (Yaml.load s).mapError .yaml)

/-- Reads the bytes of a file; a byte-order mark in front is dropped. -/
def readBytes (b : Bytes) : Except SceneFault World :=
  match Text.decodeUtf8 (Text.dropMark b) with
  | .ok s => read s
  | .error _ => .error .encoding

/-- The text of a world that has a dump. -/
def write (w : World) : Except DumpFault (List Char) := w.dump.map Yaml.write

end Scene

end Assemblage
