import Assemblage.Config.Basic
import Assemblage.Yaml.Content

/-!
Loading configurations from YAML files. A file without content, without a mapping, with a field of
the wrong form, or with an enabled kind that has no patterns is refused. A file is read while it is
parsed (`Streaming`), so that a fault in its front can be met before bytes behind it that are no
text.
-/

namespace Assemblage
set_option autoImplicit false

/-- Why a file holds no configuration. -/
inductive ConfigFault where
  | missing (path : Path)
  | unreadable (fault : FileFault)
  /-- The bytes are not UTF-8. -/
  | encoding
  | yaml (fault : Yaml.Fault)
  | empty
  | notMapping
  /-- A field whose name is no text. -/
  | unnamedField
  | invalid (problems : List Problem)
  | noPatterns (kind : AssetKind)
  deriving DecidableEq

/-- The message of a fault that is reported as one of the configuration. -/
def ConfigFault.message? : ConfigFault → Option String
  | missing path => some s!"Configuration file not found: {path.toString}"
  | yaml .malformed => some "Invalid YAML in configuration file"
  | empty => some "Configuration file is empty"
  | notMapping => some "Configuration file must contain a mapping at the top level"
  | invalid _ => some "Configuration validation failed"
  | noPatterns kind => some s!"'{kind.name}.patterns' must not be empty"
  | unreadable _ | encoding | yaml _ | unnamedField => none

/-- How far a file is read when it comes to a fault. -/
class Streaming [Stack] where
  /-- The fault that is met in the front of a file, before the bytes behind it are looked at. -/
  early? : Text.Bytes → Option Yaml.Fault
  /-- It is a fault of some front, whatever text is behind it. -/
  early_front {bytes : Text.Bytes} {f : Yaml.Fault} (h : early? bytes = some f) :
    ∃ front rest, bytes = Text.encodeUtf8 front ++ rest ∧
      ∀ behind, behind.all Yaml.isAllowed →
        Yaml.load (Text.unifyBreaks (front ++ behind)) = .error f

/-- A file that is read in one piece has no front. -/
instance Streaming.whole [Stack] : Streaming where
  early? _ := none
  early_front := nofun

namespace BuildConfig

def isText : Value → Bool
  | .text _ => true
  | _ => false

/-- The first enabled kind without patterns. -/
def patternless? (c : BuildConfig) : Option AssetKind :=
  AssetKind.all.find? fun kind => (c.kind kind).enabled && (c.kind kind).patterns.isEmpty

def ofFields (es : List (Value × Value)) : Except ConfigFault BuildConfig := do
  if !es.all fun e => isText e.1 then throw .unnamedField
  let c ← (check (.mapping es)).toExcept.mapError .invalid
  match c.patternless? with
  | some kind => throw (.noPatterns kind)
  | none => return c

def ofValue : Value → Except ConfigFault BuildConfig
  | .null => .error .empty
  | .mapping es => ofFields es
  | _ => .error .notMapping

variable [Stack] [Streaming]

/-- Reads a configuration from the bytes of a file, every line end being a line feed. -/
def ofBytes (bytes : Text.Bytes) : Except ConfigFault BuildConfig :=
  match Streaming.early? bytes with
  | some fault => .error (.yaml fault)
  | none => do
    let s ← (Text.decodeUtf8 bytes).mapError fun _ => .encoding
    ofValue (← (Yaml.load (Text.unifyBreaks s)).mapError .yaml)

def load (t : FileTree) (path : Path) : Except ConfigFault BuildConfig :=
  if t.hasAny path then
    match t.read path with
    | .ok bytes => ofBytes bytes
    | .error fault => .error (.unreadable fault)
  else .error (.missing path)

end BuildConfig

end Assemblage
