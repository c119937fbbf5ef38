import Assemblage.Json.Writer
import Assemblage.World.Basic
import Assemblage.World.Safety

/-!
Worlds as payloads: compact JSON with sorted keys, in UTF-8. Equal worlds have equal payloads
whatever the order of their components.
-/

namespace Assemblage
set_option autoImplicit false
open Assemblage.Text (Bytes)

/-- Why a world has no payload. -/
inductive EncodeFault where
  | unfit (o : Offender)
  /-- A text holds half of a surrogate pair, or collections are nested too deep. -/
  | unencodable

/-- Why bytes are no payload. -/
inductive DecodeFault where
  | corrupt
  | invalid (problems : List Problem)

namespace Payload

/-- The name of the whole in messages. -/
def root : String := "world"

end Payload

def EncodeFault.message? : EncodeFault → Option String
  | unfit o => o.message? Payload.root
  | unencodable => some "Cannot encode world"

def DecodeFault.message : DecodeFault → String
  | corrupt => "Corrupt world payload"
  | invalid _ => "World payload validation failed"

namespace Payload

/-- The most collections that may stand around one another in a payload. -/
def deepest : Nat := 254

/-- Reading allows more nesting than writing. -/
def limits : Json.Limits := ⟨1024, false, false⟩

def encodeChars (w : World) : Except EncodeFault (List Char) :=
  let v := w.toValue
  match v.offender? with
  | some o => .error (.unfit o)
  | none =>
    if deepest < v.depth then .error .unencodable
    else
      match Json.write? v with
      | some s => .ok s
      | none => .error .unencodable

def encode (w : World) : Except EncodeFault Bytes := (encodeChars w).map Text.encodeUtf8

def decode (b : Bytes) : Except DecodeFault World :=
  match Text.decodeUtf8 b with
  | .error _ => .error .corrupt
  | .ok s =>
    match Json.read? limits s with
    | none => .error .corrupt
    | some v => (World.check v).toExcept.mapError .invalid

end Payload

end Assemblage
