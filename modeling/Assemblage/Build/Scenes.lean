import Assemblage.Build.Builder
import Assemblage.Embed.Container
import Assemblage.World.Payload
import Assemblage.World.Scene

/-!
Builders of scenes. A scene is read as a world, encoded as a payload, and embedded: its container
is filed as a body of the root namespace. The interface of the containers is the first declaration
of the epilogue.
-/

namespace Assemblage
set_option autoImplicit false
open Assemblage.Text (Bytes)

structure SceneBuilder where
  builder : Builder
  embed : EmbedSettings
  /-- The blobs of all payloads, in the order of submission. -/
  blobs : List Blob
  deriving DecidableEq

/-- Why a scene or a payload is not embedded. -/
inductive EmbedFault where
  | scene (fault : SceneFault)
  | payload (fault : EncodeFault)
  | template (fault : Template.Fault)

/-- The message of a fault of the scene itself. -/
def EmbedFault.message? : EmbedFault → Option String
  | scene fault => fault.message?
  | payload fault => fault.message?
  | template _ => none

/-- A step of a scene builder: the builder after it, what is reported, and the outcome. -/
structure SceneStep (α : Type) where
  builder : SceneBuilder
  notices : List Notice
  outcome : Except EmbedFault α

namespace SceneBuilder

def ofSettings (s : UnitSettings) (embed : EmbedSettings) : SceneBuilder :=
  let b := Builder.ofSettings s
  ⟨if embed.emitInterface then b.addEpilogue embed.writeInterface else b, embed, []⟩

def hasContainer (s : SceneBuilder) (container : String) : Bool :=
  s.blobs.any fun b => b.container == container

/-- What is reported about a payload that is to be embedded. -/
def notices (s : SceneBuilder) (blob : Blob) (payload : Bytes) : List Notice :=
  (if payload.isEmpty then [.emptyPayload blob.owner] else []) ++
    if s.hasContainer blob.container then [.sameContainer blob.owner blob.container] else []

/-- Embeds a payload. The blob is kept even if its container cannot be written. -/
def addPayload (s : SceneBuilder) (owner : String) (payload : Bytes) : SceneStep Blob :=
  let blob := Blob.ofPayload owner payload
  let kept := { s with blobs := s.blobs ++ [blob] }
  let notices := s.notices blob payload
  match s.embed.writeContainer blob with
  | .error fault => ⟨kept, notices, .error (.template fault)⟩
  | .ok text => ⟨{ kept with builder := s.builder.file none text }, notices, .ok blob⟩

/-- Embeds a scene that has been read. -/
def addRead (s : SceneBuilder) (name : String) (world : Except SceneFault World) :
    SceneStep Blob :=
  match world with
  | .error fault => ⟨s, [], .error (.scene fault)⟩
  | .ok world =>
    match Payload.encode world with
    | .error fault => ⟨s, [], .error (.payload fault)⟩
    | .ok payload => s.addPayload name payload

/-- Embeds a scene by its text. -/
def addScene [Stack] (s : SceneBuilder) (name text : String) : SceneStep Blob :=
  s.addRead name (Scene.read text.toList)

/-- Embeds a scene by the bytes of its text. -/
def addSceneBytes [Stack] (s : SceneBuilder) (name : String) (bytes : Bytes) : SceneStep Blob :=
  s.addRead name (Scene.readBytes bytes)

/-- Embeds scenes in order, up to the first one that fails. -/
def addScenes (s : SceneBuilder) : List (String × Except SceneFault World) → SceneStep Unit
  | [] => ⟨s, [], .ok ()⟩
  | (name, world) :: rest =>
    let step := s.addRead name world
    match step.outcome with
    | .error fault => ⟨step.builder, step.notices, .error fault⟩
    | .ok _ =>
      let more := step.builder.addScenes rest
      { more with notices := step.notices ++ more.notices }

end SceneBuilder

end Assemblage
