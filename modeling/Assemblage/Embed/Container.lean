import Assemblage.Base64
import Assemblage.Embed.Settings
import Assemblage.Embed.Template
import Assemblage.Text.Alnum
import Assemblage.Text.Lower

/-!
Embedded payloads: the base64 text of a payload, and the generated container that holds it as a
constant. A container is named after the owner of the payload up to the owner's first point.
-/

namespace Assemblage
set_option autoImplicit false
open Assemblage.Text

/-- A payload as base64 text, with the name of its owner. -/
structure Blob where
  owner : String
  base64 : String
  deriving DecidableEq, Repr

namespace Blob

def ofPayload (owner : String) (payload : Bytes) : Blob :=
  ⟨owner, String.ofList (Base64.encode payload)⟩

def decode (b : Blob) : Except Base64.Fault Bytes := Base64.decode b.base64.toList

/-! ## Names -/

/-- The owner up to its first point; a fixed word if nothing stands there. -/
def stem (owner : List Char) : List Char :=
  let s := owner.takeWhile (· != '.')
  if s.isEmpty then "scene".toList else s

/-- A character that a name may hold; any other one becomes an underscore. -/
def nameChar (c : Char) : Char := if isAlnum c || c == '_' then c else '_'

def containerChars (owner : List Char) : List Char := '_' :: (stem owner).map nameChar

/-- The name of the container. -/
def container (b : Blob) : String := String.ofList (containerChars b.owner.toList)

end Blob

namespace EmbedSettings

/-- The name of the field behind the accessor: an underscore, and the accessor's name with its
first character in lower case. -/
def lazyField (s : EmbedSettings) : String :=
  match s.accessorName.toList with
  | [] => "_"
  | c :: rest => String.ofList ('_' :: lower c ++ rest)

/-- The expression that decodes the constant. -/
def decodeCall (s : EmbedSettings) : Except Template.Fault String :=
  (Template.fill "constant".toList s.constantName.toList s.decodeExpression.toList).map
    String.ofList

/-- The container of a blob. -/
def writeContainer (s : EmbedSettings) (b : Blob) : Except Template.Fault String := do
  let decode ← s.decodeCall
  let field := s.lazyField
  return String.join
    ["public static class ", b.container, "\n\x7b\n",
      "    public const string ", s.constantName, " = \"", b.base64, "\";\n",
      "    private static readonly Lazy<", s.accessorType, "> ", field, " =\n",
      "        new Lazy<", s.accessorType, ">(() => ", decode, ");\n",
      "    public static ", s.accessorType, " ", s.accessorName, " => ", field, ".Value;\n",
      "\x7d\n"]

/-- The interface that describes the members of every container. -/
def writeInterface (s : EmbedSettings) : String :=
  String.join
    ["public interface ", s.interfaceName, "\n\x7b\n",
      "    public static string ", s.constantName, ";\n",
      "    public static ", s.accessorType, " ", s.accessorName, ";\n",
      "\x7d\n"]

end EmbedSettings

end Assemblage
