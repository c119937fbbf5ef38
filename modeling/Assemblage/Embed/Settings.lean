import Assemblage.Schema

/-!
Settings of an embedding: the names that a generated container declares, and how its constant is
decoded.
-/

namespace Assemblage
set_option autoImplicit false

structure EmbedSettings where
  constantName : String
  accessorName : String
  accessorType : String
  /-- The expression that is run at load time, with a field for the name of the constant. -/
  decodeExpression : String
  interfaceName : String
  emitInterface : Bool
  deriving DecidableEq, Repr

namespace EmbedSettings

def usual : EmbedSettings where
  constantName := "Base64WorldContents"
  accessorName := "World"
  accessorType := "JsonDocument"
  decodeExpression := "JsonDocument.Parse(Convert.FromBase64String(\x7bconstant\x7d))"
  interfaceName := "IWorldDataInterface"
  emitInterface := true

def check : Value → Checked EmbedSettings :=
  Schema.record fun es =>
    EmbedSettings.mk
      <$> Schema.defaulted es "constant_name" usual.constantName Schema.string
      <*> Schema.defaulted es "accessor_name" usual.accessorName Schema.string
      <*> Schema.defaulted es "accessor_type" usual.accessorType Schema.string
      <*> Schema.defaulted es "decode_expression" usual.decodeExpression Schema.string
      <*> Schema.defaulted es "interface_name" usual.interfaceName Schema.string
      <*> Schema.defaulted es "emit_interface" usual.emitInterface Schema.flag

end EmbedSettings

end Assemblage
