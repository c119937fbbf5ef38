import Assemblage.Config.Basic
import Assemblage.Yaml.Writer

/-!
The configuration file to begin with. It spells out most of the usual configuration, so that
loading it gives that configuration.
-/

namespace Assemblage.BuildConfig
set_option autoImplicit false

def describeKind (kind : AssetKind) : Value :=
  let k := KindConfig.usual kind
  .record
    [("enabled", .flag k.enabled), ("directory", .ofString k.directory.toString),
      ("output", .ofString k.output.toString), ("patterns", .ofStrings k.patterns)]

def describeCompiler (c : CompilerConfig) : Value :=
  .record
    [("command", .ofStrings c.command), ("extra_args", .ofStrings c.extraArgs),
      ("timeout", .integer c.timeout)]

def describeEmbed (e : EmbedSettings) : Value :=
  .record
    [("constant_name", .ofString e.constantName), ("accessor_name", .ofString e.accessorName),
      ("accessor_type", .ofString e.accessorType), ("interface_name", .ofString e.interfaceName)]

/-- The fields of the file, in their order. -/
def describeUsual : Value :=
  .record
    [("scripts", describeKind .scripts), ("systems", describeKind .systems),
      ("scenes", describeKind .scenes),
      ("references", .ofStrings (usual.references.map Path.toString)),
      ("recursive", .flag usual.recursive), ("strict", .flag usual.strict),
      ("compiler", describeCompiler usual.compiler), ("embed", describeEmbed usual.embed)]

def usualText : List Char := Yaml.write describeUsual

/-- Writes the file to begin with, and the folders around it. -/
def writeUsual (t : FileTree) (output : Path) : Except FileFault FileTree := do
  (← t.makeFolder output.parent).write output (Text.encodeUtf8 usualText)

end Assemblage.BuildConfig
