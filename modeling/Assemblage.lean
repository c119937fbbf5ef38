import Assemblage.Base64
import Assemblage.Binary64.Basic
import Assemblage.Binary64.Layout
import Assemblage.Binary64.Read
import Assemblage.Binary64.Shortest
import Assemblage.Build.Builder
import Assemblage.Build.Scenes
import Assemblage.Calendar
import Assemblage.Command.Arguments
import Assemblage.Command.Build
import Assemblage.Command.Execute
import Assemblage.Command.Markup
import Assemblage.Command.Session
import Assemblage.Compiler.Diagnostic
import Assemblage.Compiler.Report
import Assemblage.Compiler.Run
import Assemblage.Config.Basic
import Assemblage.Config.Load
import Assemblage.Config.Overrides
import Assemblage.Config.Template
import Assemblage.Embed.Container
import Assemblage.Embed.Settings
import Assemblage.Embed.Template
import Assemblage.Files.Discovery
import Assemblage.Files.Path
import Assemblage.Files.Pattern
import Assemblage.Files.Tree
import Assemblage.Fragment
import Assemblage.Header.Directive
import Assemblage.Header.Extraction
import Assemblage.Header.Span
import Assemblage.Imports
import Assemblage.Json.Reader
import Assemblage.Json.Writer
import Assemblage.Main
import Assemblage.Namespaces
import Assemblage.Schema
import Assemblage.Settings
import Assemblage.SourceUnit
import Assemblage.Stack
import Assemblage.Text.Alnum
import Assemblage.Text.Blank
import Assemblage.Text.Digit
import Assemblage.Text.Lines
import Assemblage.Text.Lower
import Assemblage.Text.Matcher
import Assemblage.Text.Printable
import Assemblage.Text.Quoted
import Assemblage.Text.Ranges
import Assemblage.Text.Raw
import Assemblage.Text.Utf8
import Assemblage.Value
import Assemblage.World.Basic
import Assemblage.World.Dump
import Assemblage.World.Payload
import Assemblage.World.Safety
import Assemblage.World.Scene
import Assemblage.Yaml.Content
import Assemblage.Yaml.Lexer
import Assemblage.Yaml.Node
import Assemblage.Yaml.Scalar
import Assemblage.Yaml.Token
import Assemblage.Yaml.Writer
import Assemblage.Proofs.Build.Imports
import Assemblage.Proofs.Build.Merge
import Assemblage.Proofs.Header.Extraction
import Assemblage.Proofs.Header.Directive
import Assemblage.Proofs.Header.Hoisted
import Assemblage.Proofs.Build.Hoisting
import Assemblage.Proofs.Text.Decimal
import Assemblage.Proofs.Text.Utf8
import Assemblage.Proofs.Binary64.Rounding
import Assemblage.Proofs.Json.Number
import Assemblage.Proofs.Json.Arrangement
import Assemblage.Proofs.Json.Text
import Assemblage.Proofs.Json.RoundTrip
import Assemblage.Proofs.World.Arrangement
import Assemblage.Proofs.World.Payload
import Assemblage.Proofs.Schema
import Assemblage.Proofs.SourceUnit
import Assemblage.Proofs.Build.Scenes
import Assemblage.Proofs.World.Safety
import Assemblage.Proofs.Yaml.Content
import Assemblage.Proofs.Yaml.Lexical
import Assemblage.Proofs.Yaml.Nesting
import Assemblage.Proofs.World.Scene
import Assemblage.Proofs.Base64
import Assemblage.Proofs.Build.Literals
import Assemblage.Proofs.Text.Brackets
import Assemblage.Proofs.Text.Braces
import Assemblage.Proofs.Files.Tree
import Assemblage.Proofs.Files.Path
import Assemblage.Proofs.Compiler.Run
import Assemblage.Proofs.Config.Overrides
import Assemblage.Proofs.Yaml.Faults
import Assemblage.Proofs.Build.Faults
import Assemblage.Proofs.Files.Growth
import Assemblage.Proofs.Config.Outputs
import Assemblage.Proofs.Command.Kind
import Assemblage.Proofs.Command.Isolation
import Assemblage.Proofs.Header.Arguments
import Assemblage.Proofs.Header.Recognition
import Assemblage.Proofs.Header.LineEnds
import Assemblage.Proofs.Config.Faults
import Assemblage.Proofs.Build.Bodies
import Assemblage.Proofs.Json.Reordering
import Assemblage.Proofs.World.Offender
import Assemblage.Proofs.Json.Keys
import Assemblage.Proofs.Text.Raw
import Assemblage.Proofs.World.Reordering
import Assemblage.Proofs.Build.Canonical
import Assemblage.Proofs.Yaml.Writer
import Assemblage.Proofs.World.Dump
import Assemblage.Proofs.World.ShortForm
import Assemblage.Proofs.Text.Contents
import Assemblage.Proofs.Text.Classes
import Assemblage.Proofs.Text.Preferred
import Assemblage.Proofs.Compiler.Grammar
import Assemblage.Proofs.Compiler.Report
import Assemblage.Proofs.Compiler.Outputs
import Assemblage.Proofs.Compiler.Locations
import Assemblage.Proofs.Build.Members
import Assemblage.Proofs.Text.Identifier
import Assemblage.Proofs.Embed.Container
import Assemblage.Proofs.Build.Repeats
import Assemblage.Proofs.Files.Pattern
import Assemblage.Proofs.Files.Sound
import Assemblage.Proofs.Files.Discovery
import Assemblage.Proofs.Text.WellFormed
import Assemblage.Proofs.Files.Reading
import Assemblage.Proofs.Header.Stray
import Assemblage.Proofs.Build.Register
import Assemblage.Proofs.Build.Delivery
import Assemblage.Proofs.Build.Attempts
import Assemblage.Proofs.Config.Layers
import Assemblage.Proofs.Config.Records
import Assemblage.Proofs.World.Count
import Assemblage.Proofs.Text.LineLoop
import Assemblage.Proofs.Embed.Payload
import Assemblage.Proofs.Command.Tags
import Assemblage.Proofs.Command.Messages
import Assemblage.Proofs.Command.Shown
