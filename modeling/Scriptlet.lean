import Scriptlet.Code.Draft
import Scriptlet.Code.Grammar
import Scriptlet.Code.Layout
import Scriptlet.Code.Literal
import Scriptlet.Code.PackagePath
import Scriptlet.Code.Page
import Scriptlet.Code.Part
import Scriptlet.Code.Reader
import Scriptlet.Code.Remark
import Scriptlet.Code.Row
import Scriptlet.Code.Scan
import Scriptlet.Code.Symbol
import Scriptlet.Code.Tree
import Scriptlet.Command.Arguments
import Scriptlet.Command.Invocation
import Scriptlet.Command.Log
import Scriptlet.Diagnostic
import Scriptlet.Dump
import Scriptlet.Files.Path
import Scriptlet.Files.Source
import Scriptlet.Files.Tree
import Scriptlet.Main
import Scriptlet.Manifest.Basic
import Scriptlet.Manifest.Document
import Scriptlet.Proofs.Code.Bodies
import Scriptlet.Proofs.Code.Chunks
import Scriptlet.Proofs.Code.Declarations
import Scriptlet.Proofs.Code.Erasure
import Scriptlet.Proofs.Code.Files
import Scriptlet.Proofs.Code.Following
import Scriptlet.Proofs.Code.Mirroring
import Scriptlet.Proofs.Code.Opening
import Scriptlet.Proofs.Code.Quoting
import Scriptlet.Proofs.Code.Scanning
import Scriptlet.Proofs.Code.Statements
import Scriptlet.Proofs.Code.Taking
import Scriptlet.Proofs.Code.TypeText
import Scriptlet.Proofs.Code.Types
import Scriptlet.Proofs.Code.Uniform
import Scriptlet.Proofs.Command.Agreement
import Scriptlet.Proofs.Command.Entry
import Scriptlet.Proofs.Command.Init
import Scriptlet.Proofs.Command.Logging
import Scriptlet.Proofs.Command.Outcome
import Scriptlet.Proofs.Command.Stages
import Scriptlet.Proofs.Command.Status
import Scriptlet.Proofs.Files.Paths
import Scriptlet.Proofs.Files.Places
import Scriptlet.Proofs.Manifest.RoundTrip
import Scriptlet.Proofs.Run.Arithmetic
import Scriptlet.Proofs.Run.BigStep
import Scriptlet.Proofs.Run.Bindings
import Scriptlet.Proofs.Run.Cause
import Scriptlet.Proofs.Run.Cutoff
import Scriptlet.Proofs.Run.Dependence
import Scriptlet.Proofs.Run.Frame
import Scriptlet.Proofs.Run.Interpretation
import Scriptlet.Proofs.Run.Output
import Scriptlet.Proofs.Run.Positions
import Scriptlet.Proofs.Run.Relocation
import Scriptlet.Proofs.Run.Replay
import Scriptlet.Proofs.Run.Sequence
import Scriptlet.Proofs.Run.Step
import Scriptlet.Proofs.SumType.Generated
import Scriptlet.Proofs.SumType.Kinds
import Scriptlet.Proofs.SumType.Naming
import Scriptlet.Proofs.SumType.Templates
import Scriptlet.Proofs.SumType.Trees
import Scriptlet.Proofs.Syntax.Canonical
import Scriptlet.Proofs.Syntax.Completeness
import Scriptlet.Proofs.Syntax.Derivation
import Scriptlet.Proofs.Syntax.Ending
import Scriptlet.Proofs.Syntax.Gaps
import Scriptlet.Proofs.Syntax.Language
import Scriptlet.Proofs.Syntax.Limits
import Scriptlet.Proofs.Syntax.Nodes
import Scriptlet.Proofs.Syntax.Numbers
import Scriptlet.Proofs.Syntax.Parsed
import Scriptlet.Proofs.Syntax.Prediction
import Scriptlet.Proofs.Syntax.Printing
import Scriptlet.Proofs.Syntax.Progress
import Scriptlet.Proofs.Syntax.Reading
import Scriptlet.Proofs.Syntax.Rejection
import Scriptlet.Proofs.Syntax.Relocation
import Scriptlet.Proofs.Syntax.RoundTrip
import Scriptlet.Proofs.Syntax.Rule
import Scriptlet.Proofs.Syntax.Soundness
import Scriptlet.Proofs.Syntax.Spans
import Scriptlet.Proofs.Syntax.Tree
import Scriptlet.Proofs.Text.Decimal
import Scriptlet.Proofs.Text.Decoding
import Scriptlet.Proofs.Text.Encoding
import Scriptlet.Proofs.Token.Fragment
import Scriptlet.Proofs.Token.Joining
import Scriptlet.Proofs.Token.Location
import Scriptlet.Proofs.Token.Regions
import Scriptlet.Proofs.Token.Session
import Scriptlet.Proofs.Token.Spelling
import Scriptlet.Proofs.Token.Tiling
import Scriptlet.Proofs.Token.Writing
import Scriptlet.Proofs.Yaml.Blocks
import Scriptlet.Proofs.Yaml.Escapes
import Scriptlet.Proofs.Yaml.Folding
import Scriptlet.Proofs.Yaml.Plain
import Scriptlet.Proofs.Yaml.Scanning
import Scriptlet.Proofs.Yaml.Table
import Scriptlet.Run.Environment
import Scriptlet.Run.Evaluation
import Scriptlet.Run.Execution
import Scriptlet.Run.Value
import Scriptlet.Source.Position
import Scriptlet.SumType.Basic
import Scriptlet.SumType.Generation
import Scriptlet.SumType.Grammar
import Scriptlet.SumType.Import
import Scriptlet.SumType.StandardPackage
import Scriptlet.SumType.TypeExpr
import Scriptlet.SumType.Word
import Scriptlet.Syntax.Parser
import Scriptlet.Syntax.Printer
import Scriptlet.Syntax.Stream
import Scriptlet.Syntax.Tree
import Scriptlet.Text.Base64
import Scriptlet.Text.Bytes
import Scriptlet.Text.Chars
import Scriptlet.Text.Decimal
import Scriptlet.Text.Escape
import Scriptlet.Text.Glyph
import Scriptlet.Text.Letter
import Scriptlet.Text.Printable
import Scriptlet.Text.Quoted
import Scriptlet.Token.Basic
import Scriptlet.Token.Lexer
import Scriptlet.Yaml.Fault
import Scriptlet.Yaml.Mark
import Scriptlet.Yaml.Node
import Scriptlet.Yaml.Scalar
import Scriptlet.Yaml.Source
import Scriptlet.Yaml.Style
import Scriptlet.Yaml.Tag
import Scriptlet.Yaml.Token
import Scriptlet.Yaml.Type
import Scriptlet.Yaml.Window
