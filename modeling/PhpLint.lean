import PhpLint.Analyzer
import PhpLint.CommandLine.Arguments
import PhpLint.CommandLine.Flag
import PhpLint.CommandLine.Footprint
import PhpLint.CommandLine.Program
import PhpLint.CommandLine.Usage
import PhpLint.Config
import PhpLint.Config.Source
import PhpLint.Config.Template
import PhpLint.Diagnostic
import PhpLint.Diagnostic.Excerpt
import PhpLint.Diagnostic.Frame
import PhpLint.Directive
import PhpLint.Discovery
import PhpLint.Expression
import PhpLint.Extension
import PhpLint.Extension.Registry
import PhpLint.FileContext
import PhpLint.FilePath
import PhpLint.FileTree
import PhpLint.Glob
import PhpLint.Ignore.Pattern
import PhpLint.Ignore.Rules
import PhpLint.Json
import PhpLint.Json.Printer
import PhpLint.Lexeme
import PhpLint.Lexeme.Comment
import PhpLint.Lexeme.Literal
import PhpLint.Lexeme.Number
import PhpLint.Lexeme.Operator
import PhpLint.Lexeme.Scan
import PhpLint.Lexeme.Word
import PhpLint.Main
import PhpLint.Position
import PhpLint.Preset
import PhpLint.Proofs.ArrayTrailingComma.Literals
import PhpLint.Proofs.Checked.FunctionComment
import PhpLint.Proofs.Checked.NameScope
import PhpLint.Proofs.Checked.Pairing
import PhpLint.Proofs.Checked.ReturnType
import PhpLint.Proofs.Checked.Sniffs
import PhpLint.Proofs.Checked.Stream
import PhpLint.Proofs.Checked.Table
import PhpLint.Proofs.Checked.Totality
import PhpLint.Proofs.CloseTag.Composition
import PhpLint.Proofs.Config.Search
import PhpLint.Proofs.Config.Settings
import PhpLint.Proofs.Cursor.Progress
import PhpLint.Proofs.Directive.Placement
import PhpLint.Proofs.Directive.Reason
import PhpLint.Proofs.Directive.RoundTrip
import PhpLint.Proofs.DocCommentSpacing.BlankLines
import PhpLint.Proofs.Extension.ArgumentType
import PhpLint.Proofs.FunctionComment.Inheritdoc
import PhpLint.Proofs.FunctionComment.Keyword
import PhpLint.Proofs.FunctionComment.ReturnTag
import PhpLint.Proofs.FunctionComment.Returns
import PhpLint.Proofs.FunctionComment.TypeCut
import PhpLint.Proofs.Grammar.Imports
import PhpLint.Proofs.Grammar.Reading
import PhpLint.Proofs.Layout.Expressions
import PhpLint.Proofs.Layout.FunctionComment
import PhpLint.Proofs.LetterCase.Table
import PhpLint.Proofs.Lexing.Agreement
import PhpLint.Proofs.Lexing.ByteSlice
import PhpLint.Proofs.Lexing.Construct
import PhpLint.Proofs.Lexing.DocComment
import PhpLint.Proofs.Lexing.DocGroup
import PhpLint.Proofs.Lexing.Layout
import PhpLint.Proofs.Lexing.Lossless
import PhpLint.Proofs.Lexing.Positions
import PhpLint.Proofs.Lexing.Reading
import PhpLint.Proofs.Lexing.Search
import PhpLint.Proofs.Lexing.TagLine
import PhpLint.Proofs.LineEnds.Declaration
import PhpLint.Proofs.LineEnds.DocComment
import PhpLint.Proofs.LineEnds.Finding
import PhpLint.Proofs.LineEnds.FunctionComment
import PhpLint.Proofs.LineEnds.Import
import PhpLint.Proofs.LineEnds.Invariance
import PhpLint.Proofs.LineEnds.Mirror
import PhpLint.Proofs.LineEnds.NameScope
import PhpLint.Proofs.LineEnds.Reading
import PhpLint.Proofs.LineEnds.Scan
import PhpLint.Proofs.LineEnds.Scope
import PhpLint.Proofs.LineEnds.Stream
import PhpLint.Proofs.OperandOrder.Mirror
import PhpLint.Proofs.Ordering.StableSort
import PhpLint.Proofs.Pairing.AttributeGroup
import PhpLint.Proofs.Pairing.Nesting
import PhpLint.Proofs.Pairing.Pass
import PhpLint.Proofs.Pairing.Segments
import PhpLint.Proofs.Path.Join
import PhpLint.Proofs.Path.Lookup
import PhpLint.Proofs.Path.Relative
import PhpLint.Proofs.Project.ConfiguredRoot
import PhpLint.Proofs.Project.Exclusion
import PhpLint.Proofs.Project.Listing
import PhpLint.Proofs.Project.PatternParts
import PhpLint.Proofs.Project.Placement
import PhpLint.Proofs.Project.Run
import PhpLint.Proofs.Report.RoundTrip
import PhpLint.Proofs.Ruleset.Independence
import PhpLint.Proofs.Ruleset.Reasons
import PhpLint.Proofs.Ruleset.Severities
import PhpLint.Proofs.Ruleset.Spans
import PhpLint.Proofs.Scopes.FunctionName
import PhpLint.Proofs.Scopes.OwnBody
import PhpLint.Proofs.StrictDeclaration.Canonical
import PhpLint.Proofs.Symbols.Enclosing
import PhpLint.Proofs.Symbols.Growth
import PhpLint.Proofs.Symbols.Inheritance
import PhpLint.Proofs.Symbols.Innermost
import PhpLint.Proofs.Symbols.Normal
import PhpLint.Proofs.Symbols.Order
import PhpLint.Proofs.Symbols.Reachability
import PhpLint.Proofs.Text.Bytes
import PhpLint.Proofs.Unclosed.Location
import PhpLint.Report
import PhpLint.Report.Json
import PhpLint.Report.Output
import PhpLint.Ruleset
import PhpLint.Severity
import PhpLint.Sniff
import PhpLint.Sniff.ArrayTrailingComma
import PhpLint.Sniff.DocCommentSpacing
import PhpLint.Sniff.FunctionComment
import PhpLint.Sniff.OperandOrder
import PhpLint.Sniff.ReturnType
import PhpLint.Sniff.StrictDeclaration
import PhpLint.Symbol.Ancestry
import PhpLint.Symbol.Declaration
import PhpLint.Symbol.Import
import PhpLint.Symbol.Name
import PhpLint.Symbol.NameScope
import PhpLint.Symbol.Table
import PhpLint.Text
import PhpLint.Text.Quoted
import PhpLint.Text.Wrap
import PhpLint.Token
import PhpLint.Token.Kind
import PhpLint.Token.Source
import PhpLint.TokenStream
import PhpLint.TokenStream.Pairing
import PhpLint.TokenStream.Scope
import PhpLint.Toml.Document
import PhpLint.Toml.Node
import PhpLint.Toml.Numbers
import PhpLint.Toml.Reader
import PhpLint.Toml.Record
import PhpLint.Toml.Strings
import PhpLint.Toml.Value
import PhpLint.Unicode.Alphanumeric
import PhpLint.Unicode.Case
import PhpLint.Unicode.Printable
import PhpLint.Unicode.Width
import PhpLint.Utf8
import PhpLint.Violation
import PhpLint.Workspace
