import CoverageEstimate.Analysis
import CoverageEstimate.Analyzers
import CoverageEstimate.CommandLine.Analyze
import CoverageEstimate.CommandLine.Help
import CoverageEstimate.CommandLine.Init
import CoverageEstimate.CommandLine.Occurrence
import CoverageEstimate.CommandLine.Outcome
import CoverageEstimate.CommandLine.Parameter
import CoverageEstimate.CommandLine.Request
import CoverageEstimate.CommandLine.Run
import CoverageEstimate.Config.Basic
import CoverageEstimate.Config.Reader
import CoverageEstimate.Config.Template
import CoverageEstimate.Dart.Functions
import CoverageEstimate.Dart.Header
import CoverageEstimate.Dart.Signals
import CoverageEstimate.Decimal.Binary
import CoverageEstimate.Decimal.Fixed
import CoverageEstimate.Decimal.Natural
import CoverageEstimate.Decimal.Reader
import CoverageEstimate.Decimal.Shortest
import CoverageEstimate.Definition
import CoverageEstimate.ExternalParser.Process
import CoverageEstimate.ExternalParser.Response
import CoverageEstimate.ExternalParser.Run
import CoverageEstimate.ExternalParser.Supervision
import CoverageEstimate.FileRecord
import CoverageEstimate.FileSystem.Basic
import CoverageEstimate.FileSystem.Change
import CoverageEstimate.FileSystem.Difference
import CoverageEstimate.FileSystem.Entry
import CoverageEstimate.FileSystem.FileError
import CoverageEstimate.Glob.Basic
import CoverageEstimate.Glob.Parser
import CoverageEstimate.Json.Failure
import CoverageEstimate.Json.Printer
import CoverageEstimate.Json.Reader
import CoverageEstimate.Json.Shape
import CoverageEstimate.Json.Value
import CoverageEstimate.Language
import CoverageEstimate.Main
import CoverageEstimate.NameSet
import CoverageEstimate.Pairing.Index
import CoverageEstimate.Pairing.Project
import CoverageEstimate.Path
import CoverageEstimate.Proofs.CommandLine.Exit
import CoverageEstimate.Proofs.CommandLine.NewConfiguration
import CoverageEstimate.Proofs.Config.Choice
import CoverageEstimate.Proofs.Dart.Calls
import CoverageEstimate.Proofs.Dart.Concatenation
import CoverageEstimate.Proofs.Dart.Extents
import CoverageEstimate.Proofs.Dart.Growth
import CoverageEstimate.Proofs.Dart.HeaderGrammar
import CoverageEstimate.Proofs.Dart.Layout
import CoverageEstimate.Proofs.Dart.LineEnds
import CoverageEstimate.Proofs.Dart.SkippedHeaders
import CoverageEstimate.Proofs.Dart.Substring
import CoverageEstimate.Proofs.Dart.Titles
import CoverageEstimate.Proofs.Decimal.Bounds
import CoverageEstimate.Proofs.Decimal.Hundredths
import CoverageEstimate.Proofs.Decimal.Quotient
import CoverageEstimate.Proofs.ExternalParser.Protocol
import CoverageEstimate.Proofs.ExternalParser.Supervision
import CoverageEstimate.Proofs.FileSystem.Additions
import CoverageEstimate.Proofs.FileSystem.Agreement
import CoverageEstimate.Proofs.FileSystem.Parents
import CoverageEstimate.Proofs.FileSystem.Tree
import CoverageEstimate.Proofs.FileSystem.Ways
import CoverageEstimate.Proofs.Json.Fractions
import CoverageEstimate.Proofs.Json.Numeral
import CoverageEstimate.Proofs.Json.Reading
import CoverageEstimate.Proofs.Json.Records
import CoverageEstimate.Proofs.Json.Shapes
import CoverageEstimate.Proofs.Json.Spelling
import CoverageEstimate.Proofs.Json.Strings
import CoverageEstimate.Proofs.Json.Writing
import CoverageEstimate.Proofs.Pairing.Grouping
import CoverageEstimate.Proofs.Pairing.Isolation
import CoverageEstimate.Proofs.Pairing.LetterCase
import CoverageEstimate.Proofs.Pairing.LongestRun
import CoverageEstimate.Proofs.Pairing.Naming
import CoverageEstimate.Proofs.Pairing.Reordering
import CoverageEstimate.Proofs.Pairing.Selection
import CoverageEstimate.Proofs.Pairing.Sharing
import CoverageEstimate.Proofs.Report.Percentages
import CoverageEstimate.Proofs.Report.RoundTrip
import CoverageEstimate.Proofs.Report.Values
import CoverageEstimate.Proofs.Report.Verdicts
import CoverageEstimate.Proofs.Report.WellFormed
import CoverageEstimate.Proofs.Results
import CoverageEstimate.Proofs.Scan.Agreement
import CoverageEstimate.Proofs.Scan.Intersection
import CoverageEstimate.Proofs.Scan.Places
import CoverageEstimate.Proofs.Scan.Pruning
import CoverageEstimate.Proofs.Scan.Subdirectory
import CoverageEstimate.Proofs.Signals.Findings
import CoverageEstimate.Proofs.Sorting
import CoverageEstimate.Proofs.Text.Layout
import CoverageEstimate.Proofs.Text.Matches
import CoverageEstimate.Proofs.Text.Tokens
import CoverageEstimate.Proofs.Text.Utf16
import CoverageEstimate.Proofs.Text.Utf8
import CoverageEstimate.Proofs.TypeScript.Bodies
import CoverageEstimate.Proofs.TypeScript.Derivation
import CoverageEstimate.Proofs.TypeScript.Family
import CoverageEstimate.Proofs.TypeScript.Introductions
import CoverageEstimate.Proofs.TypeScript.Nesting
import CoverageEstimate.Proofs.TypeScript.Offsets
import CoverageEstimate.Proofs.TypeScript.ParseTree
import CoverageEstimate.Proofs.TypeScript.Queries
import CoverageEstimate.Proofs.TypeScript.Remaining
import CoverageEstimate.Proofs.TypeScript.Spans
import CoverageEstimate.Proofs.TypeScript.StringElements
import CoverageEstimate.Proofs.TypeScript.StringLiterals
import CoverageEstimate.Proofs.TypeScript.Walk
import CoverageEstimate.Report
import CoverageEstimate.Report.Document
import CoverageEstimate.Report.Pretty
import CoverageEstimate.Scan
import CoverageEstimate.Score
import CoverageEstimate.Shell.Arithmetic
import CoverageEstimate.Shell.Command
import CoverageEstimate.Shell.Filters
import CoverageEstimate.Shell.Pattern
import CoverageEstimate.Shell.Programs
import CoverageEstimate.Shell.Reader
import CoverageEstimate.Shell.Run
import CoverageEstimate.Shell.Token
import CoverageEstimate.Signals
import CoverageEstimate.Text.Blank
import CoverageEstimate.Text.Bytes
import CoverageEstimate.Text.Duration
import CoverageEstimate.Text.Lines
import CoverageEstimate.Text.Occurrence
import CoverageEstimate.Text.Quoted
import CoverageEstimate.Text.Styled
import CoverageEstimate.Text.Word
import CoverageEstimate.TypeScript.Functions
import CoverageEstimate.TypeScript.Grammar
import CoverageEstimate.TypeScript.Lexeme
import CoverageEstimate.TypeScript.Literal
import CoverageEstimate.TypeScript.Query
import CoverageEstimate.TypeScript.Rule
import CoverageEstimate.TypeScript.Signals
import CoverageEstimate.TypeScript.Tree
import CoverageEstimate.Yaml.Event
import CoverageEstimate.Yaml.Fault
import CoverageEstimate.Yaml.Reading
import CoverageEstimate.Yaml.Scalar
import CoverageEstimate.Yaml.Tag
import CoverageEstimate.Yaml.Token
import CoverageEstimate.Yaml.Value
import CoverageEstimate.Proofs.Signals.Order
