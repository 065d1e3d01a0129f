import GrammarArtifact.CommandLine
import GrammarArtifact.CommandLine.Arguments
import GrammarArtifact.CommandLine.LogFilter
import GrammarArtifact.CommandLine.Report
import GrammarArtifact.Distinct
import GrammarArtifact.Document.Binary64
import GrammarArtifact.Document.Fault
import GrammarArtifact.Document.Grammar
import GrammarArtifact.Document.Number
import GrammarArtifact.Document.Presentation
import GrammarArtifact.Document.Reader
import GrammarArtifact.Document.Record
import GrammarArtifact.Document.Scan
import GrammarArtifact.Document.Syntax
import GrammarArtifact.Document.Value
import GrammarArtifact.Document.Writer
import GrammarArtifact.Event
import GrammarArtifact.FileSystem
import GrammarArtifact.FileSystem.Store
import GrammarArtifact.Grammar
import GrammarArtifact.Language
import GrammarArtifact.Loading
import GrammarArtifact.Loading.Artifact
import GrammarArtifact.Loading.Compiled
import GrammarArtifact.Loading.Failure
import GrammarArtifact.Loading.Handle
import GrammarArtifact.Loading.Location
import GrammarArtifact.Main
import GrammarArtifact.Matcher
import GrammarArtifact.Parser
import GrammarArtifact.Path
import GrammarArtifact.Pattern.Anchor
import GrammarArtifact.Pattern.CharSet
import GrammarArtifact.Pattern.Class
import GrammarArtifact.Pattern.Engine
import GrammarArtifact.Pattern.Escape
import GrammarArtifact.Pattern.Layout
import GrammarArtifact.Pattern.Matching
import GrammarArtifact.Pattern.Mode
import GrammarArtifact.Pattern.Node
import GrammarArtifact.Pattern.Plan
import GrammarArtifact.Pattern.Reading
import GrammarArtifact.Pattern.Room
import GrammarArtifact.Pattern.Token
import GrammarArtifact.Proofs.Distinct
import GrammarArtifact.Proofs.Document.Accepting
import GrammarArtifact.Proofs.Document.Content
import GrammarArtifact.Proofs.Document.GrammarMeaning
import GrammarArtifact.Proofs.Document.Integers
import GrammarArtifact.Proofs.Document.Layout
import GrammarArtifact.Proofs.Document.Levels
import GrammarArtifact.Proofs.Document.Lexemes
import GrammarArtifact.Proofs.Document.Meaning
import GrammarArtifact.Proofs.Document.Nested
import GrammarArtifact.Proofs.Document.Nesting
import GrammarArtifact.Proofs.Document.Passing
import GrammarArtifact.Proofs.Document.Places
import GrammarArtifact.Proofs.Document.Presentation
import GrammarArtifact.Proofs.Document.Reading
import GrammarArtifact.Proofs.Document.Record
import GrammarArtifact.Proofs.Document.RecordMeaning
import GrammarArtifact.Proofs.Document.RoundTrip
import GrammarArtifact.Proofs.Document.Scan
import GrammarArtifact.Proofs.Document.Skipping
import GrammarArtifact.Proofs.Document.Spelling
import GrammarArtifact.Proofs.Document.Truncation
import GrammarArtifact.Proofs.Language.Answers
import GrammarArtifact.Proofs.Language.Gates
import GrammarArtifact.Proofs.Language.KindCoverage
import GrammarArtifact.Proofs.Language.Pruning
import GrammarArtifact.Proofs.Language.Rearrangement
import GrammarArtifact.Proofs.Loading.EnumerationOrder
import GrammarArtifact.Proofs.Loading.Gates
import GrammarArtifact.Proofs.Loading.Search
import GrammarArtifact.Proofs.Loading.Warnings
import GrammarArtifact.Proofs.Path
import GrammarArtifact.Proofs.Pattern.Anchored
import GrammarArtifact.Proofs.Pattern.Spans
import GrammarArtifact.Proofs.Rule.Depth
import GrammarArtifact.Proofs.Rule.Nodes
import GrammarArtifact.Proofs.Rule.Surface
import GrammarArtifact.Proofs.Symbols.Anchoring
import GrammarArtifact.Proofs.Symbols.Contents
import GrammarArtifact.Proofs.Symbols.Contributions
import GrammarArtifact.Proofs.Symbols.FieldLookup
import GrammarArtifact.Proofs.Symbols.Fields
import GrammarArtifact.Proofs.Symbols.FirstNumber
import GrammarArtifact.Proofs.Symbols.Keywords
import GrammarArtifact.Proofs.Symbols.KindTable
import GrammarArtifact.Proofs.Symbols.Lookup
import GrammarArtifact.Proofs.Symbols.WholeWords
import GrammarArtifact.Proofs.Symbols.WordChain
import GrammarArtifact.Proofs.Table
import GrammarArtifact.Proofs.Text.Ascending
import GrammarArtifact.Proofs.Text.ByteOrder
import GrammarArtifact.Proofs.Validation.Depth
import GrammarArtifact.Proofs.Validation.LeftRecursion
import GrammarArtifact.Proofs.Validation.MixedPrecedence
import GrammarArtifact.Proofs.Validation.NeglectedNodes
import GrammarArtifact.Proofs.Validation.PrecedenceWarnings
import GrammarArtifact.Proofs.Validation.Reachability
import GrammarArtifact.Proofs.Validation.Violations
import GrammarArtifact.Rule
import GrammarArtifact.Rule.Build
import GrammarArtifact.Rule.Surface
import GrammarArtifact.Settings
import GrammarArtifact.Shipped
import GrammarArtifact.Symbols
import GrammarArtifact.Symbols.Field
import GrammarArtifact.Symbols.KindTable
import GrammarArtifact.Symbols.NodeKind
import GrammarArtifact.Symbols.Word
import GrammarArtifact.Table
import GrammarArtifact.Text.ByteRows
import GrammarArtifact.Text.Category
import GrammarArtifact.Text.Category.Letters
import GrammarArtifact.Text.Category.Marks
import GrammarArtifact.Text.Category.Numbers
import GrammarArtifact.Text.Category.Others
import GrammarArtifact.Text.Category.Punctuation
import GrammarArtifact.Text.Category.Separators
import GrammarArtifact.Text.Category.Symbols
import GrammarArtifact.Text.Folding
import GrammarArtifact.Text.Property
import GrammarArtifact.Text.Quoted
import GrammarArtifact.Text.Ranges
import GrammarArtifact.Text.Ranges.Algebra
import GrammarArtifact.Text.Rest
import GrammarArtifact.Text.Tables
import GrammarArtifact.Text.Unicode
import GrammarArtifact.Text.Words
import GrammarArtifact.Validation
import GrammarArtifact.Validation.Fault
import GrammarArtifact.Validation.LeftRecursion
import GrammarArtifact.Validation.Precedence
import GrammarArtifact.Validation.Reachability
import GrammarArtifact.Validation.Warning
import GrammarArtifact.Validation.Wellformed
