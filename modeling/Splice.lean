import Splice.Command.Arguments
import Splice.Command.Run
import Splice.Command.Surroundings
import Splice.Command.Usage
import Splice.Config.Basic
import Splice.Config.Document
import Splice.Config.Entries
import Splice.Config.Value
import Splice.Decimal.Double
import Splice.Decimal.Shortest
import Splice.Decimal.Style
import Splice.Define.Expression
import Splice.Define.Pass
import Splice.Define.Replacement
import Splice.Define.Report
import Splice.Define.Shape
import Splice.Define.Table
import Splice.Define.Visitor
import Splice.Environment
import Splice.Error
import Splice.Files.Basic
import Splice.Files.Path
import Splice.Grammar.Binding
import Splice.Grammar.Class
import Splice.Grammar.Declaration
import Splice.Grammar.Element
import Splice.Grammar.Expression
import Splice.Grammar.Function
import Splice.Grammar.Module
import Splice.Grammar.Name
import Splice.Grammar.Object
import Splice.Grammar.Program
import Splice.Grammar.State
import Splice.Grammar.Statement
import Splice.Grammar.Target
import Splice.Grammar.Type
import Splice.Json.Fault
import Splice.Json.Item
import Splice.Json.Number
import Splice.Json.Reader
import Splice.Json.Text
import Splice.Json.Value
import Splice.Language
import Splice.Main
import Splice.Node.Basic
import Splice.Node.Form
import Splice.Node.Operator
import Splice.Node.Span
import Splice.Print.Element
import Splice.Print.Expression
import Splice.Print.Function
import Splice.Print.Module
import Splice.Print.Node
import Splice.Print.Out
import Splice.Print.Piece
import Splice.Print.Statement
import Splice.Print.Type
import Splice.Proofs.Appending
import Splice.Proofs.BlankText
import Splice.Proofs.Closing
import Splice.Proofs.Columns
import Splice.Proofs.Constants
import Splice.Proofs.DefinitionLists
import Splice.Proofs.Denotation
import Splice.Proofs.DocumentFormat
import Splice.Proofs.Documents
import Splice.Proofs.Dotted
import Splice.Proofs.Enclosed
import Splice.Proofs.Fallback
import Splice.Proofs.Files
import Splice.Proofs.FirstSpellings
import Splice.Proofs.Fusion
import Splice.Proofs.Grammar.Binding
import Splice.Proofs.Grammar.Declaration
import Splice.Proofs.Grammar.Element
import Splice.Proofs.Grammar.Expression
import Splice.Proofs.Grammar.Function
import Splice.Proofs.Grammar.Program
import Splice.Proofs.Grammar.Rules
import Splice.Proofs.Grammar.State
import Splice.Proofs.Grammar.Type
import Splice.Proofs.JsonNumbers
import Splice.Proofs.JsonSpelling
import Splice.Proofs.JsonValues
import Splice.Proofs.KeyNames
import Splice.Proofs.KeyReading
import Splice.Proofs.KeySpelling
import Splice.Proofs.KeyTerms
import Splice.Proofs.Keys
import Splice.Proofs.Larger
import Splice.Proofs.Layout
import Splice.Proofs.Lines
import Splice.Proofs.Literals
import Splice.Proofs.Marks
import Splice.Proofs.NamedInputs
import Splice.Proofs.Names
import Splice.Proofs.Opening
import Splice.Proofs.Operand
import Splice.Proofs.Outputs
import Splice.Proofs.Overrides
import Splice.Proofs.Parentheses
import Splice.Proofs.Phrases
import Splice.Proofs.Position
import Splice.Proofs.Precedence
import Splice.Proofs.Printing
import Splice.Proofs.ReadBack
import Splice.Proofs.Reading
import Splice.Proofs.ReferenceForm
import Splice.Proofs.References
import Splice.Proofs.Replacements
import Splice.Proofs.Reports
import Splice.Proofs.Rewriting
import Splice.Proofs.RoundTrip
import Splice.Proofs.ShapeFilter
import Splice.Proofs.Shorthands
import Splice.Proofs.Skipping
import Splice.Proofs.Spacing
import Splice.Proofs.Spans
import Splice.Proofs.Spared
import Splice.Proofs.Spelling
import Splice.Proofs.Stability
import Splice.Proofs.StringText
import Splice.Proofs.Substitution
import Splice.Proofs.Suspensions
import Splice.Proofs.Targets
import Splice.Proofs.Term
import Splice.Proofs.Trimming
import Splice.Proofs.Visiting
import Splice.Proofs.WholeText
import Splice.Text.Blank
import Splice.Text.Breaks
import Splice.Text.Name
import Splice.Text.Quoted
import Splice.Text.Shown
import Splice.Text.Table
import Splice.Text.Visible
import Splice.Text.Wrap
import Splice.Token.Basic
import Splice.Token.Comment
import Splice.Token.Escape
import Splice.Token.Extent
import Splice.Token.Number
import Splice.Token.Problem
import Splice.Token.Quoted
import Splice.Token.Scan
import Splice.Token.Tidy
import Splice.Transform
