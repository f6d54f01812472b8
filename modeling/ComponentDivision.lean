import ComponentDivision.Command.Options
import ComponentDivision.Command.Run
import ComponentDivision.Command.Usage
import ComponentDivision.Diagnostic
import ComponentDivision.Division
import ComponentDivision.Expression.Identifier
import ComponentDivision.Expression.Scan
import ComponentDivision.Fault
import ComponentDivision.File.Path
import ComponentDivision.File.Store
import ComponentDivision.Main
import ComponentDivision.Markup.Element
import ComponentDivision.Markup.Entity
import ComponentDivision.Markup.EntityTable
import ComponentDivision.Markup.Lenient
import ComponentDivision.Markup.Locate
import ComponentDivision.Markup.Pattern
import ComponentDivision.Markup.StartTag
import ComponentDivision.Markup.Token
import ComponentDivision.Progress
import ComponentDivision.Region
import ComponentDivision.Report
import ComponentDivision.Report.Written
import ComponentDivision.Script.Check
import ComponentDivision.Script.Frame
import ComponentDivision.Script.Grammar.Expressions
import ComponentDivision.Script.Grammar.Functions
import ComponentDivision.Script.Grammar.Markup
import ComponentDivision.Script.Grammar.Statements
import ComponentDivision.Script.Lexeme
import ComponentDivision.Script.Literal
import ComponentDivision.Script.Preference
import ComponentDivision.Script.Recogniser
import ComponentDivision.Script.Rule
import ComponentDivision.Script.Scan
import ComponentDivision.Script.StatementEnd
import ComponentDivision.Script.SyntaxTree
import ComponentDivision.Script.Table
import ComponentDivision.Script.Word
import ComponentDivision.Settings
import ComponentDivision.Settings.Load
import ComponentDivision.Standard
import ComponentDivision.Template.Attribute
import ComponentDivision.Template.Block
import ComponentDivision.Template.Cursor
import ComponentDivision.Template.Element
import ComponentDivision.Template.Embedded
import ComponentDivision.Template.Extract
import ComponentDivision.Template.Node
import ComponentDivision.Template.Parser
import ComponentDivision.Template.Stack
import ComponentDivision.Template.Tag
import ComponentDivision.Text.Alphanumeric
import ComponentDivision.Text.Basic
import ComponentDivision.Text.Blank
import ComponentDivision.Text.Cased
import ComponentDivision.Text.Digit
import ComponentDivision.Text.Encoding
import ComponentDivision.Text.LetterCase
import ComponentDivision.Text.Position
import ComponentDivision.Text.Shown
import ComponentDivision.Value.Basic
import ComponentDivision.Value.Json
import ComponentDivision.Value.Print
import ComponentDivision.Value.Yaml.Input
import ComponentDivision.Value.Yaml.Node
import ComponentDivision.Value.Yaml.Resolve
import ComponentDivision.Value.Yaml.Scalar
import ComponentDivision.Value.Yaml.Token
import ComponentDivision.Proofs.DocumentOrder
import ComponentDivision.Proofs.Expression.Bounds
import ComponentDivision.Proofs.Expression.Context
import ComponentDivision.Proofs.Expression.Delimited
import ComponentDivision.Proofs.Expression.Edge
import ComponentDivision.Proofs.Expression.Literal
import ComponentDivision.Proofs.Expression.Piece
import ComponentDivision.Proofs.Expression.Slash
import ComponentDivision.Proofs.Expression.Step
import ComponentDivision.Proofs.Expression.Whole
import ComponentDivision.Proofs.Layout
import ComponentDivision.Proofs.Loop
import ComponentDivision.Proofs.Markup.Content
import ComponentDivision.Proofs.Markup.Ending
import ComponentDivision.Proofs.Markup.Extent
import ComponentDivision.Proofs.Markup.OwnPlace
import ComponentDivision.Proofs.Outcome
import ComponentDivision.Proofs.Refusal
import ComponentDivision.Proofs.ReportLines
import ComponentDivision.Proofs.Resolution
import ComponentDivision.Proofs.Script.ErrorPlace
import ComponentDivision.Proofs.SelfOverlap
import ComponentDivision.Proofs.Sequence
import ComponentDivision.Proofs.StoredOffsets
import ComponentDivision.Proofs.Template.Acceptance
import ComponentDivision.Proofs.Template.Alike
import ComponentDivision.Proofs.Template.Approval
import ComponentDivision.Proofs.Template.Assembly
import ComponentDivision.Proofs.Template.Carried
import ComponentDivision.Proofs.Template.Chain
import ComponentDivision.Proofs.Template.Composition
import ComponentDivision.Proofs.Template.ExplicitEnd
import ComponentDivision.Proofs.Template.Extraction
import ComponentDivision.Proofs.Template.FaultPlace
import ComponentDivision.Proofs.Template.FirstBlock
import ComponentDivision.Proofs.Template.IfBlock
import ComponentDivision.Proofs.Template.ImpliedEnd
import ComponentDivision.Proofs.Template.Keyword
import ComponentDivision.Proofs.Template.Laminar
import ComponentDivision.Proofs.Template.LineAgreement
import ComponentDivision.Proofs.Template.LineTable
import ComponentDivision.Proofs.Template.Locality
import ComponentDivision.Proofs.Template.Loops
import ComponentDivision.Proofs.Template.Nesting
import ComponentDivision.Proofs.Template.OpenNames
import ComponentDivision.Proofs.Template.Opener
import ComponentDivision.Proofs.Template.Placement
import ComponentDivision.Proofs.Template.PlainTag
import ComponentDivision.Proofs.Template.Reading
import ComponentDivision.Proofs.Template.Shape
import ComponentDivision.Proofs.Template.SharedRun
import ComponentDivision.Proofs.Template.Shorthand
import ComponentDivision.Proofs.Template.Step
import ComponentDivision.Proofs.Template.Surround
import ComponentDivision.Proofs.Template.Termination
import ComponentDivision.Proofs.Template.Transfer
import ComponentDivision.Proofs.Template.Unwind
import ComponentDivision.Proofs.Text.Decoding
import ComponentDivision.Proofs.Text.Line
import ComponentDivision.Proofs.Text.LineEnds
import ComponentDivision.Proofs.Tiling
import ComponentDivision.Proofs.Value.ReadBack
import ComponentDivision.Proofs.Wording
