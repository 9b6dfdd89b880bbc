import NovelScript.Analysis
import NovelScript.Command.Help
import NovelScript.Command.Request
import NovelScript.Command.Run
import NovelScript.Decimal.Shortest
import NovelScript.Decimal.Text
import NovelScript.Diagnostic
import NovelScript.Expectation
import NovelScript.Files
import NovelScript.Grammar.Block
import NovelScript.Grammar.Cursor
import NovelScript.Grammar.Error
import NovelScript.Grammar.Expression
import NovelScript.Grammar.Rule
import NovelScript.Grammar.Statement
import NovelScript.Json.Basic
import NovelScript.Json.Forms
import NovelScript.Lexeme.Basic
import NovelScript.Lexeme.Core
import NovelScript.Lexeme.Line
import NovelScript.Lexeme.Python
import NovelScript.Lexeme.Quotation
import NovelScript.LineMap
import NovelScript.Listing
import NovelScript.Main
import NovelScript.Outline
import NovelScript.Position
import NovelScript.Proofs.Acceptance
import NovelScript.Proofs.Bisection
import NovelScript.Proofs.BlockRuns
import NovelScript.Proofs.Blocks
import NovelScript.Proofs.Chunks
import NovelScript.Proofs.ClosingQuotes
import NovelScript.Proofs.CompletedLines
import NovelScript.Proofs.Correspondence
import NovelScript.Proofs.CorrespondingAnalyses
import NovelScript.Proofs.CorrespondingParses
import NovelScript.Proofs.CorrespondingStatements
import NovelScript.Proofs.Coverage
import NovelScript.Proofs.DeepExpressions
import NovelScript.Proofs.DeepLines
import NovelScript.Proofs.Diagnostics
import NovelScript.Proofs.DocumentAcceptance
import NovelScript.Proofs.Embedding
import NovelScript.Proofs.EndsOfLines
import NovelScript.Proofs.ErrorOrder
import NovelScript.Proofs.ExpressionAcceptance
import NovelScript.Proofs.Failures
import NovelScript.Proofs.Faithfulness
import NovelScript.Proofs.HiddenTokens
import NovelScript.Proofs.Indentation
import NovelScript.Proofs.Innermost
import NovelScript.Proofs.Journeys
import NovelScript.Proofs.LabelPlaces
import NovelScript.Proofs.LabelScopes
import NovelScript.Proofs.Landing
import NovelScript.Proofs.Leaves
import NovelScript.Proofs.LexicalErrors
import NovelScript.Proofs.LineBound
import NovelScript.Proofs.LineColumns
import NovelScript.Proofs.LineEndingInvariance
import NovelScript.Proofs.LineEndings
import NovelScript.Proofs.LineLexemes
import NovelScript.Proofs.Lines
import NovelScript.Proofs.Locality
import NovelScript.Proofs.LocatedParses
import NovelScript.Proofs.LocatedStatements
import NovelScript.Proofs.Locations
import NovelScript.Proofs.Lookaheads
import NovelScript.Proofs.Mentions
import NovelScript.Proofs.NameOrder
import NovelScript.Proofs.NamePlaces
import NovelScript.Proofs.Navigation
import NovelScript.Proofs.Nesting
import NovelScript.Proofs.NodeTexts
import NovelScript.Proofs.Opening
import NovelScript.Proofs.Options
import NovelScript.Proofs.Outlines
import NovelScript.Proofs.OwnLine
import NovelScript.Proofs.Position
import NovelScript.Proofs.PythonAgreement
import NovelScript.Proofs.PythonCodes
import NovelScript.Proofs.PythonContexts
import NovelScript.Proofs.PythonInventory
import NovelScript.Proofs.PythonOpenings
import NovelScript.Proofs.PythonPieces
import NovelScript.Proofs.PythonSpans
import NovelScript.Proofs.Quotations
import NovelScript.Proofs.Records
import NovelScript.Proofs.Recovery
import NovelScript.Proofs.Relocation
import NovelScript.Proofs.Resolutions
import NovelScript.Proofs.RuleAcceptance
import NovelScript.Proofs.ScopeChains
import NovelScript.Proofs.ScopeHistories
import NovelScript.Proofs.ScopeTrees
import NovelScript.Proofs.SingleErrors
import NovelScript.Proofs.SkippedBlocks
import NovelScript.Proofs.SpanTree
import NovelScript.Proofs.StatementAcceptance
import NovelScript.Proofs.TokenIndex
import NovelScript.Proofs.TokenReaders
import NovelScript.Proofs.TokenTexts
import NovelScript.Proofs.Trace
import NovelScript.Proofs.Vocabulary
import NovelScript.Proofs.Words
import NovelScript.Sample
import NovelScript.Scope.Resolution
import NovelScript.Scope.Tree
import NovelScript.Settings.Layers
import NovelScript.Settings.Path
import NovelScript.Settings.Reading
import NovelScript.Settings.Value
import NovelScript.Span
import NovelScript.Syntax.Document
import NovelScript.Syntax.Expression
import NovelScript.Syntax.Statement
import NovelScript.Syntax.Walk
import NovelScript.Text.Blank
import NovelScript.Text.CharSet
import NovelScript.Text.Layout
import NovelScript.Text.LetterCase
import NovelScript.Text.LowerCase
import NovelScript.Text.Name
import NovelScript.Text.Printable
import NovelScript.Text.Quoted
import NovelScript.Text.Slice
import NovelScript.Token.Basic
import NovelScript.Token.Kind
import NovelScript.Token.Reader
import NovelScript.Token.Stream
import NovelScript.Toml.Datetime
import NovelScript.Toml.Document
import NovelScript.Toml.Number
import NovelScript.Toml.Reader
import NovelScript.Toml.Table
import NovelScript.Toml.Text
