import GrammarScopes.Bundled.Css
import GrammarScopes.Bundled.Html
import GrammarScopes.Bundled.JavaScript
import GrammarScopes.Command.Arguments
import GrammarScopes.Command.Basic
import GrammarScopes.Command.Program
import GrammarScopes.CommentStyle
import GrammarScopes.Decimal.Shortest
import GrammarScopes.Description.Basic
import GrammarScopes.Description.Reader
import GrammarScopes.Description.Reference
import GrammarScopes.Description.Size
import GrammarScopes.Description.Writer
import GrammarScopes.Dictionary
import GrammarScopes.Document
import GrammarScopes.Error
import GrammarScopes.FileTree
import GrammarScopes.Grammar.Anchor
import GrammarScopes.Grammar.BackReference
import GrammarScopes.Grammar.Basic
import GrammarScopes.Grammar.Candidates
import GrammarScopes.Grammar.Compile
import GrammarScopes.Grammar.Node
import GrammarScopes.Grammar.PatternSet
import GrammarScopes.Grammar.Rule
import GrammarScopes.Json.Error
import GrammarScopes.Json.Reader
import GrammarScopes.Json.Value
import GrammarScopes.Line
import GrammarScopes.Loading.Cache
import GrammarScopes.Loading.Collection
import GrammarScopes.Loading.Error
import GrammarScopes.Loading.Registry
import GrammarScopes.Loading.ServiceSession
import GrammarScopes.Loading.Session
import GrammarScopes.Loading.Source
import GrammarScopes.Loading.Task
import GrammarScopes.Loading.World
import GrammarScopes.Main
import GrammarScopes.Pattern.CharSet
import GrammarScopes.Pattern.Check
import GrammarScopes.Pattern.ClassReader
import GrammarScopes.Pattern.Error
import GrammarScopes.Pattern.Escape
import GrammarScopes.Pattern.Literal
import GrammarScopes.Pattern.Matcher
import GrammarScopes.Pattern.Node
import GrammarScopes.Pattern.Parser
import GrammarScopes.Pattern.Property
import GrammarScopes.Pattern.Quantifier
import GrammarScopes.Pattern.Reader
import GrammarScopes.Proofs.Bundled.Closing
import GrammarScopes.Proofs.Bundled.Descriptions
import GrammarScopes.Proofs.Bundled.Embedded
import GrammarScopes.Proofs.Description.Members
import GrammarScopes.Proofs.Description.Ordered
import GrammarScopes.Proofs.Description.RoundTrip
import GrammarScopes.Proofs.Dictionary
import GrammarScopes.Proofs.Document.CursorScopes
import GrammarScopes.Proofs.Entries
import GrammarScopes.Proofs.Except
import GrammarScopes.Proofs.Grammar.Anchors
import GrammarScopes.Proofs.Grammar.Arena
import GrammarScopes.Proofs.Grammar.BackReferences
import GrammarScopes.Proofs.Grammar.CaptureTables
import GrammarScopes.Proofs.Grammar.ClosedArena
import GrammarScopes.Proofs.Grammar.Compiled
import GrammarScopes.Proofs.Grammar.Enclosing
import GrammarScopes.Proofs.Grammar.Flattening
import GrammarScopes.Proofs.Grammar.Items
import GrammarScopes.Proofs.Grammar.Places
import GrammarScopes.Proofs.Grammar.Reach
import GrammarScopes.Proofs.Grammar.Roots
import GrammarScopes.Proofs.Grammar.RuleView
import GrammarScopes.Proofs.Grammar.ScanSets
import GrammarScopes.Proofs.Grammar.Scanning
import GrammarScopes.Proofs.Grammar.Surroundings
import GrammarScopes.Proofs.Grammar.Unfolding
import GrammarScopes.Proofs.Grammar.Written
import GrammarScopes.Proofs.Json.Layout
import GrammarScopes.Proofs.Json.Reading
import GrammarScopes.Proofs.Json.Scalars
import GrammarScopes.Proofs.Json.Yields
import GrammarScopes.Proofs.Line.Boundary
import GrammarScopes.Proofs.Line.Columns
import GrammarScopes.Proofs.Loading.Delivery
import GrammarScopes.Proofs.Loading.History
import GrammarScopes.Proofs.Loading.Leaders
import GrammarScopes.Proofs.Loading.Notes
import GrammarScopes.Proofs.Loading.Permanence
import GrammarScopes.Proofs.Loading.Served
import GrammarScopes.Proofs.Loading.SingleFlight
import GrammarScopes.Proofs.Loading.Slots
import GrammarScopes.Proofs.Pattern.Advance
import GrammarScopes.Proofs.Pattern.Keep
import GrammarScopes.Proofs.Pattern.LiteralText
import GrammarScopes.Proofs.Pattern.Plain
import GrammarScopes.Proofs.Pattern.Required
import GrammarScopes.Proofs.Pattern.Spelling
import GrammarScopes.Proofs.Pattern.StandIn
import GrammarScopes.Proofs.Pattern.StandInText
import GrammarScopes.Proofs.Pattern.Takes
import GrammarScopes.Proofs.Pattern.Tracks
import GrammarScopes.Proofs.Pattern.TracksClass
import GrammarScopes.Proofs.Pattern.TracksTree
import GrammarScopes.Proofs.Registry.Cancellation
import GrammarScopes.Proofs.Registry.Closure
import GrammarScopes.Proofs.Registry.Collecting
import GrammarScopes.Proofs.Registry.CollectingOrder
import GrammarScopes.Proofs.Registry.Consistency
import GrammarScopes.Proofs.Registry.EmbeddedReferences
import GrammarScopes.Proofs.Registry.IdleCollecting
import GrammarScopes.Proofs.Registry.Loads
import GrammarScopes.Proofs.Registry.Readings
import GrammarScopes.Proofs.Registry.Session
import GrammarScopes.Proofs.Registry.Tasks
import GrammarScopes.Proofs.Scanner
import GrammarScopes.Proofs.Scanner.Earliest
import GrammarScopes.Proofs.Settings.RoundTrip
import GrammarScopes.Proofs.Text.Decode
import GrammarScopes.Proofs.Text.Digits
import GrammarScopes.Proofs.Text.Split
import GrammarScopes.Proofs.Tokenizer.ActiveRules
import GrammarScopes.Proofs.Tokenizer.Again
import GrammarScopes.Proofs.Tokenizer.Competition
import GrammarScopes.Proofs.Tokenizer.Continuing
import GrammarScopes.Proofs.Tokenizer.DisabledPatterns
import GrammarScopes.Proofs.Tokenizer.EmptyLine
import GrammarScopes.Proofs.Tokenizer.Enclosed
import GrammarScopes.Proofs.Tokenizer.EnclosingRules
import GrammarScopes.Proofs.Tokenizer.Evaluation
import GrammarScopes.Proofs.Tokenizer.GroupScopes
import GrammarScopes.Proofs.Tokenizer.Growth
import GrammarScopes.Proofs.Tokenizer.MatchReach
import GrammarScopes.Proofs.Tokenizer.Matches
import GrammarScopes.Proofs.Tokenizer.NestedCaptures
import GrammarScopes.Proofs.Tokenizer.Outcome
import GrammarScopes.Proofs.Tokenizer.Partition
import GrammarScopes.Proofs.Tokenizer.Run
import GrammarScopes.Proofs.Tokenizer.Searches
import GrammarScopes.Proofs.Tokenizer.Step
import GrammarScopes.Proofs.Tokenizer.Termination
import GrammarScopes.Proofs.Toml.Integers
import GrammarScopes.Proofs.Toml.Lines
import GrammarScopes.Proofs.Toml.Quote
import GrammarScopes.Resolver
import GrammarScopes.Scanner
import GrammarScopes.ScopeTemplate
import GrammarScopes.Service
import GrammarScopes.Settings.Basic
import GrammarScopes.Settings.Toml
import GrammarScopes.Text.CaseFold
import GrammarScopes.Text.CaseMap
import GrammarScopes.Text.CaseTables
import GrammarScopes.Text.Category
import GrammarScopes.Text.CategoryRuns
import GrammarScopes.Text.Class
import GrammarScopes.Text.Number
import GrammarScopes.Text.Quoted
import GrammarScopes.Text.RangeTables
import GrammarScopes.Text.Ranges
import GrammarScopes.Text.Script
import GrammarScopes.Text.Split
import GrammarScopes.Text.Units
import GrammarScopes.Token
import GrammarScopes.Tokenizer.Basic
import GrammarScopes.Tokenizer.Captures
import GrammarScopes.Tokenizer.Scan
import GrammarScopes.Tokenizer.Stack
import GrammarScopes.Tokenizer.TokenRun
import GrammarScopes.Tokenizer.While
import GrammarScopes.Toml.DateTime
import GrammarScopes.Toml.Number
import GrammarScopes.Toml.Quote
import GrammarScopes.Toml.Reader
import GrammarScopes.Toml.Table
import GrammarScopes.Toml.Value
import GrammarScopes.Proofs.Document.Lines
import GrammarScopes.Proofs.ScopeTemplate
import GrammarScopes.Proofs.Scanner.FirstMatch
import GrammarScopes.Proofs.Command.TokenText
