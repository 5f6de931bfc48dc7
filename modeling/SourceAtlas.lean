import SourceAtlas.Analysis
import SourceAtlas.Catalog
import SourceAtlas.CommandLine
import SourceAtlas.Declaration
import SourceAtlas.Error
import SourceAtlas.FileTree
import SourceAtlas.Focus
import SourceAtlas.Graph
import SourceAtlas.Ignore.Below
import SourceAtlas.Ignore.Glob
import SourceAtlas.Ignore.Rules
import SourceAtlas.Java.Fault
import SourceAtlas.Java.Grammar
import SourceAtlas.Java.Layout
import SourceAtlas.Java.Letter
import SourceAtlas.Java.Lexer
import SourceAtlas.Java.Literal
import SourceAtlas.Java.Phrase
import SourceAtlas.Java.Unit
import SourceAtlas.Language
import SourceAtlas.Main
import SourceAtlas.Ordered
import SourceAtlas.Parsing.Automaton
import SourceAtlas.Parsing.Grammar
import SourceAtlas.Parsing.Merged
import SourceAtlas.Parsing.Repair.Piece
import SourceAtlas.Parsing.Repair.Search
import SourceAtlas.Parsing.Repair.Trail
import SourceAtlas.Parsing.Repair.Version
import SourceAtlas.Parsing.Rule
import SourceAtlas.Parsing.Run
import SourceAtlas.Parsing.Stack
import SourceAtlas.Parsing.Tree
import SourceAtlas.Path
import SourceAtlas.Program
import SourceAtlas.Query
import SourceAtlas.References
import SourceAtlas.Report
import SourceAtlas.Resolver
import SourceAtlas.Scan
import SourceAtlas.Settings
import SourceAtlas.Settings.Reader
import SourceAtlas.Text.Blank
import SourceAtlas.Text.Capital
import SourceAtlas.Text.CodePoints
import SourceAtlas.Text.Json
import SourceAtlas.Text.Lines
import SourceAtlas.Text.Lowercase
import SourceAtlas.Text.Pattern
import SourceAtlas.Text.Split
import SourceAtlas.Text.Utf8
import SourceAtlas.Text.Word
import SourceAtlas.Toml.Document
import SourceAtlas.Toml.Number
import SourceAtlas.Toml.Token
import SourceAtlas.Tree
import SourceAtlas.View
import SourceAtlas.View.Dot
import SourceAtlas.View.Outline
import SourceAtlas.Walk
import SourceAtlas.Proofs.Focus
import SourceAtlas.Proofs.Graph
import SourceAtlas.Proofs.Tree.Kinship
import SourceAtlas.Proofs.Mentions
import SourceAtlas.Proofs.Tree.Spanning
import SourceAtlas.Proofs.Focus.Rounds
import SourceAtlas.Proofs.View.Reach
import SourceAtlas.Proofs.Catalog
import SourceAtlas.Proofs.Resolver
import SourceAtlas.Proofs.View.ClassDiagram
import SourceAtlas.Proofs.View.Quoting
import SourceAtlas.Proofs.View.Dot
import SourceAtlas.Proofs.Lists
import SourceAtlas.Proofs.Graph.Transcript
import SourceAtlas.Proofs.Graph.Observers
import SourceAtlas.Proofs.Graph.Index
import SourceAtlas.Proofs.Resolver.Choice
import SourceAtlas.Proofs.Catalog.Records
import SourceAtlas.Proofs.Focus.Component
import SourceAtlas.Proofs.View.Focused
import SourceAtlas.Proofs.Catalog.Arrival
import SourceAtlas.Proofs.Catalog.Extension
import SourceAtlas.Proofs.Isolation
import SourceAtlas.Proofs.Seed
import SourceAtlas.Proofs.Text.Removal
import SourceAtlas.Proofs.Comments
import SourceAtlas.Proofs.Text.Lowercase
import SourceAtlas.Proofs.Resolver.Literal
import SourceAtlas.Proofs.Text.Split
import SourceAtlas.Proofs.Path
import SourceAtlas.Proofs.Seed.Lexical
import SourceAtlas.Proofs.Seed.Types
import SourceAtlas.Proofs.Tree.Drawing
import SourceAtlas.Proofs.Tree.Reversal
import SourceAtlas.Proofs.Catalog.Origin
import SourceAtlas.Proofs.Catalog.Stores
import SourceAtlas.Proofs.Text.Covering
import SourceAtlas.Proofs.Comments.Stages
import SourceAtlas.Proofs.Text.Classes
import SourceAtlas.Proofs.References.Tokens
import SourceAtlas.Proofs.References.Recall
import SourceAtlas.Proofs.Text.Utf8
import SourceAtlas.Proofs.View.Outline
import SourceAtlas.Proofs.Parsing.Soundness
import SourceAtlas.Proofs.Parsing.Compiled
import SourceAtlas.Proofs.Parsing.Following
import SourceAtlas.Proofs.Java.Types
import SourceAtlas.Proofs.Java.Units
import SourceAtlas.Proofs.Java.Layout
import SourceAtlas.Proofs.Java.Scanning
import SourceAtlas.Proofs.Java.Opening
import SourceAtlas.Proofs.Java.Headers
import SourceAtlas.Proofs.Java.PackageStates
import SourceAtlas.Proofs.Java.Packages
import SourceAtlas.Proofs.Walk
import SourceAtlas.Proofs.Scan
import SourceAtlas.Proofs.Program
