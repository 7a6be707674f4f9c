import JavaGraph.Action
import JavaGraph.Document.Json
import JavaGraph.Document.Scalar
import JavaGraph.Document.Yaml
import JavaGraph.File.Path
import JavaGraph.File.Tree
import JavaGraph.Graph.Arena
import JavaGraph.Graph.Basic
import JavaGraph.Graph.Export
import JavaGraph.Graph.Id
import JavaGraph.Graph.Lookup
import JavaGraph.Graph.Node
import JavaGraph.Name
import JavaGraph.Parser.Basic
import JavaGraph.Parser.Declaration
import JavaGraph.Parser.Expression
import JavaGraph.Parser.Lookahead
import JavaGraph.Parser.Resume
import JavaGraph.Parser.Source
import JavaGraph.Parser.Statement
import JavaGraph.Parser.TypeRef
import JavaGraph.Proofs.Action
import JavaGraph.Proofs.Graph.Alike
import JavaGraph.Proofs.Graph.Completion
import JavaGraph.Proofs.Graph.Correspondence
import JavaGraph.Proofs.Graph.Intact
import JavaGraph.Proofs.Graph.Lifecycle
import JavaGraph.Proofs.Graph.Members
import JavaGraph.Proofs.Graph.Names
import JavaGraph.Proofs.Graph.Nesting
import JavaGraph.Proofs.Graph.Operations
import JavaGraph.Proofs.Graph.References
import JavaGraph.Proofs.Graph.Released
import JavaGraph.Proofs.Graph.Since
import JavaGraph.Proofs.Graph.Universes
import JavaGraph.Proofs.Graph.Unplaced
import JavaGraph.Proofs.Graph.Unrecorded
import JavaGraph.Proofs.Graph.Upkeep
import JavaGraph.Proofs.Name
import JavaGraph.Proofs.Parser.Agreement
import JavaGraph.Proofs.Parser.Anywhere
import JavaGraph.Proofs.Parser.Brackets
import JavaGraph.Proofs.Parser.BracketsGrammar
import JavaGraph.Proofs.Parser.Building
import JavaGraph.Proofs.Parser.BuildingGrammar
import JavaGraph.Proofs.Parser.Comments
import JavaGraph.Proofs.Parser.Explained
import JavaGraph.Proofs.Parser.ForEach
import JavaGraph.Proofs.Parser.Formed
import JavaGraph.Proofs.Parser.Forming
import JavaGraph.Proofs.Parser.FormingGrammar
import JavaGraph.Proofs.Parser.FormingMembers
import JavaGraph.Proofs.Parser.Grammar
import JavaGraph.Proofs.Parser.Headers
import JavaGraph.Proofs.Parser.Imports
import JavaGraph.Proofs.Parser.Kept
import JavaGraph.Proofs.Parser.Layout
import JavaGraph.Proofs.Parser.LayoutGrammar
import JavaGraph.Proofs.Parser.Lookahead
import JavaGraph.Proofs.Parser.Lossless
import JavaGraph.Proofs.Parser.Measured
import JavaGraph.Proofs.Parser.Progress
import JavaGraph.Proofs.Parser.Reading
import JavaGraph.Proofs.Parser.Recovery
import JavaGraph.Proofs.Parser.Rounds
import JavaGraph.Proofs.Parser.Scans
import JavaGraph.Proofs.Parser.Seated
import JavaGraph.Proofs.Parser.SeatedGrammar
import JavaGraph.Proofs.Parser.Siblings
import JavaGraph.Proofs.Parser.Termination
import JavaGraph.Proofs.Scan.Abreast
import JavaGraph.Proofs.Scan.Accesses
import JavaGraph.Proofs.Scan.Accounted
import JavaGraph.Proofs.Scan.Alike
import JavaGraph.Proofs.Scan.Alongside
import JavaGraph.Proofs.Scan.Assigned
import JavaGraph.Proofs.Scan.Beside
import JavaGraph.Proofs.Scan.Boundary
import JavaGraph.Proofs.Scan.Comments
import JavaGraph.Proofs.Scan.Confined
import JavaGraph.Proofs.Scan.Contents
import JavaGraph.Proofs.Scan.Counted
import JavaGraph.Proofs.Scan.Declaring
import JavaGraph.Proofs.Scan.Diagonal
import JavaGraph.Proofs.Scan.Intact
import JavaGraph.Proofs.Scan.Laid
import JavaGraph.Proofs.Scan.Lending
import JavaGraph.Proofs.Scan.Lifecycle
import JavaGraph.Proofs.Scan.Lines
import JavaGraph.Proofs.Scan.Listing
import JavaGraph.Proofs.Scan.Located
import JavaGraph.Proofs.Scan.Members
import JavaGraph.Proofs.Scan.Mentions
import JavaGraph.Proofs.Scan.Naming
import JavaGraph.Proofs.Scan.Oblivious
import JavaGraph.Proofs.Scan.Order
import JavaGraph.Proofs.Scan.Pairs
import JavaGraph.Proofs.Scan.Placeholders
import JavaGraph.Proofs.Scan.Reading
import JavaGraph.Proofs.Scan.Recording
import JavaGraph.Proofs.Scan.References
import JavaGraph.Proofs.Scan.Refused
import JavaGraph.Proofs.Scan.Resolving
import JavaGraph.Proofs.Scan.Scoping
import JavaGraph.Proofs.Scan.Settled
import JavaGraph.Proofs.Scan.Solo
import JavaGraph.Proofs.Scan.Spans
import JavaGraph.Proofs.Scan.Step
import JavaGraph.Proofs.Scan.Tandem
import JavaGraph.Proofs.Scan.Tidy
import JavaGraph.Proofs.Scan.Together
import JavaGraph.Proofs.Scan.Trace
import JavaGraph.Proofs.Scan.Twins
import JavaGraph.Proofs.Scan.Unanswered
import JavaGraph.Proofs.Scan.Uncommented
import JavaGraph.Proofs.Scan.Units
import JavaGraph.Proofs.Scan.Unrecorded
import JavaGraph.Proofs.Scan.Upheld
import JavaGraph.Proofs.Scan.Uses
import JavaGraph.Proofs.Scan.Walk
import JavaGraph.Proofs.Scan.Warned
import JavaGraph.Proofs.Scan.Written
import JavaGraph.Proofs.Scope.Answers
import JavaGraph.Proofs.Scope.Lifecycle
import JavaGraph.Proofs.Scope.Operations
import JavaGraph.Proofs.Scope.Passage
import JavaGraph.Proofs.Scope.Stable
import JavaGraph.Proofs.Session.Anonymous
import JavaGraph.Proofs.Session.Boundary
import JavaGraph.Proofs.Session.Configured
import JavaGraph.Proofs.Session.Depends
import JavaGraph.Proofs.Session.Failing
import JavaGraph.Proofs.Session.Globally
import JavaGraph.Proofs.Session.Intact
import JavaGraph.Proofs.Session.Isolated
import JavaGraph.Proofs.Session.Lifecycle
import JavaGraph.Proofs.Session.Listing
import JavaGraph.Proofs.Session.Loading
import JavaGraph.Proofs.Session.LocalNames
import JavaGraph.Proofs.Session.Names
import JavaGraph.Proofs.Session.Order
import JavaGraph.Proofs.Session.Parallel
import JavaGraph.Proofs.Session.Reported
import JavaGraph.Proofs.Session.Rescanned
import JavaGraph.Proofs.Session.Scoping
import JavaGraph.Proofs.Session.Settled
import JavaGraph.Proofs.Session.SimpleNames
import JavaGraph.Proofs.Session.Sites
import JavaGraph.Proofs.Session.Spans
import JavaGraph.Proofs.Session.Stable
import JavaGraph.Proofs.Session.Unanswered
import JavaGraph.Proofs.Session.Uses
import JavaGraph.Proofs.Session.Variables
import JavaGraph.Proofs.Text.Utf8
import JavaGraph.Proofs.Token.Endings
import JavaGraph.Proofs.Token.Tiling
import JavaGraph.Proofs.Tree.Blamed
import JavaGraph.Proofs.Tree.Braces
import JavaGraph.Proofs.Tree.Brackets
import JavaGraph.Proofs.Tree.Builder
import JavaGraph.Proofs.Tree.Comments
import JavaGraph.Proofs.Tree.Formed
import JavaGraph.Proofs.Tree.Measured
import JavaGraph.Proofs.Tree.Seated
import JavaGraph.Proofs.Tree.Shape
import JavaGraph.Proofs.Tree.Sketch
import JavaGraph.Scan.Body
import JavaGraph.Scan.Declaration
import JavaGraph.Scan.Declaring
import JavaGraph.Scan.Diagnostic
import JavaGraph.Scan.Header
import JavaGraph.Scan.Load
import JavaGraph.Scan.Member
import JavaGraph.Scan.Mention
import JavaGraph.Scan.Project
import JavaGraph.Scan.Reference
import JavaGraph.Scan.Report
import JavaGraph.Scan.Site
import JavaGraph.Scan.Source
import JavaGraph.Scan.State
import JavaGraph.Scope.Basic
import JavaGraph.Session
import JavaGraph.Table
import JavaGraph.Text.Identifier
import JavaGraph.Text.Lines
import JavaGraph.Text.Position
import JavaGraph.Text.Quoted
import JavaGraph.Text.Slice
import JavaGraph.Text.Uppercase
import JavaGraph.Text.Utf8
import JavaGraph.Token.Basic
import JavaGraph.Token.Collector
import JavaGraph.Token.Kind
import JavaGraph.Token.Lexer
import JavaGraph.Tree.Basic
import JavaGraph.Tree.Builder
import JavaGraph.Tree.Comments
import JavaGraph.Tree.Kind
import JavaGraph.Tree.Render
