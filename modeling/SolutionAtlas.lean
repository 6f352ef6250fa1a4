import SolutionAtlas.Distinct
import SolutionAtlas.Text.CharTables
import SolutionAtlas.Text.CharClass
import SolutionAtlas.Text.Slice
import SolutionAtlas.Text.Quoted
import SolutionAtlas.Text.Lowercase
import SolutionAtlas.Text.Lines
import SolutionAtlas.Path
import SolutionAtlas.Table
import SolutionAtlas.Model.SymbolKind
import SolutionAtlas.Model.Symbol
import SolutionAtlas.Model.Conventions
import SolutionAtlas.Model.File
import SolutionAtlas.Model.Solution
import SolutionAtlas.Decimal.Basic
import SolutionAtlas.Decimal.Shortest
import SolutionAtlas.Text.Pattern
import SolutionAtlas.Json.Basic
import SolutionAtlas.Json.Reader
import SolutionAtlas.Json.Record
import SolutionAtlas.Model.Codec
import SolutionAtlas.Answer.Basic
import SolutionAtlas.Answer.Codec
import SolutionAtlas.Answer.Relative
import SolutionAtlas.CSharp.Token
import SolutionAtlas.CSharp.Literal
import SolutionAtlas.CSharp.Lexer
import SolutionAtlas.CSharp.Nesting
import SolutionAtlas.CSharp.Syntax
import SolutionAtlas.CSharp.Expression
import SolutionAtlas.CSharp.Statement
import SolutionAtlas.CSharp.Declaration
import SolutionAtlas.CSharp.DocComment
import SolutionAtlas.CSharp.TypeText
import SolutionAtlas.CSharp.Outline
import SolutionAtlas.Analysis.Extract
import SolutionAtlas.Index.Entry
import SolutionAtlas.Index.Basic
import SolutionAtlas.Graph.Basic
import SolutionAtlas.Graph.View
import SolutionAtlas.Render.FileTree
import SolutionAtlas.Render.Summary
import SolutionAtlas.Digest.Sha256
import SolutionAtlas.Manifest.Markup
import SolutionAtlas.Manifest.Project
import SolutionAtlas.Manifest.SolutionFile
import SolutionAtlas.Analysis.Detect
import SolutionAtlas.Analysis.Report
import SolutionAtlas.Glob.Basic
import SolutionAtlas.Glob.Match
import SolutionAtlas.Glob.Exclude
import SolutionAtlas.Toml.Basic
import SolutionAtlas.Toml.Scalar
import SolutionAtlas.Toml.Reader
import SolutionAtlas.Analysis.Config
import SolutionAtlas.Disk.Basic
import SolutionAtlas.Disk.Ignore
import SolutionAtlas.Disk.Scan
import SolutionAtlas.Analysis.Discovery
import SolutionAtlas.Analysis.Provider
import SolutionAtlas.Analysis.Document
import SolutionAtlas.Analysis.Analyzer
import SolutionAtlas.Analysis.Sweep
import SolutionAtlas.Analysis.Cache
import SolutionAtlas.Analysis.ConfigFile
import SolutionAtlas.Query.Error
import SolutionAtlas.Query.Loaded
import SolutionAtlas.Query.Resolve
import SolutionAtlas.Query.Filter
import SolutionAtlas.Query.Search
import SolutionAtlas.Query.Declaration
import SolutionAtlas.Query.Hierarchy
import SolutionAtlas.Query.Calls
import SolutionAtlas.Query.Overview
import SolutionAtlas.Query.Context
import SolutionAtlas.Tool.Argument
import SolutionAtlas.Tool.Catalogue
import SolutionAtlas.Tool.Call
import SolutionAtlas.Proofs.Index.Consistency
import SolutionAtlas.Proofs.Index.Refinement
import SolutionAtlas.Proofs.Analysis.Document
import SolutionAtlas.Proofs.Analysis.FromScratch
import SolutionAtlas.Proofs.Analysis.IndexFollows
import SolutionAtlas.Proofs.Analysis.SweepKeys
import SolutionAtlas.Proofs.Query.Context
import SolutionAtlas.Proofs.Query.Declaration
import SolutionAtlas.Proofs.Path.Relative
import SolutionAtlas.Proofs.Query.FileLookup
import SolutionAtlas.Proofs.Analysis.GivenUp
import SolutionAtlas.Proofs.Json.Text
import SolutionAtlas.Proofs.Json.Respelling
import SolutionAtlas.Proofs.Model.Codec
import SolutionAtlas.Proofs.Answer.Codec
import SolutionAtlas.Proofs.Path.Joined
import SolutionAtlas.Proofs.Disk.Folders
import SolutionAtlas.Proofs.Analysis.Cache
import SolutionAtlas.Proofs.Analysis.Coverage
import SolutionAtlas.Proofs.Analysis.CacheHit
import SolutionAtlas.Proofs.Disk.Ownership
import SolutionAtlas.Proofs.CSharp.Scopes
import SolutionAtlas.Proofs.CSharp.TypeForms
import SolutionAtlas.Proofs.Analysis.MemberEntries
import SolutionAtlas.Proofs.Analysis.SolutionFromScratch
import SolutionAtlas.Proofs.Query.Reload
import SolutionAtlas.Proofs.Graph.Built
import SolutionAtlas.Proofs.Graph.Reach
import SolutionAtlas.Proofs.Graph.View
import SolutionAtlas.Proofs.Analysis.RootDir
import SolutionAtlas.Proofs.Path.Shown
import SolutionAtlas.Proofs.Path.Steps
import SolutionAtlas.Proofs.Answer.Relative
import SolutionAtlas.Proofs.Distinct
import SolutionAtlas.Proofs.Model.Merge
import SolutionAtlas.Proofs.Analysis.MergePlaces
import SolutionAtlas.Proofs.Graph.OfSolution
import SolutionAtlas.Proofs.Graph.Relative
import SolutionAtlas.Proofs.Render.TreeEntries
import SolutionAtlas.Proofs.Render.FileTree
import SolutionAtlas.Proofs.Text.Occurrence
import SolutionAtlas.Proofs.Model.Conventions
import SolutionAtlas.Proofs.Index.Search
import SolutionAtlas.Proofs.Query.Search
import SolutionAtlas.Proofs.Path.Course
import SolutionAtlas.Proofs.Path.WayBack
import SolutionAtlas.Proofs.Query.Hierarchy
import SolutionAtlas.Proofs.Query.BaseChain
import SolutionAtlas.Proofs.Query.Calls
import SolutionAtlas.Proofs.Render.PlacedLines
import SolutionAtlas.Proofs.Render.CutTree
import SolutionAtlas.Proofs.CSharp.Overloads
import SolutionAtlas.Proofs.Analysis.ReportCounts
import SolutionAtlas.Proofs.Query.NamespaceTypes
import SolutionAtlas.Proofs.Analysis.Exclusion
import SolutionAtlas.Proofs.CSharp.DocSummary
import SolutionAtlas.Proofs.Text.Lines
import SolutionAtlas.Proofs.CSharp.TypeLayout
import SolutionAtlas.Proofs.Query.DerivedNames
import SolutionAtlas.Proofs.Manifest.SolutionLines
import SolutionAtlas.Proofs.Analysis.LineCounts
