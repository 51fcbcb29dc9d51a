import AssocLint.Analysis
import AssocLint.Binding
import AssocLint.Cancel
import AssocLint.Checker
import AssocLint.Checker.AssocType
import AssocLint.CommandLine
import AssocLint.CommandLine.Arguments
import AssocLint.CommandLine.Request
import AssocLint.Config
import AssocLint.Config.Reader
import AssocLint.Diagnostic
import AssocLint.Dump.Fault
import AssocLint.Dump.Form
import AssocLint.Dump.Reader
import AssocLint.Failure
import AssocLint.Files
import AssocLint.Files.PathName
import AssocLint.Files.Tree
import AssocLint.Json
import AssocLint.Json.Reader
import AssocLint.Main
import AssocLint.Matching
import AssocLint.Number.Binary64
import AssocLint.Number.Literal
import AssocLint.Occurrence
import AssocLint.Occurrence.Walk
import AssocLint.Proofs.Analysis.Cancelled
import AssocLint.Proofs.Analysis.ExactMatch
import AssocLint.Proofs.Analysis.Extended
import AssocLint.Proofs.Analysis.Findings
import AssocLint.Proofs.Analysis.Lenience
import AssocLint.Proofs.Analysis.Order
import AssocLint.Proofs.Analysis.Regroup
import AssocLint.Proofs.Analysis.Spellings
import AssocLint.Proofs.Analysis.Started
import AssocLint.Proofs.Analysis.Strict
import AssocLint.Proofs.Binding.Distinct
import AssocLint.Proofs.Binding.FirstDefinition
import AssocLint.Proofs.Cancel.Answers
import AssocLint.Proofs.CommandLine.Status
import AssocLint.Proofs.Config.Bytes
import AssocLint.Proofs.Config.Layers
import AssocLint.Proofs.Dump.Alike
import AssocLint.Proofs.Dump.Beside
import AssocLint.Proofs.Dump.Blamed
import AssocLint.Proofs.Dump.Carries
import AssocLint.Proofs.Dump.Faults
import AssocLint.Proofs.Dump.Fields
import AssocLint.Proofs.Dump.Gives
import AssocLint.Proofs.Dump.HandedDown
import AssocLint.Proofs.Dump.Inherited
import AssocLint.Proofs.Dump.Moved
import AssocLint.Proofs.Dump.NamedLine
import AssocLint.Proofs.Dump.NothingLost
import AssocLint.Proofs.Dump.Outline
import AssocLint.Proofs.Dump.PathForms
import AssocLint.Proofs.Dump.Places
import AssocLint.Proofs.Dump.ReadOnce
import AssocLint.Proofs.Dump.Readable
import AssocLint.Proofs.Dump.Reads
import AssocLint.Proofs.Dump.Rearranged
import AssocLint.Proofs.Dump.Replaced
import AssocLint.Proofs.Dump.Resolutions
import AssocLint.Proofs.Dump.Shape
import AssocLint.Proofs.Dump.Spanned
import AssocLint.Proofs.Dump.Survey
import AssocLint.Proofs.Dump.TwoReadings
import AssocLint.Proofs.Grammar.Layout
import AssocLint.Proofs.Grammar.Lexemes
import AssocLint.Proofs.Grammar.Lookahead
import AssocLint.Proofs.Grammar.Shape
import AssocLint.Proofs.Index.Acceptance
import AssocLint.Proofs.Index.Candidates
import AssocLint.Proofs.Index.Detail
import AssocLint.Proofs.Index.Filter
import AssocLint.Proofs.Index.LinearScan
import AssocLint.Proofs.Index.Permuted
import AssocLint.Proofs.Json.Numbers
import AssocLint.Proofs.Json.Printable
import AssocLint.Proofs.Json.RoundTrip
import AssocLint.Proofs.Json.Strings
import AssocLint.Proofs.Reference.Identity
import AssocLint.Proofs.Reference.InferredOwner
import AssocLint.Proofs.Reference.Layout
import AssocLint.Proofs.Reference.Lenience
import AssocLint.Proofs.Reference.Nested
import AssocLint.Proofs.Reference.Path
import AssocLint.Proofs.Reference.Plain
import AssocLint.Proofs.Reference.Sameness
import AssocLint.Proofs.Reference.Shape
import AssocLint.Proofs.Reference.Shown
import AssocLint.Proofs.Reference.Tolerance
import AssocLint.Proofs.Renaming.Findings
import AssocLint.Proofs.Renaming.Rename
import AssocLint.Proofs.Renaming.Walk
import AssocLint.Proofs.Report.JsonLines
import AssocLint.Proofs.Report.Merged
import AssocLint.Proofs.Report.Tally
import AssocLint.Proofs.Rule.Reads
import AssocLint.Proofs.Rule.Yields
import AssocLint.Proofs.Runner.Counts
import AssocLint.Proofs.Runner.Crates
import AssocLint.Proofs.Runner.Loading
import AssocLint.Proofs.Runner.Warnings
import AssocLint.Proofs.Scope.Checked
import AssocLint.Proofs.Scope.Discipline
import AssocLint.Proofs.Scope.Stack
import AssocLint.Proofs.Sexp.Balance
import AssocLint.Proofs.Sexp.Document
import AssocLint.Proofs.Sexp.Equality
import AssocLint.Proofs.Sexp.Lines
import AssocLint.Proofs.Sexp.Partners
import AssocLint.Proofs.Sexp.Views
import AssocLint.Proofs.Sexp.Zone
import AssocLint.Proofs.Suggestion.Findings
import AssocLint.Proofs.Suggestion.Follow
import AssocLint.Proofs.Suggestion.Replaced
import AssocLint.Proofs.Suggestion.Rewritten
import AssocLint.Proofs.Suggestion.Route
import AssocLint.Proofs.Suggestion.Walk
import AssocLint.Proofs.Suppression.Registered
import AssocLint.Proofs.Text.Spacing
import AssocLint.Proofs.Text.Squeezed
import AssocLint.Proofs.Text.Utf8
import AssocLint.Proofs.Tree.Mapped
import AssocLint.Proofs.Tree.Nodes
import AssocLint.Proofs.Tree.References
import AssocLint.Proofs.Tree.Spans
import AssocLint.Proofs.Walk.Coverage
import AssocLint.Proofs.Walk.Positions
import AssocLint.Proofs.Walk.Subjects
import AssocLint.Reference
import AssocLint.Reference.Equivalence
import AssocLint.Reference.Grammar
import AssocLint.Reference.Identity
import AssocLint.Reference.Rule
import AssocLint.Report
import AssocLint.Runner
import AssocLint.Scope
import AssocLint.Sexp
import AssocLint.Sexp.Parentheses
import AssocLint.Sexp.Reader
import AssocLint.Sexp.Token
import AssocLint.Span
import AssocLint.Suppression
import AssocLint.Table
import AssocLint.Text.Character
import AssocLint.Text.CharacterTable
import AssocLint.Text.Glob
import AssocLint.Text.Quoted
import AssocLint.Text.Squeezed
import AssocLint.Text.Utf8
import AssocLint.Tree.Crate
import AssocLint.Tree.Expr
import AssocLint.Tree.Pattern
import AssocLint.Tree.Type
