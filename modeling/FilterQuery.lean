import FilterQuery.CommandLine.Arguments
import FilterQuery.CommandLine.Listing
import FilterQuery.CommandLine.Run
import FilterQuery.Criteria
import FilterQuery.Criteria.Json
import FilterQuery.Criteria.Text
import FilterQuery.Error
import FilterQuery.FileError
import FilterQuery.FileSystem
import FilterQuery.Filter
import FilterQuery.Filter.Json
import FilterQuery.Filter.Line
import FilterQuery.Float64.Basic
import FilterQuery.Float64.Notation
import FilterQuery.Float64.Numeral
import FilterQuery.Float64.Rounding
import FilterQuery.Float64.Shortest
import FilterQuery.Inference
import FilterQuery.Json.Basic
import FilterQuery.Json.Decoding
import FilterQuery.Json.Numeral
import FilterQuery.Json.Place
import FilterQuery.Json.Problem
import FilterQuery.Json.Scan
import FilterQuery.Main
import FilterQuery.Operator.Basic
import FilterQuery.Operator.Json
import FilterQuery.Operator.Spelling
import FilterQuery.Page
import FilterQuery.Page.Json
import FilterQuery.Page.Parts
import FilterQuery.Query.Basic
import FilterQuery.Query.Json
import FilterQuery.Query.Predicate
import FilterQuery.Query.Statement
import FilterQuery.Query.Where
import FilterQuery.Session
import FilterQuery.Settings
import FilterQuery.SortKey
import FilterQuery.SortKey.Expression
import FilterQuery.SortKey.Json
import FilterQuery.Text.Blank
import FilterQuery.Text.Caseless
import FilterQuery.Text.Numeral
import FilterQuery.Text.Printable
import FilterQuery.Toml.Basic
import FilterQuery.Toml.Document
import FilterQuery.Toml.Scalar
import FilterQuery.Value
import FilterQuery.Value.Json
import FilterQuery.Proofs.CommandLine.Compile
import FilterQuery.Proofs.CommandLine.Settings
import FilterQuery.Proofs.Criteria.Json
import FilterQuery.Proofs.Criteria.Partial
import FilterQuery.Proofs.Criteria.Text
import FilterQuery.Proofs.Filter.Display
import FilterQuery.Proofs.Filter.Glued
import FilterQuery.Proofs.Filter.Grammar
import FilterQuery.Proofs.Filter.Json
import FilterQuery.Proofs.Filter.Partial
import FilterQuery.Proofs.Filter.Token
import FilterQuery.Proofs.Float64.Plain
import FilterQuery.Proofs.Float64.Whole
import FilterQuery.Proofs.Inference
import FilterQuery.Proofs.Json.Compact
import FilterQuery.Proofs.Json.Denotation
import FilterQuery.Proofs.Json.InRange
import FilterQuery.Proofs.Json.Numeral
import FilterQuery.Proofs.Json.Partial
import FilterQuery.Proofs.Json.Phrase
import FilterQuery.Proofs.Outcome
import FilterQuery.Proofs.Page.Parts
import FilterQuery.Proofs.Page.Windows
import FilterQuery.Proofs.Query.Clauses
import FilterQuery.Proofs.Query.Complaint
import FilterQuery.Proofs.Query.Counting
import FilterQuery.Proofs.Query.Erasure
import FilterQuery.Proofs.Query.Formula
import FilterQuery.Proofs.Query.Gaps
import FilterQuery.Proofs.Query.Inert
import FilterQuery.Proofs.Query.Insertion
import FilterQuery.Proofs.Query.Lines
import FilterQuery.Proofs.Query.Placeholders
import FilterQuery.Proofs.Query.Pruning
import FilterQuery.Proofs.Query.Shape
import FilterQuery.Proofs.Query.Unambiguous
import FilterQuery.Proofs.Query.Walk
import FilterQuery.Proofs.Session
import FilterQuery.Proofs.SortKey.Expression
import FilterQuery.Proofs.Text.Nesting
import FilterQuery.Proofs.Text.Pieces
import FilterQuery.Proofs.Text.Runs
import FilterQuery.Proofs.Text.Unsigned
import FilterQuery.Proofs.Value.Json
