import TableAccess.Binding.AliasMap
import TableAccess.Binding.Attribution
import TableAccess.Binding.Reading
import TableAccess.Catalog
import TableAccess.Catalog.Loading
import TableAccess.CommandLine.Command
import TableAccess.CommandLine.Flag
import TableAccess.CommandLine.Plan
import TableAccess.Diagnostic
import TableAccess.Document.Data
import TableAccess.Document.Json
import TableAccess.Document.JsonText
import TableAccess.Document.Loading
import TableAccess.Document.Record
import TableAccess.Document.Toml
import TableAccess.Document.Value
import TableAccess.Document.Yaml
import TableAccess.Document.Yaml.Cursor
import TableAccess.Document.Yaml.Scalar
import TableAccess.Document.Yaml.Token
import TableAccess.Document.YamlText
import TableAccess.Error
import TableAccess.Lineage.Invocation
import TableAccess.Lineage.Join
import TableAccess.Lineage.Record
import TableAccess.Main
import TableAccess.Mapper.Fragment
import TableAccess.Mapper.Markup
import TableAccess.Mapper.Reading
import TableAccess.Name
import TableAccess.Program
import TableAccess.Proofs.Access.AliasRenaming
import TableAccess.Proofs.Access.AlikeReadings
import TableAccess.Proofs.Access.AlikeScopes
import TableAccess.Proofs.Access.AlikeSources
import TableAccess.Proofs.Access.AlikeStatements
import TableAccess.Proofs.Access.BucketNotes
import TableAccess.Proofs.Access.CaseInsensitivity
import TableAccess.Proofs.Access.ChainDepth
import TableAccess.Proofs.Access.ColumnNotes
import TableAccess.Proofs.Access.Contents
import TableAccess.Proofs.Access.DepthBound
import TableAccess.Proofs.Access.KnownTables
import TableAccess.Proofs.Access.LexicalScope
import TableAccess.Proofs.Access.NoteOrigins
import TableAccess.Proofs.Access.OrderIndependence
import TableAccess.Proofs.Access.Pruning
import TableAccess.Proofs.Access.QualifiedTargets
import TableAccess.Proofs.Access.QueryInlining
import TableAccess.Proofs.Access.RecordedColumns
import TableAccess.Proofs.Access.Respelling
import TableAccess.Proofs.Access.SchemaLookup
import TableAccess.Proofs.Access.SelectLists
import TableAccess.Proofs.Access.SharedColumns
import TableAccess.Proofs.Access.SortedOperations
import TableAccess.Proofs.Access.Spelling
import TableAccess.Proofs.Access.TableSet
import TableAccess.Proofs.Access.UnrelatedSchema
import TableAccess.Proofs.Access.UpdateTarget
import TableAccess.Proofs.Access.Upserts
import TableAccess.Proofs.Binding.Aliases
import TableAccess.Proofs.Binding.Assembly
import TableAccess.Proofs.Binding.Candidates
import TableAccess.Proofs.Binding.External
import TableAccess.Proofs.Binding.Findings
import TableAccess.Proofs.Binding.Levels
import TableAccess.Proofs.Binding.Likeness
import TableAccess.Proofs.Binding.Lookup
import TableAccess.Proofs.Binding.Mentions
import TableAccess.Proofs.Binding.MoreColumns
import TableAccess.Proofs.Binding.Nesting
import TableAccess.Proofs.Binding.Outputs
import TableAccess.Proofs.Binding.Parts
import TableAccess.Proofs.Binding.Places
import TableAccess.Proofs.Binding.Respelling
import TableAccess.Proofs.Binding.ReusedNames
import TableAccess.Proofs.Binding.Visits
import TableAccess.Proofs.Catalog.Agreement
import TableAccess.Proofs.Catalog.Definitions
import TableAccess.Proofs.Catalog.Listings
import TableAccess.Proofs.Catalog.Merging
import TableAccess.Proofs.Collection
import TableAccess.Proofs.Document.Json
import TableAccess.Proofs.Lineage.BareNames
import TableAccess.Proofs.Lineage.JoinNotes
import TableAccess.Proofs.Lineage.JoinedRecords
import TableAccess.Proofs.Lineage.Matching
import TableAccess.Proofs.Lineage.MethodNames
import TableAccess.Proofs.Lineage.Overloads
import TableAccess.Proofs.Lineage.Reordering
import TableAccess.Proofs.Mapper.Cuts
import TableAccess.Proofs.Mapper.Document
import TableAccess.Proofs.Mapper.Elements
import TableAccess.Proofs.Mapper.Inclusions
import TableAccess.Proofs.Mapper.Marks
import TableAccess.Proofs.Mapper.OpenElements
import TableAccess.Proofs.Repetition
import TableAccess.Proofs.Report.FaultIsolation
import TableAccess.Proofs.Report.Listing
import TableAccess.Proofs.Report.Reproducibility
import TableAccess.Proofs.Report.SortedNotes
import TableAccess.Proofs.Report.StatedPlaces
import TableAccess.Proofs.Report.StatementIds
import TableAccess.Proofs.Report.UsageCounts
import TableAccess.Proofs.Settings.Layers
import TableAccess.Proofs.Sorting
import TableAccess.Proofs.Sql.Identifiers
import TableAccess.Proofs.Sql.Lexing
import TableAccess.Proofs.Sql.LoneWords
import TableAccess.Proofs.Sql.NameTokens
import TableAccess.Proofs.Sql.NamedChanges
import TableAccess.Proofs.Sql.NestedQueries
import TableAccess.Proofs.Sql.Occurrences
import TableAccess.Proofs.Sql.ReadClauses
import TableAccess.Proofs.Sql.Reading
import TableAccess.Proofs.Sql.Respacing
import TableAccess.Proofs.Sql.Rule
import TableAccess.Proofs.Sql.SetChains
import TableAccess.Proofs.Sql.Sites
import TableAccess.Proofs.Sql.SortedAliases
import TableAccess.Proofs.Sql.StatementClauses
import TableAccess.Proofs.Sql.Subscripts
import TableAccess.Proofs.Sql.Tokens
import TableAccess.Proofs.Template.Choices
import TableAccess.Proofs.Template.ClauseRounds
import TableAccess.Proofs.Template.Clauses
import TableAccess.Proofs.Template.Connectives
import TableAccess.Proofs.Template.Entities
import TableAccess.Proofs.Template.Passage
import TableAccess.Proofs.Template.Placeholders
import TableAccess.Proofs.Template.Rendering
import TableAccess.Proofs.Template.Scanning
import TableAccess.Proofs.Template.Sections
import TableAccess.Proofs.Template.Signs
import TableAccess.Proofs.Template.Tree
import TableAccess.Proofs.Template.Unmarked
import TableAccess.Proofs.Text.Blank
import TableAccess.Report.Assembly
import TableAccess.Report.Content
import TableAccess.Report.Layout
import TableAccess.Resolution
import TableAccess.Scope
import TableAccess.Settings
import TableAccess.Sorted
import TableAccess.Sql.Dialect
import TableAccess.Sql.Grammar.Call
import TableAccess.Sql.Grammar.Change
import TableAccess.Sql.Grammar.Core
import TableAccess.Sql.Grammar.DataType
import TableAccess.Sql.Grammar.Definition
import TableAccess.Sql.Grammar.Expression
import TableAccess.Sql.Grammar.Literal
import TableAccess.Sql.Grammar.Name
import TableAccess.Sql.Grammar.Query
import TableAccess.Sql.Grammar.Relation
import TableAccess.Sql.Grammar.Statement
import TableAccess.Sql.Lexer
import TableAccess.Sql.Outline
import TableAccess.Sql.Reader
import TableAccess.Sql.Render
import TableAccess.Sql.Syntax
import TableAccess.Sql.Token
import TableAccess.StatementId
import TableAccess.Template
import TableAccess.Template.Clause
import TableAccess.Template.Markup
import TableAccess.Text.CharClass
import TableAccess.Text.Search
import TableAccess.Text.Segment
import TableAccess.Usage
