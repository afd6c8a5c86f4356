import LocaleAudit.Catalog
import LocaleAudit.CommandLine.Arguments
import LocaleAudit.CommandLine.Commands
import LocaleAudit.CommandLine.Fault
import LocaleAudit.CommandLine.Flags
import LocaleAudit.CommandLine.Help
import LocaleAudit.CommandLine.Settings
import LocaleAudit.Config
import LocaleAudit.Difference
import LocaleAudit.Entries
import LocaleAudit.Error
import LocaleAudit.ExportTable
import LocaleAudit.Files
import LocaleAudit.Finding
import LocaleAudit.Interpolation
import LocaleAudit.Json.Binary64
import LocaleAudit.Json.Printer
import LocaleAudit.Json.Reader
import LocaleAudit.Json.Value
import LocaleAudit.KeyPath
import LocaleAudit.KeyPath.Traversal
import LocaleAudit.LanguageTag
import LocaleAudit.Main
import LocaleAudit.Marker
import LocaleAudit.Markup
import LocaleAudit.Path
import LocaleAudit.Project
import LocaleAudit.Proofs.Catalog.Documents
import LocaleAudit.Proofs.Difference
import LocaleAudit.Proofs.Entries
import LocaleAudit.Proofs.Json.DistinctKeys
import LocaleAudit.Proofs.Json.Equality
import LocaleAudit.Proofs.KeyPath.Leaves
import LocaleAudit.Proofs.KeyPath.Rebuilding
import LocaleAudit.Proofs.KeyPath.Segments
import LocaleAudit.Proofs.KeyPath.Setting
import LocaleAudit.Proofs.KeyPath.Unflattening
import LocaleAudit.Proofs.Marker
import LocaleAudit.Proofs.Project.Findings
import LocaleAudit.Proofs.Project.Gate
import LocaleAudit.Proofs.Project.Isolation
import LocaleAudit.Proofs.Project.KeyFindings
import LocaleAudit.Proofs.Project.Loading
import LocaleAudit.Proofs.Reconciliation.Fixpoint
import LocaleAudit.Proofs.Reconciliation.Placeholders
import LocaleAudit.Proofs.Reconciliation.Preservation
import LocaleAudit.Proofs.Reconciliation.Run
import LocaleAudit.Proofs.Report.Deduplication
import LocaleAudit.Proofs.Report.Projection
import LocaleAudit.Proofs.Text.Scanning
import LocaleAudit.Proofs.Text.UpperCase
import LocaleAudit.Proofs.Validation
import LocaleAudit.Reconciliation
import LocaleAudit.Reference
import LocaleAudit.Report.Human
import LocaleAudit.Report.Machine
import LocaleAudit.Report.Register
import LocaleAudit.Report.Sync
import LocaleAudit.Source.Extractor
import LocaleAudit.Source.Glob
import LocaleAudit.Source.Grammar
import LocaleAudit.Source.IgnoreRules
import LocaleAudit.Source.Literals
import LocaleAudit.Source.Scanning
import LocaleAudit.Source.Walk
import LocaleAudit.Store
import LocaleAudit.Text.Blank
import LocaleAudit.Text.CodeRanges
import LocaleAudit.Text.Consumed
import LocaleAudit.Text.Decoding
import LocaleAudit.Text.Delimited
import LocaleAudit.Text.DisplayWidth
import LocaleAudit.Text.Letters
import LocaleAudit.Text.Lines
import LocaleAudit.Text.Scan
import LocaleAudit.Text.Search
import LocaleAudit.Text.UpperCase
import LocaleAudit.Text.WordChars
import LocaleAudit.Toml
import LocaleAudit.Validation
import LocaleAudit.Proofs.Json.Numerals
import LocaleAudit.Proofs.Catalog.Rendering
import LocaleAudit.Proofs.Files.Documents
import LocaleAudit.Proofs.LanguageTag
import LocaleAudit.Proofs.Reconciliation.Rereading
import LocaleAudit.Proofs.Store.Listing
import LocaleAudit.Proofs.Store.Reading
import LocaleAudit.Proofs.Sync.Documents
import LocaleAudit.Proofs.Sync.DryRun
import LocaleAudit.Proofs.Sync.Settled
import LocaleAudit.Proofs.Sync.WriteSet
import LocaleAudit.Proofs.KeyPath.InPlace
import LocaleAudit.Proofs.KeyPath.Lens
import LocaleAudit.Proofs.Files.Growth
import LocaleAudit.Proofs.Sync.Growth
import LocaleAudit.Proofs.CommandLine.Check
import LocaleAudit.Proofs.Sync.Completeness
import LocaleAudit.Proofs.KeyPath.Subtrees
import LocaleAudit.Proofs.Catalog.Addressing
import LocaleAudit.Proofs.Report.Register
import LocaleAudit.Report.Transcript
import LocaleAudit.Proofs.FirstOccurrences
import LocaleAudit.Proofs.Text.Classes
import LocaleAudit.Proofs.Text.Matches
import LocaleAudit.Proofs.Markup.Tags
import LocaleAudit.Proofs.Markup.Nesting
import LocaleAudit.Proofs.Interpolation.Templates
import LocaleAudit.Proofs.Report.Grouping
import LocaleAudit.Proofs.Report.Transcript
import LocaleAudit.Proofs.Report.Accounting
import LocaleAudit.Proofs.Config
import LocaleAudit.Proofs.SortedSet
import LocaleAudit.Proofs.Reference
import LocaleAudit.Proofs.Source.Calls
import LocaleAudit.Proofs.Source.Scanning
import LocaleAudit.Proofs.Validation.LeafByLeaf
import LocaleAudit.Proofs.Text.Delimited
import LocaleAudit.Proofs.ExportTable.Cells
import LocaleAudit.Proofs.ExportTable.Writing
import LocaleAudit.Proofs.Store.Namespaces
import LocaleAudit.Proofs.CommandLine.Settings
import LocaleAudit.Proofs.Project.Contiguity
import LocaleAudit.Proofs.Report.Truncation
import LocaleAudit.Proofs.Project.Languages
import LocaleAudit.Proofs.Source.Helpers
import LocaleAudit.Proofs.Marker.Templates
import LocaleAudit.Proofs.Source.Literals
import LocaleAudit.Proofs.Source.Walk
import LocaleAudit.Proofs.Source.ExcludedDirectories
import LocaleAudit.Proofs.Files.Agreement
import LocaleAudit.Proofs.Text.Search
