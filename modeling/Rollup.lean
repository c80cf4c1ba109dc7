import Rollup.Batch
import Rollup.Buckets
import Rollup.Check.Cycles
import Rollup.Check.Formulas
import Rollup.Check.Mappings
import Rollup.Check.Naming
import Rollup.Check.Siblings
import Rollup.Column.Layouts
import Rollup.Command
import Rollup.Command.Address
import Rollup.Command.Arguments
import Rollup.Command.Database
import Rollup.Command.Run
import Rollup.Conflict
import Rollup.Csv.Marks
import Rollup.Csv.Reader
import Rollup.Csv.Utf8
import Rollup.Csv.Writer
import Rollup.Error
import Rollup.Export.Hierarchy
import Rollup.Export.Keys
import Rollup.Export.Mappings
import Rollup.Export.Order
import Rollup.Files
import Rollup.Finding
import Rollup.Forest
import Rollup.Format
import Rollup.HierarchyRow
import Rollup.HierarchyRow.Cells
import Rollup.HierarchyRow.Read
import Rollup.Import
import Rollup.Import.Assembly
import Rollup.Import.Parents
import Rollup.Import.Persist
import Rollup.Inspection
import Rollup.Layout
import Rollup.LevelPath
import Rollup.Literal
import Rollup.Main
import Rollup.MappingImport
import Rollup.MappingList
import Rollup.Node
import Rollup.Node.Codec
import Rollup.Number.Binary64
import Rollup.Number.Decimal
import Rollup.Number.Kept
import Rollup.Number.Power
import Rollup.Number.Shortest
import Rollup.Operation
import Rollup.Pattern
import Rollup.Pattern.Class
import Rollup.Pattern.Match
import Rollup.Pattern.Read
import Rollup.Pattern.Shape
import Rollup.Pattern.Size
import Rollup.Profile
import Rollup.Proofs.Ancestry
import Rollup.Proofs.Ancestry.Cuts
import Rollup.Proofs.Ancestry.Cycles
import Rollup.Proofs.Buckets
import Rollup.Proofs.Check.Cycles
import Rollup.Proofs.Check.Expressions
import Rollup.Proofs.Check.Mappings
import Rollup.Proofs.Check.Siblings
import Rollup.Proofs.Column
import Rollup.Proofs.Column.Canonical
import Rollup.Proofs.Csv
import Rollup.Proofs.Dict
import Rollup.Proofs.Export.Cells
import Rollup.Proofs.Export.Complete
import Rollup.Proofs.Export.Fixpoint
import Rollup.Proofs.Export.Formulas
import Rollup.Proofs.Export.Groups
import Rollup.Proofs.Export.Kept
import Rollup.Proofs.Export.Keys
import Rollup.Proofs.Export.Labels
import Rollup.Proofs.Export.LeastKeys
import Rollup.Proofs.Export.LevelSorts
import Rollup.Proofs.Export.Mappings
import Rollup.Proofs.Export.Mirror
import Rollup.Proofs.Export.OperandCells
import Rollup.Proofs.Export.Order
import Rollup.Proofs.Export.Plan
import Rollup.Proofs.Export.Preorder
import Rollup.Proofs.Export.Read
import Rollup.Proofs.Export.Recognition
import Rollup.Proofs.Export.Restored
import Rollup.Proofs.Export.RoundTrip
import Rollup.Proofs.Export.RowKeys
import Rollup.Proofs.Export.Sheet
import Rollup.Proofs.Export.Totals
import Rollup.Proofs.Export.Traversal
import Rollup.Proofs.Forest
import Rollup.Proofs.Format
import Rollup.Proofs.HierarchyRow
import Rollup.Proofs.HierarchyRow.Columns
import Rollup.Proofs.HierarchyRow.Flags
import Rollup.Proofs.HierarchyRow.Parents
import Rollup.Proofs.Import.Again
import Rollup.Proofs.Import.Assembly
import Rollup.Proofs.Import.Conflicts
import Rollup.Proofs.Import.Cuts
import Rollup.Proofs.Import.EmptyProject
import Rollup.Proofs.Import.Gaps
import Rollup.Proofs.Import.Invariant
import Rollup.Proofs.Import.Keys
import Rollup.Proofs.Import.Links
import Rollup.Proofs.Import.Lookup
import Rollup.Proofs.Import.NodeTotals
import Rollup.Proofs.Import.Operands
import Rollup.Proofs.Import.Outcome
import Rollup.Proofs.Import.Persist
import Rollup.Proofs.Import.PrefixTree
import Rollup.Proofs.Import.RowNumbers
import Rollup.Proofs.Import.RowOrder
import Rollup.Proofs.Import.Singles
import Rollup.Proofs.Import.Totals
import Rollup.Proofs.Import.Warnings
import Rollup.Proofs.Inspection
import Rollup.Proofs.Inspection.Order
import Rollup.Proofs.Layout
import Rollup.Proofs.LevelPath
import Rollup.Proofs.LevelPath.Runs
import Rollup.Proofs.Literal
import Rollup.Proofs.MappingImport
import Rollup.Proofs.MappingImport.Outcome
import Rollup.Proofs.MappingImport.Rows
import Rollup.Proofs.MappingList
import Rollup.Proofs.MappingList.Slots
import Rollup.Proofs.Number
import Rollup.Proofs.Number.Rounding
import Rollup.Proofs.Number.Shortest
import Rollup.Proofs.Reference
import Rollup.Proofs.Reference.Lookup
import Rollup.Proofs.Resolution
import Rollup.Proofs.RowGroup.Accounting
import Rollup.Proofs.RowGroup.Build
import Rollup.Proofs.RowGroup.Gaps
import Rollup.Proofs.RowGroup.Keyed
import Rollup.Proofs.RowGroup.Labels
import Rollup.Proofs.RowGroup.Legacy
import Rollup.Proofs.RowGroup.Standard
import Rollup.Proofs.RowGroup.Together
import Rollup.Proofs.RowGroup.Total
import Rollup.Proofs.Service.Accounting
import Rollup.Proofs.Service.Effect
import Rollup.Proofs.Service.Frame
import Rollup.Proofs.Service.Identity
import Rollup.Proofs.Service.Leaves
import Rollup.Proofs.Service.LevelPaths
import Rollup.Proofs.Service.Links
import Rollup.Proofs.Service.MappingLists
import Rollup.Proofs.Service.Operands
import Rollup.Proofs.Service.ParentKeys
import Rollup.Proofs.Service.PlaceholderMappings
import Rollup.Proofs.Service.Placeholders
import Rollup.Proofs.Service.Provenance
import Rollup.Proofs.Service.Reachable
import Rollup.Proofs.Service.Reimport
import Rollup.Proofs.Service.Settled
import Rollup.Proofs.Service.Skipped
import Rollup.Proofs.Service.Totals
import Rollup.Proofs.Sort
import Rollup.Proofs.Store.WellFormed
import Rollup.Proofs.Store.Writes
import Rollup.Proofs.Table
import Rollup.Proofs.Text.Fold
import Rollup.Proofs.Text.Parts
import Rollup.Proofs.Text.Segments
import Rollup.Proofs.Text.Slug
import Rollup.Reference
import Rollup.Report
import Rollup.Resolution
import Rollup.RowGroup
import Rollup.RowGroup.Build
import Rollup.RowGroup.Grouping
import Rollup.RowGroup.Legacy
import Rollup.RowGroup.Standard
import Rollup.RowGroup.Total
import Rollup.Service
import Rollup.Settings
import Rollup.Sort
import Rollup.Store
import Rollup.Store.Codec
import Rollup.Summary
import Rollup.Table
import Rollup.Text.Alphabetic
import Rollup.Text.Blank
import Rollup.Text.Case
import Rollup.Text.CaseMap
import Rollup.Text.Cased
import Rollup.Text.CharSet
import Rollup.Text.CodePoints
import Rollup.Text.Letter
import Rollup.Text.Runs
import Rollup.Text.Slug
import Rollup.Text.Utf8
import Rollup.Value
import Rollup.Value.Json
