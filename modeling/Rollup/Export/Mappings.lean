import Rollup.Column.Layouts
import Rollup.Export.Order
import Rollup.Layout
import Rollup.Literal
import Rollup.MappingList

/-!
# Exporting mappings

One row for each source mapping: nodes in the order of a hierarchy export, the mappings of a node
by index. Placeholders are left out.
-/

namespace Rollup.Export

/-- The cells of a mapping in the order of the mapping layout. -/
def mappingRecord (n : Node) (m : SourceMapping) : List String :=
  [n.hierarchyId, toString m.index, m.database, m.schema, m.table, m.column,
   m.columnType.getD "", m.filterValue.getD "", m.precedenceGroup.getD "",
   Literal.boolText m.flags.included, Literal.boolText m.flags.excluded,
   Literal.boolText m.flags.transformed, Literal.boolText m.flags.active]

/-- The text of a mapping file with the mappings of the given nodes. -/
def mappings (nodes : List Node) : String :=
  let f := Forest.ofNodes nodes
  let written := (f.exportOrder.filterMap fun i => f.nodes[i]?).filter fun n => !n.isPlaceholder
  Layout.write ⟨Column.mapping⟩
    (written.flatMap fun n => (MappingList.sort n.mappings).map (mappingRecord n))

end Rollup.Export
