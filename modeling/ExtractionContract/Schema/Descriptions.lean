import ExtractionContract.Example.Tree
import ExtractionContract.Graph.Depth
import ExtractionContract.Schema.Document

/-!
# Both descriptions of a graph's data

The example tree and the schema document belong together: both are made from the graph in
display order, so that they show the same roots in the same order.
-/

namespace ExtractionContract

namespace FieldGraph

variable (g : FieldGraph)

/-- Both descriptions of a graph's data, made from the graph in display order, with a report. -/
def descriptionsLogged : Logged (ExampleTree × SchemaDocument) := do
  let sorted ← g.sortedLogged
  Logged.note (.contractRegenerated sorted.size)
  let tree ← sorted.exampleTreeLogged
  let document ← sorted.schemaDocumentLogged
  return (tree, document)

end FieldGraph

end ExtractionContract
