import ExtractionContract.Event
import ExtractionContract.Graph.Basic

/-!
# Example trees

An example tree shows what extracted data will look like: for each root its type, and for each
root of type array one item with the types of its direct children. Deeper fields are not
shown. Keys that occur again keep their first place and take their last value.

* `FieldGraph.exampleTree`: the example tree of a graph.
* `ExampleTree.toJson`: the tree as an object.
-/

namespace ExtractionContract

/-- What an example tree shows for a key. -/
inductive ExampleEntry where
  /-- A value of the named type. -/
  | scalar (type : String)
  /-- A list whose items have the given keys and types. A list without any is shown empty. -/
  | items (shape : List (String × String))
deriving DecidableEq

/-- For each key of the data what stands there. -/
abbrev ExampleTree := List (String × ExampleEntry)

namespace ExampleEntry

/-- The keys and types of an item with the given fields. -/
def ofChildren (children : List Field) : ExampleEntry :=
  .items (Members.collapse (children.map fun f =>
    (f.outputKey, f.type.exampleTypeFor f.required)))

/-- An entry as a value. -/
def toJson : ExampleEntry → Json
  | scalar type => .str type
  | items [] => .arr []
  | items shape => .arr [.obj (shape.map fun m => (m.1, .str m.2))]

end ExampleEntry

/-- A tree as an object. -/
def ExampleTree.toJson (tree : ExampleTree) : Json :=
  .obj (tree.map fun m => (m.1, m.2.toJson))

namespace FieldGraph

variable (g : FieldGraph)

/-- What an example tree shows for a root, given the index of children. -/
def exampleEntry (index : List (String × List Nat)) (root : Field) : ExampleEntry :=
  if root.type.isArray then ExampleEntry.ofChildren (g.indexedChildren index root.id)
  else .scalar (root.type.exampleTypeFor root.required)

/-- The example tree of a graph. -/
def exampleTree : ExampleTree :=
  let index := g.childrenIndex
  Members.collapse (g.roots.map fun r => (r.key, g.exampleEntry index r))

/-- The example tree of a graph, with a report. -/
def exampleTreeLogged : Logged ExampleTree :=
  ⟨g.exampleTree, [.treeBuilt g.exampleTree.length]⟩

end FieldGraph

end ExtractionContract
