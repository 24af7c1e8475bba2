import ExtractionContract.Session.Basic

/-!
# Queries of a session's graph

The commands that look at the graph and change nothing. None of them fails; one that asks for
a field that does not exist answers with nothing.

* `Query`: the commands.
* `Session.query`: answers one.
-/

namespace ExtractionContract

/-- A command that looks at the graph. -/
inductive Query where
  | get (id : String)
  | exampleTree
  | schema
  /-- Both descriptions of the data, in display order. -/
  | regenerate
  | displayAll
  | displayOf (id : String)
  | depth (id : String)

namespace FieldGraph

/-- For every field with children, in order, the description of an item that has them. -/
def itemSchemas (g : FieldGraph) : List (String × ItemSchema) :=
  (g.fields.filter fun f => !(g.childrenOf f.id).isEmpty).map fun f => (f.id, g.itemSchema f)

end FieldGraph

namespace Session

variable (s : Session)

/-- What a query of one field answers, `nothing` when the field does not exist. -/
def ofField (id : String) (answer : Field → Logged Reply) : Logged Reply :=
  match s.graph.get? id with
  | some f => answer f
  | none => pure .nothing

/-- Answers a query. -/
def query : Query → Logged Reply
  | .get id => s.ofField id fun f => pure (.field f)
  | .exampleTree => do
    let t ← s.graph.exampleTreeLogged
    return .tree t
  | .schema => do
    let d ← s.graph.schemaDocumentLogged
    return .schema d s.graph.itemSchemas
  | .regenerate => do
    let (t, d) ← s.graph.descriptionsLogged
    return .contract t d
  | .displayAll => do
    let ds ← s.graph.displayAllLogged s.compiler.config.indentUnit
    return .displays ds
  | .displayOf id => s.ofField id fun f => do
    let d ← s.graph.displayLogged s.compiler.config.indentUnit f
    return .display d
  | .depth id => s.ofField id fun f => do
    let n ← s.graph.depthLogged f
    return .number n

end Session

end ExtractionContract
