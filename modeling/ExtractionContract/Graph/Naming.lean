import ExtractionContract.Graph.Basic

/-!
# Names of new fields

An identifier made for a new field says nothing to a reader. The fields that a graph has and
an earlier one had not are therefore given numbered names, in the order of the graph, and the
references to them follow.

* `FieldGraph.gained`: the identifiers that an earlier graph had not.
* `FieldGraph.nameGained`: the graph with these renamed.
-/

namespace ExtractionContract

/-- The name of the new field with a number. -/
def numberedId (n : Nat) : String :=
  s!"new:{n}"

namespace FieldGraph

variable (g : FieldGraph)

/-- The identifiers of fields. -/
def ids : List String :=
  g.fields.map Field.id

/-- The identifiers that an earlier graph had not, in order. -/
def gained (earlier : FieldGraph) : List String :=
  g.ids.filter fun id => !earlier.ids.contains id

/-- The identifiers that an earlier graph had not, each with a name. Numbers continue after
those already given. -/
def gainedNames (earlier : FieldGraph) (given : Nat) : List (String × String) :=
  (g.gained earlier).mapIdx fun i id => (id, numberedId (given + i + 1))

/-- The graph in which the fields that an earlier graph had not have their names. -/
def nameGained (earlier : FieldGraph) (given : Nat) : FieldGraph :=
  g.rename (g.gainedNames earlier given)

end FieldGraph

end ExtractionContract
