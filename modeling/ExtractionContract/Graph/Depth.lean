import ExtractionContract.Event
import ExtractionContract.Graph.Basic

/-!
# Depth and display order

The depth of a field is the number of parents above it. The walk up ends at a root and at a
parent that does not exist. It is cut off after as many steps as the graph has fields: a walk
that would go on runs in a circle.

* `climb`: the walk, with the number of its steps and whether it was cut off.
* `FieldGraph.depth`: the depth of a field.
* `FieldGraph.sorted`: the fields by their order, then by depth, then by key. Fields equal in
  all three keep their places.
-/

namespace ExtractionContract

/-- A walk up a chain of parents. -/
structure Climb where
  hops : Nat
  /-- Whether the walk was cut off. -/
  endless : Bool
deriving DecidableEq

/-- Walks up from a reference for at most a number of steps. -/
def climb (find : String → Option Field) : Nat → Option String → Climb
  | _, none => ⟨0, false⟩
  -- The bound is reached with a reference left, whether or not it leads anywhere.
  | 0, some _ => ⟨0, true⟩
  | steps + 1, some id =>
    match find id with
    | none => ⟨0, false⟩
    | some f =>
      let above := climb find steps f.parent
      ⟨above.hops + 1, above.endless⟩

namespace FieldGraph

variable (g : FieldGraph)

/-- The walk up from a field. -/
def climbFrom (f : Field) : Climb :=
  climb g.get? g.size f.parent

/-- The number of parents above a field. -/
def depth (f : Field) : Nat :=
  (g.climbFrom f).hops

/-- What is reported of a walk up from a field. -/
def climbEvents (f : Field) (c : Climb) : List Event :=
  if c.endless then [.endlessChain f.key g.size] else []

/-- The number of parents above a field, with a report when the chain does not end. -/
def depthLogged (f : Field) : Logged Nat :=
  let c := g.climbFrom f
  ⟨c.hops, g.climbEvents f c⟩

/-! ### Display order -/

/-- Whether a field with a depth may stand before another. -/
def displayLe (a b : Nat × Field) : Bool :=
  a.2.order < b.2.order ||
    (a.2.order == b.2.order &&
      (a.1 < b.1 || (a.1 == b.1 && a.2.key ≤ b.2.key)))

/-- The fields with their depths. -/
def withDepths : List (Nat × Field) :=
  g.fields.map fun f => (g.depth f, f)

/-- The graph with its fields in display order. -/
def sorted : FieldGraph :=
  ⟨(g.withDepths.mergeSort displayLe).map Prod.snd⟩

/-- The graph with its fields in display order, with a report of each chain that does not
end. -/
def sortedLogged : Logged FieldGraph :=
  ⟨g.sorted, g.fields.flatMap fun f => (g.depthLogged f).events⟩

end FieldGraph

end ExtractionContract
