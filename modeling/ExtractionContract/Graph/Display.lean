import ExtractionContract.Graph.Depth

/-!
# Display of a graph as an indented table

A field is shown at its depth. A field that has no parent above it but has dots in its key is
shown at the depth that the dots suggest. How far it is indented is a number of thirty-two bits,
and wraps around where these do not hold it, as a product does that is not checked for overflow.

* `FieldGraph.displayOf`: how one field is shown, by looking up parents one by one.
* `FieldGraph.displayAll`: how all fields are shown, by one table of identifiers, in which of
  several fields with one identifier the last one stands.
-/

namespace ExtractionContract

/-- How a field is shown. -/
structure Display where
  level : Nat
  indent : Nat
  nested : Bool
deriving DecidableEq

namespace Display

/-- The indentation of one level, when nothing else is asked for. -/
def defaultUnit : UInt32 := 20

/-- How a field with a number of parents above it is shown. -/
def of (f : Field) (hops : Nat) (unit : UInt32) : Display :=
  let dots := f.key.toList.count '.'
  let level := if hops == 0 && 0 < dots then dots else hops
  { level, indent := (.ofNat level * unit : UInt32).toNat, nested := 0 < dots || 0 < level }

variable (f : Field) (hops : Nat) (unit : UInt32)

theorem indent_of :
    (of f hops unit).indent = (of f hops unit).level * unit.toNat % UInt32.size := by
  change (UInt32.ofNat (of f hops unit).level * unit).toNat = _
  rw [UInt32.toNat_mul, UInt32.toNat_ofNat', Nat.mod_mul_mod]

-- Two levels of the widest indentation do not fit.
example : (of { id := "1", key := "order.total.net" } 0 4294967295).indent = 4294967294 := by
  decide

/-- Where thirty-two bits hold it, the indentation is that of the level. -/
theorem indent_of_lt (h : (of f hops unit).level * unit.toNat < UInt32.size) :
    (of f hops unit).indent = (of f hops unit).level * unit.toNat := by
  rw [indent_of, Nat.mod_eq_of_lt h]

end Display

namespace FieldGraph

variable (g : FieldGraph)

/-- How a field is shown. -/
def displayOf (unit : UInt32) (f : Field) : Display :=
  Display.of f (g.climbFrom f).hops unit

/-- How a field is shown, with a report when its chain of parents does not end. -/
def displayLogged (unit : UInt32) (f : Field) : Logged Display :=
  ⟨g.displayOf unit f, g.climbEvents f (g.climbFrom f)⟩

/-- The fields by identifier, the last one of several with the same. -/
def idTable : List (String × Field) :=
  Members.collapse (g.fields.map fun f => (f.id, f))

/-- The walk up from a field, by a table of identifiers. -/
def tableClimb (table : List (String × Field)) (f : Field) : Climb :=
  climb (fun id => table.lookup id) g.size f.parent

/-- How all fields are shown, in order. -/
def displayAll (unit : UInt32) : List Display :=
  let table := g.idTable
  g.fields.map fun f => Display.of f (g.tableClimb table f).hops unit

/-- How all fields are shown, with a report of each chain that does not end. -/
def displayAllLogged (unit : UInt32) : Logged (List Display) :=
  let table := g.idTable
  ⟨g.displayAll unit, g.fields.flatMap fun f => g.climbEvents f (g.tableClimb table f)⟩

end FieldGraph

end ExtractionContract
