import ExtractionContract.Graph.Display
import ExtractionContract.Proofs.Graph.CanonicalOrder
import ExtractionContract.Proofs.Json.Members

/-!
# Levels of a display

A field is shown at its depth, or where no parent is above it at the level that the dots in its key
suggest. The display of all fields goes by a table of identifiers; where these are distinct, it
finds what a look-up finds, and shows every field as it is shown alone
(`displayAll_eq_map_displayOf`). Neither way tells then in which order the fields are stored, on a
chain that dangles or goes round in a circle as little as on any other (`displayAll_of_perm`).

Without its links a graph is shown by dots only (`displayAll_unlinked`). So taking the links away
changes nothing where every field has as many parents above it as dots in its key
(`displayAll_unlinked_of_dots`).
-/

namespace ExtractionContract

/-- The dots in the key of a field. -/
def Field.dots (f : Field) : Nat :=
  f.key.toList.count '.'

/-- **With no parent above it a field is shown as with one for each dot.** -/
theorem Display.of_zero (f : Field) (unit : UInt32) : of f 0 unit = of f f.dots unit := by
  change of f 0 unit = of f (f.key.toList.count '.') unit
  unfold of
  rcases Nat.eq_zero_or_pos (f.key.toList.count '.') with h | h
  · -- Without a dot there is nothing to fall back on.
    rw [h]
  · have hne : (f.key.toList.count '.' == 0) = false := beq_false_of_ne (Nat.ne_of_gt h)
    simp [h, hne]

theorem climb_none (find : String → Option Field) (steps : Nat) :
    climb find steps none = ⟨0, false⟩ := by
  cases steps <;> rfl

namespace FieldGraph

/-! ### The table of identifiers -/

theorem lookup_map_id (id : String) (fs : List Field) :
    (fs.map fun f => (f.id, f)).lookup id = fs.find? fun f => f.id == id := by
  induction fs with
  | nil => rfl
  | cons f rest ih => rw [List.map_cons, List.lookup_cons, List.find?_cons, ih, BEq.comm]

variable {g : FieldGraph}

/-- **The table finds what a look-up finds**, where identifiers are distinct. -/
theorem lookup_idTable (hids : g.ids.Nodup) (id : String) : g.idTable.lookup id = g.get? id := by
  rw [idTable, Members.collapse_map_eq_self hids]
  exact lookup_map_id id g.fields

/-- A walk by the table is the walk by look-ups. -/
theorem tableClimb_idTable (hids : g.ids.Nodup) (f : Field) :
    g.tableClimb g.idTable f = g.climbFrom f := by
  have htable : (fun id => g.idTable.lookup id) = g.get? := funext (lookup_idTable hids)
  rw [tableClimb, htable, climbFrom]

/-- **All fields are shown as each is shown alone**, where identifiers are distinct. -/
theorem displayAll_eq_map_displayOf (hids : g.ids.Nodup) (unit : UInt32) :
    g.displayAll unit = g.fields.map (g.displayOf unit) := by
  refine List.map_congr_left fun f _ => ?_
  rw [tableClimb_idTable hids, displayOf]

/-! ### The order of storage -/

/-- **A field is shown alike, and reported alike,** in every order of storage. -/
theorem displayLogged_of_perm {g' : FieldGraph} (hids : g.ids.Nodup)
    (hperm : g'.fields.Perm g.fields) (unit : UInt32) (f : Field) :
    g'.displayLogged unit f = g.displayLogged unit f := by
  have hsize : g'.size = g.size := hperm.length_eq
  rw [displayLogged, displayLogged, displayOf, displayOf, climbFrom_of_perm hids hperm,
    climbEvents, climbEvents, hsize]

/-- **One display of all fields, whatever the order of storage.** Where identifiers are distinct,
all fields are shown, in the order of the graph, each as it is shown alone, and the same chains are
reported. In every other order of storage each field is shown, and reported, as it is in this one:
alone, and in its new place among all. -/
theorem displayAll_of_perm (hids : g.ids.Nodup) (unit : UInt32) :
    (g.displayAll unit = g.fields.map (g.displayOf unit) ∧
        (g.displayAllLogged unit).events =
          g.fields.flatMap fun f => (g.displayLogged unit f).events) ∧
      ∀ g' : FieldGraph, g'.fields.Perm g.fields →
        (∀ f, g'.displayLogged unit f = g.displayLogged unit f) ∧
          ∀ (i j : Nat) (f : Field), g'.fields[i]? = some f → g.fields[j]? = some f →
            (g'.displayAll unit)[i]? = (g.displayAll unit)[j]? := by
  refine ⟨⟨displayAll_eq_map_displayOf hids unit, ?_⟩, ?_⟩
  · refine List.flatMap_congr fun f _ => ?_
    rw [tableClimb_idTable hids, displayLogged]
  · intro g' hperm
    have hids' : g'.ids.Nodup := (hperm.map Field.id).nodup_iff.mpr hids
    have halone := displayLogged_of_perm hids hperm unit
    refine ⟨halone, fun i j f hi hj => ?_⟩
    -- In both places stands what is shown of the field alone.
    rw [displayAll_eq_map_displayOf hids', displayAll_eq_map_displayOf hids, List.getElem?_map,
      List.getElem?_map, hi, hj]
    exact congrArg some (congrArg Logged.value (halone f))

/-- Two fields in a circle with one that hangs from it, a field whose parent does not exist, and a
key with dots. -/
theorem displayAll_of_perm_backwards :
    let g : FieldGraph := ⟨[
      { id := "1", key := "line", parent := some "2" },
      { id := "2", key := "items", parent := some "1" },
      { id := "3", key := "sku", parent := some "1" },
      { id := "4", key := "order.total.net", parent := some "0" }]⟩
    let g' : FieldGraph := ⟨g.fields.reverse⟩
    g.ids.Nodup ∧
      g.displayAll 7 = [⟨4, 28, true⟩, ⟨4, 28, true⟩, ⟨4, 28, true⟩, ⟨2, 14, true⟩] ∧
      g.fields.map (g.displayOf 7) = g.displayAll 7 ∧
      g'.displayAll 7 = (g.displayAll 7).reverse ∧
      (g'.displayAll 7)[0]? = (g.displayAll 7)[3]? := by
  intro g g'
  have hids : g.ids.Nodup := by decide
  obtain ⟨⟨hall, -⟩, hother⟩ := displayAll_of_perm hids 7
  obtain ⟨-, hplaces⟩ := hother g' (List.reverse_perm _)
  exact ⟨hids, by decide, hall.symm, by decide, hplaces 0 3 g.fields[3] rfl rfl⟩

/-! ### Without links -/

/-- The graph with every field a root. -/
def unlinked (g : FieldGraph) : FieldGraph :=
  ⟨g.fields.map fun f => { f with parent := none }⟩

/-- **Without links a graph is shown by dots.** -/
theorem displayAll_unlinked (g : FieldGraph) (unit : UInt32) :
    g.unlinked.displayAll unit = g.fields.map fun f => Display.of f f.dots unit := by
  rw [displayAll, unlinked, List.map_map]
  refine List.map_congr_left fun f _ => ?_
  rw [Function.comp_apply, tableClimb, climb_none, ← Display.of_zero]
  rfl

/-- **Links may be taken away from a graph whose keys tell the levels.** -/
theorem displayAll_unlinked_of_dots (hids : g.ids.Nodup)
    (hdots : ∀ f ∈ g.fields, g.depth f = f.dots) (unit : UInt32) :
    g.unlinked.displayAll unit = g.displayAll unit := by
  rw [displayAll_unlinked, displayAll_eq_map_displayOf hids]
  refine List.map_congr_left fun f hf => ?_
  rw [displayOf, ← hdots f hf, depth]

end FieldGraph

end ExtractionContract
