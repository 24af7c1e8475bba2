import ExtractionContract.Proofs.Graph.Cycles
import ExtractionContract.Proofs.Graph.DisplayOrder
import ExtractionContract.Proofs.Graph.Links
import ExtractionContract.Schema.Descriptions

/-!
# Display order as a canonical form

One of the places that display order goes by, the depth, is found by walking through the graph that
is being put in order, with a bound that is the number of its fields. Where identifiers are distinct
neither a look-up nor the number of fields tells in which order the fields are stored, so no depth
does, on a chain that dangles or goes round in a circle as little as on any other
(`depth_of_perm`). The places of fields are therefore the same before and after sorting, and the
laws of stable sorting apply.

`sorted_canonical` is the whole of it: display order only moves the fields, by their places, keeps
the order of those at one place, and changes nothing the second time. Where no two fields stand at
one place, it is the same for every order of storage, and so are the descriptions made from it.
-/

namespace ExtractionContract

namespace FieldGraph

variable {g g' : FieldGraph}

/-! ### Depth and the order of storage -/

/-- **A look-up does not depend on the order of storage.** -/
theorem get?_of_perm (hids : g.ids.Nodup) (hperm : g'.fields.Perm g.fields) :
    g'.get? = g.get? := by
  have hids' : g'.ids.Nodup := (hperm.map Field.id).nodup_iff.mpr hids
  funext id
  refine Option.ext fun f => ?_
  rw [get?_eq_some_iff hids', get?_eq_some_iff hids, hperm.mem_iff]

/-- **A walk up does not depend on the order of storage**, nor does its bound. -/
theorem climbFrom_of_perm (hids : g.ids.Nodup) (hperm : g'.fields.Perm g.fields) (f : Field) :
    g'.climbFrom f = g.climbFrom f := by
  have hsize : g'.size = g.size := hperm.length_eq
  rw [climbFrom, climbFrom, get?_of_perm hids hperm, hsize]

/-- **Depth does not depend on the order of storage.** -/
theorem depth_of_perm (hids : g.ids.Nodup) (hperm : g'.fields.Perm g.fields) (f : Field) :
    g'.depth f = g.depth f :=
  congrArg Climb.hops (climbFrom_of_perm hids hperm f)

/-- So graphs of the same fields compare these alike. -/
theorem showsBefore_of_perm (hids : g.ids.Nodup) (hperm : g'.fields.Perm g.fields) :
    g'.showsBefore = g.showsBefore := by
  funext f f'
  rw [showsBefore, depth_of_perm hids hperm, depth_of_perm hids hperm]
  rfl

/-! ### Sorting again, and sorting another order of storage -/

/-- **Sorting again changes nothing.** -/
theorem sorted_sorted (hids : g.ids.Nodup) : g.sorted.sorted = g.sorted := by
  have hfields : g.sorted.sorted.fields = g.sorted.fields := by
    -- The sorted graph compares its fields as the graph does, and they are in order already.
    rw [fields_sorted, showsBefore_of_perm hids g.perm_sorted, fields_sorted]
    exact List.mergeSort_of_pairwise
      (List.pairwise_mergeSort g.showsBefore_sortsBy.trans g.showsBefore_sortsBy.total g.fields)
  exact congrArg FieldGraph.mk hfields

/-- **Graphs of the same fields have the same display order** where no two fields stand at one
place. -/
theorem sorted_of_perm (hids : g.ids.Nodup) (hperm : g'.fields.Perm g.fields)
    (hplaces : (g.fields.map g.displayPlaceOf).Nodup) : g'.sorted = g.sorted := by
  have hfields : g'.sorted.fields = g.sorted.fields := by
    rw [fields_sorted, fields_sorted, showsBefore_of_perm hids hperm]
    exact (g.showsBefore_sortsBy.mergeSort_eq_of_perm hperm.symm hplaces).symm
  exact congrArg FieldGraph.mk hfields

/-- Descriptions are made from the display order, and from nothing else of a graph. -/
theorem value_descriptionsLogged (g : FieldGraph) :
    g.descriptionsLogged.value = (g.sorted.exampleTree, g.sorted.schemaDocument) :=
  rfl

/-- **Display order is a canonical form** of a graph whose identifiers are distinct. It has the same
fields. They have the depths that they had, and stand in the order of their orders, then their
depths, then their keys; those that have all three in common stand as they stood. In display order a
graph stays as it is when it is sorted. And where no two fields have all three in common, every
graph of the same fields has the same display order, hence the same example tree, member by member,
and the same schema document. -/
theorem sorted_canonical (hids : g.ids.Nodup) :
    g.sorted.fields.Perm g.fields ∧
      (∀ f, g.sorted.depth f = g.depth f) ∧
      (g.sorted.fields.Pairwise fun f f' => g.displayPlaceOf f ≤ g.displayPlaceOf f') ∧
      (∀ place, g.sorted.fields.filter (g.displayPlaceOf · = place) =
        g.fields.filter (g.displayPlaceOf · = place)) ∧
      g.sorted.sorted = g.sorted ∧
      ∀ g' : FieldGraph, g'.fields.Perm g.fields → (g.fields.map g.displayPlaceOf).Nodup →
        g'.sorted = g.sorted ∧ g'.descriptionsLogged.value = g.descriptionsLogged.value := by
  have hsorts := g.showsBefore_sortsBy
  refine ⟨g.perm_sorted, depth_of_perm hids g.perm_sorted, ?_, ?_, sorted_sorted hids, ?_⟩
  · rw [fields_sorted]
    exact (List.pairwise_mergeSort hsorts.trans hsorts.total g.fields).imp (hsorts _ _).mp
  · intro place
    rw [fields_sorted]
    exact hsorts.filter_place_mergeSort g.fields place
  · intro g' hperm hplaces
    have hsorted : g'.sorted = g.sorted := sorted_of_perm hids hperm hplaces
    rw [value_descriptionsLogged, value_descriptionsLogged, hsorted]
    exact ⟨rfl, rfl⟩

/-- Two fields that go round in a circle, the one with the earlier key stored last, a field whose
parent does not exist, and a root with the key of that one. -/
theorem sorted_canonical_of_ring :
    let g : FieldGraph := ⟨[
      { id := "1", key := "line", order := 1, parent := some "2" },
      { id := "3", key := "total", order := 1, parent := some "0" },
      { id := "4", key := "total", type := .array },
      { id := "2", key := "items", order := 1, parent := some "1" }]⟩
    let g' : FieldGraph := ⟨g.fields.reverse⟩
    g.ids.Nodup ∧ g.fields.map g.depth = [4, 0, 0, 4] ∧
      g.sorted.ids = ["4", "3", "2", "1"] ∧ g.sorted.sorted = g.sorted ∧
      g'.sorted = g.sorted ∧ g'.descriptionsLogged.value = g.descriptionsLogged.value := by
  intro g g'
  have hids : g.ids.Nodup := by decide
  have hplaces : (g.fields.map g.displayPlaceOf).Nodup := by decide
  obtain ⟨-, -, -, -, hagain, hother⟩ := sorted_canonical hids
  obtain ⟨hsorted, hdescriptions⟩ := hother g' (List.reverse_perm _) hplaces
  -- The four fields in the order of their places.
  have hshown : g.sorted.fields = [g.fields[2], g.fields[1], g.fields[3], g.fields[0]] :=
    fields_sorted_eq (by decide) hplaces (by decide)
  have hids' : g.sorted.ids = ["4", "3", "2", "1"] := congrArg (List.map Field.id) hshown
  exact ⟨hids, by decide, hids', hagain, hsorted, hdescriptions⟩

end FieldGraph

end ExtractionContract
