import ExtractionContract.Graph.Depth
import ExtractionContract.Graph.Naming
import ExtractionContract.Proofs.Graph.Index
import Mathlib.Data.List.Basic

/-!
# Graphs whose links lead somewhere

A graph is *linked* when its identifiers are pairwise distinct and every parent that a field
names is a field of the graph. The empty graph is linked, and of the operations that only move
or drop fields each keeps a graph so:

* `Linked.of_perm`, `Linked.sorted`: the order of the fields does not matter.
* `Linked.remove`: a removal clears every reference to the field that it removes.
-/

namespace ExtractionContract

namespace FieldGraph

/-- Identifiers are distinct, and every parent named is a field of the graph. -/
structure Linked (g : FieldGraph) : Prop where
  /-- No identifier stands twice. -/
  nodup_ids : g.ids.Nodup
  /-- No link dangles. -/
  parent_mem : ∀ f ∈ g.fields, ∀ id, f.parent = some id → id ∈ g.ids

theorem Linked.empty : Linked ⟨[]⟩ where
  nodup_ids := List.nodup_nil
  parent_mem := fun _ hf => absurd hf List.not_mem_nil

/-! ### Another order of the fields -/

theorem Linked.of_perm {g g' : FieldGraph} (h : g.Linked) (hperm : g'.fields.Perm g.fields) :
    g'.Linked where
  nodup_ids := (hperm.map Field.id).nodup_iff.mpr h.nodup_ids
  parent_mem := fun f hf id hid =>
    (hperm.map Field.id).mem_iff.mpr (h.parent_mem f (hperm.mem_iff.mp hf) id hid)

/-- Display order only moves the fields. -/
theorem perm_sorted (g : FieldGraph) : g.sorted.fields.Perm g.fields := by
  have hfields : g.withDepths.map Prod.snd = g.fields := by
    rw [withDepths, List.map_map]
    exact List.map_id g.fields
  have hsort := (List.mergeSort_perm g.withDepths displayLe).map Prod.snd
  rwa [hfields] at hsort

theorem Linked.sorted {g : FieldGraph} (h : g.Linked) : g.sorted.Linked :=
  h.of_perm g.perm_sorted

/-! ### Removal -/

/-- A field that is left keeps all but a link to the field taken away. -/
theorem detach_eq (id : String) (f : Field) :
    detach id f = { f with parent := f.parent.filter (· ≠ id) } := by
  unfold detach
  split
  · next h =>
    have hparent : f.parent = some id := Field.isChildOf_iff.mp h
    rw [hparent, Option.filter_some_neg (by simp)]
  · next h =>
    have hparent : f.parent.filter (· ≠ id) = f.parent := by
      cases hp : f.parent with
      | none => rfl
      | some p =>
        have hne : p ≠ id := fun e => h (Field.isChildOf_iff.mpr (e ▸ hp))
        exact Option.filter_some_pos (by simpa using hne)
    rw [hparent]

@[simp] theorem id_detach (id : String) (f : Field) : (detach id f).id = f.id := by
  rw [detach_eq]

@[simp] theorem order_detach (id : String) (f : Field) : (detach id f).order = f.order := by
  rw [detach_eq]

theorem parent_detach (id : String) (f : Field) :
    (detach id f).parent = f.parent.filter (· ≠ id) :=
  congrArg Field.parent (detach_eq id f)

/-- A field that is left with a parent had it before, and it is not the one taken away. -/
theorem parent_of_detach {id p : String} {f : Field} (h : (detach id f).parent = some p) :
    f.parent = some p ∧ p ≠ id := by
  rw [parent_detach, Option.filter_eq_some_iff] at h
  exact ⟨h.1, of_decide_eq_true h.2⟩

/-- What a removal does, when it does anything. -/
theorem fields_of_remove {g g' : FieldGraph} {id : String} {f : Field}
    (h : g.remove id = some (f, g')) :
    g'.fields = (g.fields.eraseP fun f => f.id == id).map (detach id) := by
  obtain ⟨f', -, hpair⟩ := Option.map_eq_some_iff.mp h
  rw [← (Prod.mk.inj hpair).2]

/-- It removes one field. -/
theorem size_remove {g g' : FieldGraph} {id : String} {f : Field}
    (hremove : g.remove id = some (f, g')) : g'.size + 1 = g.size := by
  obtain ⟨f', hget, -⟩ := Option.map_eq_some_iff.mp hremove
  have hmem : f' ∈ g.fields := List.mem_of_find?_eq_some hget
  have hid : (f'.id == id) = true := List.find?_some (p := fun f : Field => f.id == id) hget
  have hpos : 0 < g.fields.length := List.length_pos_of_mem hmem
  rw [size, fields_of_remove hremove, List.length_map, List.length_eraseP_of_mem hmem hid]
  exact Nat.sub_add_cancel hpos

theorem ids_of_remove {g g' : FieldGraph} {id : String} {f : Field}
    (hremove : g.remove id = some (f, g')) :
    g'.ids = (g.fields.eraseP fun f => f.id == id).map Field.id := by
  rw [ids, fields_of_remove hremove, List.map_map]
  exact List.map_congr_left fun f _ => id_detach id f

theorem nodup_ids_of_remove {g g' : FieldGraph} {id : String} {f : Field} (hids : g.ids.Nodup)
    (hremove : g.remove id = some (f, g')) : g'.ids.Nodup := by
  rw [ids_of_remove hremove]
  exact (List.eraseP_sublist.map Field.id).nodup hids

/-- **A removal leaves no reference to the field removed.** -/
theorem Linked.remove {g g' : FieldGraph} {id : String} {f : Field} (h : g.Linked)
    (hremove : g.remove id = some (f, g')) : g'.Linked := by
  have hfields := fields_of_remove hremove
  have hids := ids_of_remove hremove
  refine ⟨nodup_ids_of_remove h.nodup_ids hremove, ?_⟩
  intro child hchild p hp
  -- A parent that a field still has is not the field removed, so it is still there.
  rw [hfields] at hchild
  obtain ⟨f, hf, rfl⟩ := List.mem_map.mp hchild
  obtain ⟨hparent, hne⟩ := parent_of_detach hp
  obtain ⟨owner, howner, rfl⟩ :=
    List.mem_map.mp (h.parent_mem f (List.mem_of_mem_eraseP hf) p hparent)
  rw [hids]
  refine List.mem_map_of_mem ((List.mem_eraseP_of_neg ?_).mpr howner)
  simpa using hne

end FieldGraph

end ExtractionContract
