import ExtractionContract.Field.Identifier
import ExtractionContract.Import.Merge
import ExtractionContract.Proofs.Graph.Links
import Mathlib.Data.List.Basic

/-!
# The fields of a batch

A merge makes one field of every record that has a key, and names them by a supply of fresh
identifiers. `Supplied` is what a merge relies on: the identifiers it draws are not in use, as
names of fields or of parents, and differ from one another.

* `supplied_supply`: the supply that sessions draw on is of this kind, as long as there are enough
  identifiers.
* `map_id_linked`: the fields of a batch have the identifiers drawn, in order.
* `parent_mem_linked`: a field of a batch has no parent or one of the same batch.
-/

namespace ExtractionContract

namespace FieldGraph

/-- The first identifiers of a supply, as many as asked for, differ from one another and from
all that are in use. -/
structure Supplied (g : FieldGraph) (fresh : Nat → String) (count : Nat) : Prop where
  notMem : ∀ i < count, fresh i ∉ g.usedIds
  inj : ∀ i < count, ∀ j < count, fresh i = fresh j → i = j

/-- **The supply of identifiers** gives as many as it has blocks for. -/
theorem supplied_supply (g : FieldGraph) {count : Nat}
    (h : count * (g.usedIds.length + 1) ≤ Identifier.capacity) :
    g.Supplied (Identifier.supply g.usedIds) count := by
  have hblock : ∀ i < count, (i + 1) * (g.usedIds.length + 1) ≤ Identifier.capacity :=
    fun i hi => Nat.le_trans (Nat.mul_le_mul_right _ hi) h
  exact ⟨fun i hi => Identifier.supply_notMem (hblock i hi),
    fun i hi j hj => Identifier.supply_inj (hblock i hi) (hblock j hj)⟩

theorem Supplied.notMem_ids {g : FieldGraph} {fresh : Nat → String} {count i : Nat}
    (h : g.Supplied fresh count) (hi : i < count) : fresh i ∉ g.ids :=
  fun hid => h.notMem i hi (List.mem_append_left _ hid)

theorem Supplied.nodup {g : FieldGraph} {fresh : Nat → String} {count : Nat}
    (h : g.Supplied fresh count) : ((List.range count).map fresh).Nodup := by
  refine List.pairwise_map.mpr (List.nodup_range.imp_of_mem fun hi hj hij heq => hij ?_)
  exact h.inj _ (List.mem_range.mp hi) _ (List.mem_range.mp hj) heq

end FieldGraph

namespace Merge

theorem keyless_eq_zero {rs : List Record} (h : ∀ r ∈ rs, r.key.isSome) : keyless rs = 0 := by
  rw [keyless, List.length_eq_zero_iff, List.filter_eq_nil_iff]
  intro r hr
  rw [Option.isNone_iff_eq_none]
  exact Option.isSome_iff_ne_none.mp (h r hr)

variable (fresh : Nat → String) (base : Nat) (batch : List Keyed)

theorem map_snd_references :
    (references fresh batch).map Prod.snd = (List.range batch.length).map fresh := by
  rw [references, List.mapIdx_eq_zipIdx_map, List.map_map]
  change batch.zipIdx.map (fresh ∘ Prod.snd) = _
  rw [← List.map_map, List.zipIdx_map_snd, List.range_eq_range']

/-- **The fields of a batch have the identifiers drawn for them.** -/
theorem map_id_linked :
    (linked fresh base batch).map Field.id = (List.range batch.length).map fresh := by
  rw [linked, List.mapIdx_eq_zipIdx_map, List.map_map]
  change batch.zipIdx.map (fresh ∘ Prod.snd) = _
  rw [← List.map_map, List.zipIdx_map_snd, List.range_eq_range']

variable {fresh base batch}

/-- A parent that is found is named in the references. -/
theorem mem_of_parentOf {refs : List (String × String)} {id p : String}
    {parentKey : Option String} (h : parentOf refs id parentKey = some p) :
    p ∈ refs.map Prod.snd := by
  obtain ⟨hp, -⟩ := Option.filter_eq_some_iff.mp h
  obtain ⟨name, -, hlookup⟩ := Option.bind_eq_some_iff.mp hp
  obtain ⟨front, back, hrefs, -⟩ := List.lookup_eq_some_iff.mp hlookup
  rw [hrefs]
  exact List.mem_map_of_mem (List.mem_append_right front List.mem_cons_self)

/-- **The parent of a field of a batch is a field of the batch.** -/
theorem parent_mem_linked {f : Field} (hf : f ∈ linked fresh base batch) {p : String}
    (hp : f.parent = some p) : p ∈ (linked fresh base batch).map Field.id := by
  obtain ⟨place, hplace, rfl⟩ := List.mem_mapIdx.mp hf
  rw [map_id_linked, ← map_snd_references fresh batch]
  exact mem_of_parentOf hp

end Merge

end ExtractionContract
