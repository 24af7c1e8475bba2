import ExtractionContract.Proofs.Graph.Cycles
import ExtractionContract.Proofs.Import.Overwrite

/-!
# Imports that add all fields

Under `coexist` a merge appends one field for each record with a key and leaves the graph in
front of them as it is. Keys that repeat one another, in the batch or in the graph, change
nothing: links are looked for by what records go by, in the batch only, and are made by place.

* `Merge.get?_append_fresh`: an identifier that was drawn leads to the field it was drawn for.
* `Merge.hangs_append_iff`: the walks between the new fields are those between their records.
* `FieldGraph.coexist_appends_batch`: the whole of what such a merge does.
-/

namespace ExtractionContract

open Relation

namespace Merge

variable {g : FieldGraph} {fresh : Nat → String} {batch : List Keyed}
  (hfresh : g.Supplied fresh batch.length)

include hfresh

/-- **A drawn identifier** leads to the field that it was drawn for. -/
theorem get?_append_fresh {place : Nat} {k : Keyed} (hk : batch[place]? = some k) :
    (g.append (linked fresh g.size batch)).get? (fresh place) =
      some (fieldAt g fresh batch place k) := by
  have hlt : place < batch.length := (List.getElem?_eq_some_iff.mp hk).1
  have hold : g.fields.find? (fun f => f.id == fresh place) = none := by
    rw [List.find?_eq_none]
    intro f hf hid
    refine hfresh.notMem_ids hlt ?_
    rw [← beq_iff_eq.mp hid]
    exact List.mem_map_of_mem hf
  -- The batch is a graph of its own, with distinct identifiers.
  have hnew : (linked fresh g.size batch).find? (fun f => f.id == fresh place) =
      some (fieldAt g fresh batch place k) :=
    FieldGraph.get?_of_mem (g := ⟨linked fresh g.size batch⟩) (nodup_id_linked hfresh)
      (List.mem_of_getElem? (getElem?_linked hfresh hk))
  rw [FieldGraph.get?, FieldGraph.append, List.find?_append, hold, hnew]
  rfl

/-- **A new field hangs below** the field of its record's owner, and below nothing else. -/
theorem hangs_append_iff {place : Nat} (hplace : place < batch.length) {p : String} :
    (g.append (linked fresh g.size batch)).Hangs (fresh place) p ↔
      ∃ j, OwnerLink batch place j ∧ fresh j = p := by
  have hk : batch[place]? = some batch[place] := List.getElem?_eq_getElem hplace
  rw [FieldGraph.hangs_iff, get?_append_fresh hfresh hk, Option.bind_some]
  change (ownerPlace batch place batch[place]).map fresh = some p ↔ _
  rw [Option.map_eq_some_iff]
  constructor
  · rintro ⟨j, hj, hp⟩
    exact ⟨j, ⟨_, hk, hj⟩, hp⟩
  · rintro ⟨j, ⟨k, hk', hj⟩, hp⟩
    obtain rfl : batch[place] = k := Option.some.inj (hk.symm.trans hk')
    exact ⟨j, hj, hp⟩

/-- **A walk up from a new field** is one from its record. -/
theorem transGen_hangs_append_iff {place : Nat} (hplace : place < batch.length) {p : String} :
    TransGen (g.append (linked fresh g.size batch)).Hangs (fresh place) p ↔
      ∃ j, TransGen (OwnerLink batch) place j ∧ fresh j = p := by
  constructor
  · intro hwalk
    induction hwalk with
    | single hstep =>
      obtain ⟨j, hlink, hp⟩ := (hangs_append_iff hfresh hplace).mp hstep
      exact ⟨j, .single hlink, hp⟩
    | tail _ hstep ih =>
      obtain ⟨i, hwalk, rfl⟩ := ih
      -- The walk came to an owner, which is a record of the batch.
      obtain ⟨_, -, k, -, hi⟩ := TransGen.tail'_iff.mp hwalk
      obtain ⟨j, hlink, hp⟩ := (hangs_append_iff hfresh (ownerPlace_lt hi)).mp hstep
      exact ⟨j, hwalk.tail hlink, hp⟩
  · rintro ⟨j, hwalk, rfl⟩
    refine hwalk.lift fresh ?_
    rintro c d ⟨k, hk, hd⟩
    have hc : c < batch.length := (List.getElem?_eq_some_iff.mp hk).1
    exact (hangs_append_iff hfresh hc).mpr ⟨d, ⟨k, hk, hd⟩, rfl⟩

/-- **New fields form a cycle exactly if their records do.** -/
theorem exists_cycle_append_iff :
    (∃ f ∈ linked fresh g.size batch,
        TransGen (g.append (linked fresh g.size batch)).Hangs f.id f.id) ↔
      ∃ i, TransGen (OwnerLink batch) i i := by
  constructor
  · rintro ⟨f, hf, hcycle⟩
    have hid := List.mem_map_of_mem (f := Field.id) hf
    rw [map_id_linked] at hid
    obtain ⟨i, hi, hid⟩ := List.mem_map.mp hid
    rw [List.mem_range] at hi
    rw [← hid, transGen_hangs_append_iff hfresh hi] at hcycle
    obtain ⟨j, hwalk, hj⟩ := hcycle
    obtain ⟨_, -, k, -, howner⟩ := TransGen.tail'_iff.mp hwalk
    obtain rfl : j = i := hfresh.inj j (ownerPlace_lt howner) i hi hj
    exact ⟨j, hwalk⟩
  · rintro ⟨i, hcycle⟩
    obtain ⟨_, ⟨k, hk, -⟩, -⟩ := TransGen.head'_iff.mp hcycle
    have hi : i < batch.length := (List.getElem?_eq_some_iff.mp hk).1
    refine ⟨_, List.mem_of_getElem? (getElem?_linked hfresh hk), ?_⟩
    exact (transGen_hangs_append_iff hfresh hi).mpr ⟨i, hcycle, rfl⟩

end Merge

namespace FieldGraph

open Merge

/-- **An import that adds all fields.** The fields of the graph stay in front, as they are. Each
record with a key has one field behind them, in the order of the records: it carries what the
record says, and hangs below the field of the record's owner or is a root. The parents that
were not found are those named by records without an owner, in order. The new fields form a
cycle of parents exactly if the records form one of owners. -/
theorem coexist_appends_batch (g : FieldGraph) {fresh : Nat → String} {records : List Record}
    (hfresh : g.Supplied fresh (keyed records).length) :
    let batch := keyed records
    let result := g.merge .coexist fresh records
    let after := result.graph
    result.summary = .ok
        { added := batch.length
          overwritten := 0
          skipped := keyless records
          unresolvedParents := (batch.mapIdx fun i k =>
            if (ownerPlace batch i k).isNone then k.record.parentKey else none).filterMap id } ∧
      after.fields.take g.size = g.fields ∧ after.size = g.size + batch.length ∧
      (∀ i k, batch[i]? = some k → ∃ f, after.fields[g.size + i]? = some f ∧
        f.id = fresh i ∧ f.key = k.key ∧ f.order = (g.size : Int) + i ∧ Carries f k.record ∧
        (∀ j, ownerPlace batch i k = some j →
          ∃ owner, after.fields[g.size + j]? = some owner ∧ f.parent = some owner.id) ∧
        (ownerPlace batch i k = none → f.parent = none)) ∧
      ((∃ f ∈ after.fields.drop g.size, TransGen after.Hangs f.id f.id) ↔
        ∃ i, TransGen (OwnerLink batch) i i) := by
  intro batch result after
  have hresult : result = _ := g.merge_coexist fresh records
  have hafter : after = g.append (linked fresh g.size batch) :=
    congrArg MergeResult.graph hresult
  have hfields : after.fields = g.fields ++ linked fresh g.size batch :=
    congrArg FieldGraph.fields hafter
  have hget : ∀ {i k}, batch[i]? = some k →
      after.fields[g.size + i]? = some (fieldAt g fresh batch i k) := by
    intro i k hk
    rw [hfields, size, List.getElem?_append_right (Nat.le_add_right _ _), Nat.add_sub_cancel_left]
    exact getElem?_linked hfresh hk
  refine ⟨?_, ?_, ?_, ?_, ?_⟩
  · rw [hresult, length_linked, map_fst_unresolved hfresh.inj]
  · rw [hfields]
    exact List.take_left' rfl
  · rw [size, hfields, List.length_append, length_linked]
    rfl
  · intro i k hk
    refine ⟨_, hget hk, rfl, rfl, rfl, ⟨rfl, rfl, rfl, rfl, rfl, rfl, rfl, rfl, rfl, rfl⟩, ?_, ?_⟩
    · intro j hj
      have hlt : j < batch.length := ownerPlace_lt hj
      have hq : batch[j]? = some batch[j] := List.getElem?_eq_getElem hlt
      refine ⟨_, hget hq, ?_⟩
      change (ownerPlace batch i k).map fresh = some (fresh j)
      rw [hj, Option.map_some]
    · intro hroot
      change (ownerPlace batch i k).map fresh = none
      rw [hroot, Option.map_none]
  · rw [hfields, List.drop_left' (show g.fields.length = g.size from rfl), hafter]
    exact exists_cycle_append_iff hfresh

/-- Two fields in a cycle, a record that finds no record but itself, one that finds none, one
whose parent goes by its own name, and one without a key whose name counts for nothing. The
graph has one of the keys, below a field that it does not have. -/
theorem coexist_appends_batch_of_namesakes :
    let g : FieldGraph := ⟨[{ id := "1", key := "order", order := 5, parent := some "0" }]⟩
    let records : List Record := [
      { key := some "order", parentKey := some "line" },
      { batchRef := some "line" },
      { key := some "line", batchRef := some "first", parentKey := some "order" },
      { key := some "line", parentKey := some "order" },
      { key := some "sku", batchRef := some "line", parentKey := some "line" },
      { key := some "tax", parentKey := some "tax" },
      { key := some "qty", parentKey := some "gone", required := some true }]
    let fresh := (["a", "b", "c", "d", "e", "f"].getD · "")
    let result := g.merge .coexist fresh records
    g.Supplied fresh (keyed records).length ∧
      result.summary = .ok ⟨6, 0, 1, ["tax", "gone"]⟩ ∧
      result.graph.fields.map (fun f => (f.id, f.key, f.order, f.parent)) =
        [("1", "order", 5, some "0"), ("a", "order", 1, some "c"), ("b", "line", 2, some "a"),
          ("c", "line", 3, some "a"), ("d", "sku", 4, some "c"), ("e", "tax", 5, none),
          ("f", "qty", 6, none)] ∧
      ∃ f ∈ result.graph.fields.drop 1, TransGen result.graph.Hangs f.id f.id := by
  intro g records fresh result
  have hfresh : g.Supplied fresh (keyed records).length :=
    ⟨by decide +kernel, by decide +kernel⟩
  obtain ⟨hsummary, -, -, -, hcycle⟩ := g.coexist_appends_batch hfresh
  refine ⟨hfresh, hsummary.trans (congrArg Except.ok (by decide +kernel)),
    by decide +kernel, hcycle.mpr ⟨0, ?_⟩⟩
  have hdown : OwnerLink (keyed records) 0 2 := ⟨_, rfl, by decide +kernel⟩
  have hup : OwnerLink (keyed records) 2 0 := ⟨_, rfl, by decide +kernel⟩
  exact .tail (.single hdown) hup

end FieldGraph

end ExtractionContract
