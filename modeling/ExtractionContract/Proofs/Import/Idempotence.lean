import ExtractionContract.Proofs.Import.Overwrite

/-!
# Importing twice

A graph *says* a batch when each record's key leads to a field that carries what the record says
and hangs below the field of the record's owner. A merge under `overwrite` makes its graph say the
batch (`says_mergedFields`), wherever the fields were old or new, because keys lead to nodes
(`placeOf_mergedFields`). And merging a batch into a graph that says it changes nothing
(`Says.mergedFields_eq`): every record is folded into its node, which it tells nothing new, and the
links, made with other identifiers this time, are redirected to those that the nodes have.

So an import under `overwrite` is idempotent (`FieldGraph.merge_overwrite_idempotent`).
-/

namespace ExtractionContract

namespace Merge

/-- Each record's key leads to a field that carries the record, and that hangs below the field that
the key of the record's owner leads to. -/
def Says (g : FieldGraph) (batch : List Keyed) : Prop :=
  ∀ (place : Nat) (k : Keyed), batch[place]? = some k →
    ∃ f, g.fields.find? (fun h => h.key == k.key) = some f ∧ Carries f k.record ∧
      ∀ (j : Nat) (q : Keyed), ownerPlace batch place k = some j → batch[j]? = some q →
        ∃ owner, g.fields.find? (fun h => h.key == q.key) = some owner ∧
          f.parent = some owner.id

/-- A field is told by what it carries, its identifier, its key, its order and its parent. -/
theorem Carries.ext {f f' : Field} {r : Record} (h : Carries f r) (h' : Carries f' r)
    (hid : f.id = f'.id) (hkey : f.key = f'.key) (horder : f.order = f'.order)
    (hparent : f.parent = f'.parent) : f = f' := by
  rw [Field.mk.injEq]
  exact ⟨hid, hkey, h.name.trans h'.name.symm, h.outputName.trans h'.outputName.symm,
    h.type.trans h'.type.symm, h.required.trans h'.required.symm,
    h.description.trans h'.description.symm, h.sample.trans h'.sample.symm,
    h.validation.trans h'.validation.symm, h.normalization.trans h'.normalization.symm,
    h.hint.trans h'.hint.symm, h.threshold.trans h'.threshold.symm, horder, hparent⟩

section

variable {g : FieldGraph} {fresh : Nat → String} {batch : List Keyed}

/-! ### After a merge the graph says the batch -/

/-- The keys after a merge: those of the graph, and behind them the new ones. -/
theorem map_key_mergedFields (g : FieldGraph) (fresh : Nat → String) (batch : List Keyed) :
    (mergedFields g fresh batch).map Field.key = g.fields.map Field.key ++ newKeys g batch := by
  change (List.map (redirect _) _ ++ renumber _ (List.map (redirect _) _)).map Field.key = _
  rw [List.map_append, map_renumber fun _ _ => rfl, List.map_map, List.map_map]
  change List.map Field.key (List.foldl _ _ _) ++ List.map Field.key (List.filter _ _) = _
  rw [map_key_foldl_overwriteFirst, map_key_others]

/-- **After a merge a record's key leads to its node.** -/
theorem placeOf_mergedFields (g : FieldGraph) (fresh : Nat → String) {k : Keyed}
    (hk : k ∈ batch) :
    placeOf (mergedFields g fresh batch) k.key = some (nodePlace g batch k) := by
  rw [placeOf_eq_findIdx?, map_key_mergedFields, List.findIdx?_append, ← placeOf_eq_findIdx?]
  cases hplace : placeOf g.fields k.key with
  | some i => rw [nodePlace_of_placeOf hplace, Option.some_or]
  | none =>
    have hnew : k.key ∈ newKeys g batch :=
      List.mem_filter.mpr ⟨List.mem_map_of_mem hk, by rw [hplace]; rfl⟩
    have hidx : (newKeys g batch).findIdx? (· == k.key) =
        some ((newKeys g batch).idxOf k.key) :=
      List.findIdx?_eq_some_of_exists ⟨k.key, hnew, beq_self_eq_true _⟩
    rw [nodePlace_of_new hplace, Option.none_or, hidx, Option.map_some, List.length_map,
      Nat.add_comm]
    rfl

/-- **A merge makes its graph say the batch.** -/
theorem says_mergedFields (hfresh : g.Supplied fresh batch.length)
    (hkeys : (batch.map Keyed.key).Nodup) : Says ⟨mergedFields g fresh batch⟩ batch := by
  intro place k hk
  obtain ⟨node, hnode, -, -, hcarries, howner, -⟩ := exists_node hfresh hkeys hk
  have hplace := placeOf_mergedFields g fresh (List.mem_of_getElem? hk)
  refine ⟨node, (find?_eq_of_placeOf hplace).trans hnode, hcarries, ?_⟩
  intro j q hj hq
  obtain ⟨owner, hget, hid, -⟩ := exists_node hfresh hkeys hq
  have hplaceOwner := placeOf_mergedFields g fresh (List.mem_of_getElem? hq)
  exact ⟨owner, (find?_eq_of_placeOf hplaceOwner).trans hget, hid ▸ howner j q hj hq⟩

/-! ### A graph that says the batch stays as it is -/

theorem Says.exists_placeOf (h : Says g batch) (fresh : Nat → String) {place : Nat} {k : Keyed}
    (hk : batch[place]? = some k) :
    ∃ i f, placeOf g.fields k.key = some i ∧ g.fields[i]? = some f ∧ Carries f k.record ∧
      ∀ (j : Nat) (q : Keyed), ownerPlace batch place k = some j → batch[j]? = some q →
        f.parent = some (surviving g (fieldAt g fresh batch j q)) := by
  obtain ⟨f, hf, hcarries, howner⟩ := h place k hk
  cases hplace : placeOf g.fields k.key with
  | none =>
    rw [find?_eq_none_of_placeOf hplace] at hf
    exact absurd hf (Option.some_ne_none f).symm
  | some i =>
    refine ⟨i, f, rfl, (find?_eq_of_placeOf hplace).symm.trans hf, hcarries, ?_⟩
    intro j q hj hq
    obtain ⟨owner, hfind, hparent⟩ := howner j q hj hq
    have hsurviving : surviving g (fieldAt g fresh batch j q) = owner.id := by
      change ((g.fields.find? fun h => h.key == q.key).map Field.id).getD _ = owner.id
      rw [hfind]
      rfl
    rw [hparent, hsurviving]

/-- It has all the keys. -/
theorem Says.newKeys_eq_nil (h : Says g batch) : newKeys g batch = [] := by
  rw [newKeys, List.filter_eq_nil_iff]
  intro key hkey
  obtain ⟨k, hk, rfl⟩ := List.mem_map.mp hkey
  obtain ⟨place, hplaced⟩ := List.mem_iff_getElem?.mp hk
  obtain ⟨i, -, hplace, -⟩ := h.exists_placeOf (fun _ => "") hplaced
  rw [hplace]
  exact Bool.false_ne_true

/-- **Merging a batch into a graph that says it** changes no field. -/
theorem Says.mergedFields_eq (h : Says g batch) (hfresh : g.Supplied fresh batch.length)
    (hkeys : (batch.map Keyed.key).Nodup) :
    mergedFields g fresh batch = g.fields := by
  refine List.ext_getElem? fun i => ?_
  cases hold : g.fields[i]? with
  | none =>
    -- Nothing is added, so there is nothing behind the fields of the graph.
    have hlength := congrArg List.length (map_key_mergedFields g fresh batch)
    rw [h.newKeys_eq_nil, List.append_nil, List.length_map, List.length_map] at hlength
    rw [List.getElem?_eq_none_iff] at hold ⊢
    omega
  | some old =>
    by_cases hnode : ∃ k ∈ batch, placeOf g.fields k.key = some i
    · obtain ⟨k, hk, hplace⟩ := hnode
      obtain ⟨place, hplaced⟩ := List.mem_iff_getElem?.mp hk
      obtain ⟨i', f, hplace', hf, hcarries, howner⟩ := h.exists_placeOf fresh hplaced
      obtain rfl : i = i' := Option.some.inj (hplace.symm.trans hplace')
      obtain rfl : old = f := Option.some.inj (hold.symm.trans hf)
      -- The node is told by what it has: all of it is as it was, or what the record says.
      obtain ⟨node, hget, hid, hkey, hnode, hlinked, hkept⟩ := exists_node hfresh hkeys hplaced
      rw [nodePlace_of_placeOf hplace] at hget hkept
      have hover := getElem?_mergedFields_of_placeOf hfresh hkeys hplaced hplace hold
      obtain ⟨f', hf', hkeyOld⟩ := exists_of_placeOf hplace
      obtain rfl : old = f' := Option.some.inj (hold.symm.trans hf')
      have horder : node.order = old.order := by
        rw [Option.some.inj (hget.symm.trans hover)]
        rfl
      have hparent : node.parent = old.parent := by
        cases hj : ownerPlace batch place k with
        | none => rw [hkept hj, hold, Option.bind_some]
        | some j =>
          have hlt : j < batch.length := ownerPlace_lt hj
          have hq : batch[j]? = some batch[j] := List.getElem?_eq_getElem hlt
          rw [hlinked j _ hj hq, howner j _ hj hq]
      rw [hget, hnode.ext hcarries (hid.trans (surviving_of_placeOf hplace hold))
        (hkey.trans hkeyOld.symm) horder hparent]
    · push Not at hnode
      exact getElem?_mergedFields_of_forall_ne hfresh hold hnode

end

end Merge

namespace FieldGraph

open Merge

/-- **Overwriting twice is overwriting once.** The same records, with distinct keys and whatever
names and parents, leave the graph after a second merge exactly as it is after the first, although
other identifiers are drawn. The second merge adds nothing, overwrites a field for each record with
a key, and skips as many records and misses the same parents as the first. -/
theorem merge_overwrite_idempotent (g : FieldGraph) {fresh fresh' : Nat → String}
    {records : List Record} (hkeys : ((keyed records).map Keyed.key).Nodup)
    (hfresh : g.Supplied fresh (keyed records).length)
    (hfresh' : (g.merge .overwrite fresh records).graph.Supplied fresh' (keyed records).length) :
    let first := g.merge .overwrite fresh records
    let second := first.graph.merge .overwrite fresh' records
    second.graph = first.graph ∧
      ∃ s, first.summary = .ok s ∧
        second.summary = .ok { s with added := 0, overwritten := (keyed records).length } := by
  intro first second
  have hfirst : first = _ := g.merge_overwrite_eq fresh records
  have hsecond : second = _ := first.graph.merge_overwrite_eq fresh' records
  have hbatch : Says first.graph (keyed records) := by
    rw [hfirst]
    exact says_mergedFields hfresh hkeys
  refine ⟨?_, _, congrArg MergeResult.summary hfirst, ?_⟩
  · rw [hsecond]
    exact congrArg FieldGraph.mk (hbatch.mergedFields_eq hfresh' hkeys)
  · -- Which parents are missed is told by the places of the records alone.
    rw [hsecond, hbatch.newKeys_eq_nil, map_fst_unresolved hfresh.inj,
      map_fst_unresolved hfresh'.inj]
    rfl

/-- A new record below an old one that comes later, an old one below the new one, one that names
itself, and one without a key that nothing is found below. The second time the supply begins with
identifiers that the first time did not use. -/
theorem merge_overwrite_idempotent_of_crossing_links :
    let g : FieldGraph := ⟨[
      { id := "1", key := "items", order := 7 },
      { id := "2", key := "sku", order := 5, parent := some "1" },
      { id := "3", key := "qty", order := 6, parent := some "0" }]⟩
    let records : List Record := [
      { key := some "line", parentKey := some "items", type := some "object" },
      { key := some "sku", parentKey := some "line", required := some true },
      { batchRef := some "keyless" },
      { key := some "items", parentKey := some "items" },
      { key := some "qty", parentKey := some "keyless" }]
    let first := g.merge .overwrite (["a", "b", "c", "d"].getD · "") records
    let second := first.graph.merge .overwrite (["e", "b", "c", "d"].getD · "") records
    first.graph.fields.map (fun f => (f.id, f.parent)) =
        [("1", none), ("2", some "a"), ("3", some "0"), ("a", some "1")] ∧
      second.graph = first.graph ∧ first.summary = .ok ⟨1, 3, 1, ["items", "keyless"]⟩ ∧
      second.summary = .ok ⟨0, 4, 1, ["items", "keyless"]⟩ := by
  intro g records first second
  have hkeys : ((keyed records).map Keyed.key).Nodup := by decide
  have hfresh : g.Supplied (["a", "b", "c", "d"].getD · "") (keyed records).length :=
    ⟨by decide +kernel, by decide +kernel⟩
  have hfresh' : first.graph.Supplied (["e", "b", "c", "d"].getD · "") (keyed records).length :=
    ⟨by decide +kernel, by decide +kernel⟩
  obtain ⟨hgraph, s, hfirst, hsecond⟩ := g.merge_overwrite_idempotent hkeys hfresh hfresh'
  have hsummary : first.summary = .ok ⟨1, 3, 1, ["items", "keyless"]⟩ :=
    (congrArg MergeResult.summary (g.merge_overwrite_eq _ records)).trans
      (congrArg Except.ok (by decide +kernel))
  obtain rfl : s = ⟨1, 3, 1, ["items", "keyless"]⟩ := Except.ok.inj (hfirst.symm.trans hsummary)
  exact ⟨by decide +kernel, hgraph, hsummary, hsecond⟩

end FieldGraph

end ExtractionContract
