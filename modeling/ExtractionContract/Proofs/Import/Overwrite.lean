import ExtractionContract.Proofs.Import.Folding

/-!
# What an overwriting import does

A record stands for a *node* of the graph that it is merged into: the first field that has its
key, or the field that is added for it. `nodePlace` is the place of the node afterwards. Where
the keys of a batch are distinct, different records stand for different nodes, and a merge under
`overwrite` does the following and nothing else (`FieldGraph.merge_overwrite`):

* Fields of the graph keep their places, identifiers, keys and orders, and those that are no
  record's node keep everything.
* The node of a record carries what the record says.
* Its parent is the node of the record's owner, and if it has no owner the parent there was.
* The nodes that are new stand at the end, in the order of the records, with consecutive orders.

Identifiers that are drawn for fields already there disappear. That links are made with them
first and redirected afterwards does not show: `exists_node` gives the parent of a node with
every identifier already redirected, whichever of the two nodes are new.
-/

namespace ExtractionContract

namespace Merge

/-- A field has what a record says: nothing where the record is silent, except that it is a
string and not required. -/
structure Carries (f : Field) (r : Record) : Prop where
  name : f.name = r.name
  outputName : f.outputName = r.outputName
  type : f.type = (r.type.map DataType.parse).getD .string
  required : f.required = r.required.getD false
  description : f.description = r.description
  sample : f.sample = r.sample
  validation : f.validation = r.validation
  normalization : f.normalization = r.normalization
  hint : f.hint = r.hint
  threshold : f.threshold = r.threshold

/-- The keys of a batch that no field of a graph has. -/
def newKeys (g : FieldGraph) (batch : List Keyed) : List String :=
  (batch.map Keyed.key).filter fun key => (placeOf g.fields key).isNone

/-- The place of a record's node after a merge. -/
def nodePlace (g : FieldGraph) (batch : List Keyed) (k : Keyed) : Nat :=
  (placeOf g.fields k.key).getD (g.size + (newKeys g batch).idxOf k.key)

theorem nodePlace_of_placeOf {g : FieldGraph} {batch : List Keyed} {k : Keyed} {i : Nat}
    (h : placeOf g.fields k.key = some i) : nodePlace g batch k = i := by
  rw [nodePlace, h, Option.getD_some]

theorem nodePlace_of_new {g : FieldGraph} {batch : List Keyed} {k : Keyed}
    (h : placeOf g.fields k.key = none) :
    nodePlace g batch k = g.size + (newKeys g batch).idxOf k.key := by
  rw [nodePlace, h, Option.getD_none]

/-- Where keys are distinct, an entry stands at the place of its key. -/
theorem getElem?_idxOf_map {α : Type} (key : α → String) {l : List α}
    (h : (l.map key).Nodup) {a : α} (ha : a ∈ l) :
    l[(l.map key).idxOf (key a)]? = some a := by
  obtain ⟨i, hi⟩ := List.mem_iff_getElem?.mp ha
  obtain ⟨hlt, rfl⟩ := List.getElem?_eq_some_iff.mp hi
  have hidx := h.idxOf_getElem i (by rwa [List.length_map])
  rw [List.getElem_map] at hidx
  rw [hidx, hi]

section

variable {g : FieldGraph} {fresh : Nat → String} {batch : List Keyed}

/-- The field made of a record, linked by place. -/
def fieldAt (g : FieldGraph) (fresh : Nat → String) (batch : List Keyed) (place : Nat)
    (k : Keyed) : Field :=
  { fieldOf fresh g.size place k with parent := (ownerPlace batch place k).map fresh }

theorem map_key_linked (fresh : Nat → String) (base : Nat) (batch : List Keyed) :
    (linked fresh base batch).map Field.key = batch.map Keyed.key := by
  rw [linked, List.mapIdx_eq_zipIdx_map, List.map_map]
  change batch.zipIdx.map (Keyed.key ∘ Prod.fst) = _
  rw [← List.map_map, List.zipIdx_map_fst]

theorem length_linked (fresh : Nat → String) (base : Nat) (batch : List Keyed) :
    (linked fresh base batch).length = batch.length :=
  List.length_mapIdx

/-- The fields of a batch that are left over have the new keys, in order. -/
theorem map_key_others (g : FieldGraph) (fresh : Nat → String) (batch : List Keyed) :
    ((linked fresh g.size batch).filter fun f => !isTaken g f).map Field.key =
      newKeys g batch := by
  have hpred : (fun f => !isTaken g f) =
      (fun key => (placeOf g.fields key).isNone) ∘ Field.key := by
    funext f
    rw [isTaken_eq_isSome]
    exact Option.not_isSome _
  rw [hpred, ← List.filter_map, map_key_linked]
  rfl

/-- The names that are redirected in a merge of a batch. -/
abbrev redirected (g : FieldGraph) (fresh : Nat → String) (batch : List Keyed) :
    List (String × String) :=
  redirects g ((linked fresh g.size batch).filter (isTaken g))

/-- The graph after a merge of a batch. -/
abbrev mergedFields (g : FieldGraph) (fresh : Nat → String) (batch : List Keyed) : List Field :=
  (foldIn g (linked fresh g.size batch)).graph.fields

theorem length_kept (g : FieldGraph) (fresh : Nat → String) (batch : List Keyed) :
    (((linked fresh g.size batch).filter (isTaken g)).foldl
      (fun fs f => overwriteFirst f fs) g.fields).length = g.size := by
  have hlength := congrArg List.length
    (map_key_foldl_overwriteFirst ((linked fresh g.size batch).filter (isTaken g)) g.fields)
  rwa [List.length_map, List.length_map] at hlength

theorem getElem?_mergedFields_of_lt {i : Nat} (hi : i < g.size) :
    (mergedFields g fresh batch)[i]? =
      ((((linked fresh g.size batch).filter (isTaken g)).foldl
        (fun fs f => overwriteFirst f fs) g.fields)[i]?).map
          (redirect (redirected g fresh batch)) := by
  rw [← List.getElem?_map]
  refine List.getElem?_append_left ?_
  rwa [List.length_map, length_kept]

/-- **New nodes** stand at the end, in order. -/
theorem map_drop_mergedFields (g : FieldGraph) (fresh : Nat → String) (batch : List Keyed) :
    ((mergedFields g fresh batch).drop g.size).map (fun f => (f.key, f.order)) =
      (newKeys g batch).mapIdx fun i key => (key, (g.size : Int) + i) := by
  have hdrop : (mergedFields g fresh batch).drop g.size =
      renumber g.size (((linked fresh g.size batch).filter fun f => !isTaken g f).map
        (redirect (redirected g fresh batch))) :=
    List.drop_left' (by rw [List.length_map, length_kept])
  rw [hdrop, ← map_key_others g fresh]
  refine List.ext_getElem? ?_
  intro i
  simp only [renumber, List.getElem?_map, List.getElem?_mapIdx, Option.map_map]
  rfl

/-! ### Nodes -/

variable (hfresh : g.Supplied fresh batch.length)

include hfresh

theorem getElem?_linked {place : Nat} {k : Keyed} (hk : batch[place]? = some k) :
    (linked fresh g.size batch)[place]? = some (fieldAt g fresh batch place k) := by
  rw [linked_eq_mapIdx hfresh.inj, List.getElem?_mapIdx, hk]
  rfl

theorem nodup_id_linked : ((linked fresh g.size batch).map Field.id).Nodup := by
  rw [map_id_linked]
  exact hfresh.nodup

/-- A name in use is not one that was drawn. -/
theorem notMem_id_linked {p : String} (hp : p ∈ g.usedIds) :
    p ∉ (linked fresh g.size batch).map Field.id := by
  rw [map_id_linked]
  intro hmem
  obtain ⟨i, hi, rfl⟩ := List.mem_map.mp hmem
  exact hfresh.notMem i (List.mem_range.mp hi) hp

theorem parent_notMem_id_linked {f : Field} (hf : f ∈ g.fields) {p : String}
    (hp : f.parent = some p) : p ∉ (linked fresh g.size batch).map Field.id :=
  notMem_id_linked hfresh
    (List.mem_append_right _ (List.mem_filterMap.mpr ⟨f, hf, hp⟩))

/-- **The reference to an owner**, redirected, is to the identifier that survives. -/
theorem parent_redirect_of_owner {place j : Nat} {k q : Keyed} {f : Field}
    (hf : f.parent = (ownerPlace batch place k).map fresh)
    (hj : ownerPlace batch place k = some j) (hq : batch[j]? = some q) :
    (redirect (redirected g fresh batch) f).parent =
      some (surviving g (fieldAt g fresh batch j q)) := by
  have howner := redirected_eq_surviving (g := g) (nodup_id_linked hfresh)
    (List.mem_of_getElem? (getElem?_linked hfresh hq))
  rw [redirect, hf, hj, Option.map_some, Option.map_some]
  exact congrArg some howner

/-- **A field that is no record's node** stays as it is. -/
theorem getElem?_mergedFields_of_forall_ne {i : Nat} {f : Field} (hf : g.fields[i]? = some f)
    (h : ∀ k ∈ batch, placeOf g.fields k.key ≠ some i) :
    (mergedFields g fresh batch)[i]? = some f := by
  have hlt : i < g.size := (List.getElem?_eq_some_iff.mp hf).1
  have hfolded : ∀ f' ∈ (linked fresh g.size batch).filter (isTaken g),
      placeOf g.fields f'.key ≠ some i := by
    intro f' hf'
    have hkey := List.mem_map_of_mem (f := Field.key) (List.mem_of_mem_filter hf')
    rw [map_key_linked] at hkey
    obtain ⟨k, hk, hkey⟩ := List.mem_map.mp hkey
    exact hkey ▸ h k hk
  rw [getElem?_mergedFields_of_lt hlt, getElem?_foldl_of_forall_ne hfolded, hf, Option.map_some,
    redirect_eq_self fun p hp => parent_notMem_id_linked hfresh (List.mem_of_getElem? hf) hp]

variable (hkeys : (batch.map Keyed.key).Nodup)

include hkeys

/-- **A node that was there** is overwritten with the field made of its record. -/
theorem getElem?_mergedFields_of_placeOf {place i : Nat} {k : Keyed} {old : Field}
    (hk : batch[place]? = some k) (hplace : placeOf g.fields k.key = some i)
    (hold : g.fields[i]? = some old) :
    (mergedFields g fresh batch)[i]? =
      some (redirect (redirected g fresh batch)
        (overwriteField old (fieldAt g fresh batch place k))) := by
  have hlt : i < g.size := (List.getElem?_eq_some_iff.mp hold).1
  have hmem := List.mem_of_getElem? (getElem?_linked hfresh hk)
  have htaken : isTaken g (fieldAt g fresh batch place k) := by
    rw [isTaken_eq_isSome]
    exact Option.isSome_of_eq_some hplace
  have hnodup : (((linked fresh g.size batch).filter (isTaken g)).map Field.key).Nodup := by
    rw [← map_key_linked fresh g.size] at hkeys
    exact (List.filter_sublist.map Field.key).nodup hkeys
  rw [getElem?_mergedFields_of_lt hlt,
    getElem?_foldl_of_mem hnodup (List.mem_filter.mpr ⟨hmem, htaken⟩) hplace, hold]
  rfl

/-- **A node that is new** is the field made of its record, behind the fields there were. -/
theorem getElem?_mergedFields_of_new {place : Nat} {k : Keyed} (hk : batch[place]? = some k)
    (hplace : placeOf g.fields k.key = none) :
    (mergedFields g fresh batch)[nodePlace g batch k]? =
      some { redirect (redirected g fresh batch) (fieldAt g fresh batch place k) with
        order := (g.size : Int) + (newKeys g batch).idxOf k.key } := by
  have hmem := List.mem_of_getElem? (getElem?_linked hfresh hk)
  have hother : fieldAt g fresh batch place k ∈
      (linked fresh g.size batch).filter fun f => !isTaken g f := by
    refine List.mem_filter.mpr ⟨hmem, ?_⟩
    rw [isTaken_eq_isSome]
    change (!(placeOf g.fields k.key).isSome) = true
    rw [hplace]
    rfl
  -- New fields keep the order of the batch, so a key has the place of its field among them.
  have hnodup : (newKeys g batch).Nodup := List.filter_sublist.nodup hkeys
  have hget := getElem?_idxOf_map Field.key (by rwa [map_key_others]) hother
  rw [map_key_others] at hget
  change _[(newKeys g batch).idxOf k.key]? = _ at hget
  have hlength := length_kept g fresh batch
  rw [nodePlace_of_new hplace, mergedFields, foldIn]
  change (_ ++ renumber _ _)[_]? = _
  rw [List.getElem?_append_right (by rw [List.length_map, hlength]; omega), List.length_map,
    hlength, Nat.add_sub_cancel_left, renumber, List.getElem?_mapIdx, List.getElem?_map, hget]
  rfl

/-- **The node of a record** after the merge, with its identifier, what it carries and its
parent. -/
theorem exists_node {place : Nat} {k : Keyed} (hk : batch[place]? = some k) :
    ∃ node, (mergedFields g fresh batch)[nodePlace g batch k]? = some node ∧
      node.id = surviving g (fieldAt g fresh batch place k) ∧ node.key = k.key ∧
      Carries node k.record ∧
      (∀ j q, ownerPlace batch place k = some j → batch[j]? = some q →
        node.parent = some (surviving g (fieldAt g fresh batch j q))) ∧
      (ownerPlace batch place k = none →
        node.parent = (g.fields[nodePlace g batch k]?).bind Field.parent) := by
  cases hplace : placeOf g.fields k.key with
  | none =>
    have hnone : g.fields[nodePlace g batch k]? = none := by
      rw [nodePlace_of_new hplace, List.getElem?_eq_none_iff]
      exact Nat.le_add_right g.size _
    refine ⟨_, getElem?_mergedFields_of_new hfresh hkeys hk hplace, ?_, rfl,
      ⟨rfl, rfl, rfl, rfl, rfl, rfl, rfl, rfl, rfl, rfl⟩, ?_, ?_⟩
    · exact (surviving_of_new hplace).symm
    · exact fun j q hj hq => parent_redirect_of_owner hfresh rfl hj hq
    · intro hroot
      rw [hnone]
      change Option.map _ ((ownerPlace batch place k).map fresh) = none
      rw [hroot]
      rfl
  | some i =>
    obtain ⟨old, hold, hkey⟩ := exists_of_placeOf hplace
    have hnode := getElem?_mergedFields_of_placeOf hfresh hkeys hk hplace hold
    rw [nodePlace_of_placeOf hplace]
    refine ⟨_, hnode, ?_, hkey, ⟨rfl, rfl, rfl, rfl, rfl, rfl, rfl, rfl, rfl, rfl⟩, ?_, ?_⟩
    · exact (surviving_of_placeOf hplace hold).symm
    · intro j q hj hq
      refine parent_redirect_of_owner hfresh (k := k) ?_ hj hq
      -- The new parent takes precedence over the old one.
      change ((ownerPlace batch place k).map fresh).or old.parent = _
      rw [hj, Option.map_some, Option.some_or]
    · intro hroot
      have hparent : (overwriteField old (fieldAt g fresh batch place k)).parent = old.parent := by
        change ((ownerPlace batch place k).map fresh).or old.parent = old.parent
        rw [hroot, Option.map_none, Option.none_or]
      -- The old parent is a name in use, so it was not redirected.
      rw [redirect_eq_self fun p hp =>
        parent_notMem_id_linked hfresh (List.mem_of_getElem? hold) (hparent ▸ hp), hparent, hold]
      rfl

end

/-! ### The numbers of a summary -/

theorem length_keyed_add_keyless (records : List Record) :
    (keyed records).length + keyless records = records.length := by
  induction records with
  | nil => rfl
  | cons r rest ih =>
    rw [keyed, keyless, List.filterMap_cons, List.filter_cons]
    cases r.key with
    | none =>
      change (keyed rest).length + (keyless rest + 1) = rest.length + 1
      omega
    | some key =>
      change (keyed rest).length + 1 + keyless rest = rest.length + 1
      omega

theorem length_folded_add_others (g : FieldGraph) (fields : List Field) :
    (fields.filter (isTaken g)).length + (fields.filter fun f => !isTaken g f).length =
      fields.length :=
  (List.length_eq_length_filter_add (isTaken g)).symm

end Merge

namespace FieldGraph

open Merge

/-- What a merge under `overwrite` gives. -/
theorem merge_overwrite_eq (g : FieldGraph) (fresh : Nat → String) (records : List Record) :
    g.merge .overwrite fresh records =
      ⟨.ok ⟨(newKeys g (keyed records)).length,
          (keyed records).length - (newKeys g (keyed records)).length, keyless records,
          (unresolved fresh (keyed records)).map Prod.fst⟩,
        ⟨mergedFields g fresh (keyed records)⟩⟩ := by
  have hadded := congrArg List.length (map_key_others g fresh (keyed records))
  have hsplit := length_folded_add_others g (linked fresh g.size (keyed records))
  rw [List.length_map] at hadded
  rw [length_linked, hadded] at hsplit
  have hfolded : ((linked fresh g.size (keyed records)).filter (isTaken g)).length =
      (keyed records).length - (newKeys g (keyed records)).length := by
    omega
  rw [g.merge_of_ne_reject fun h => DuplicatePolicy.noConfusion h, ← hfolded, ← hadded]
  rfl

/-- **An overwriting import.** Fields of the graph keep their places, identifiers, keys and
orders, and all else unless they are a record's node. The node of each record carries what the
record says; its parent is the node of the record's owner, or as it was. New nodes stand at the
end, in the order of their records and with consecutive orders, and every record is counted
once. -/
theorem merge_overwrite (g : FieldGraph) {fresh : Nat → String} {records : List Record}
    (hkeys : ((keyed records).map Keyed.key).Nodup)
    (hfresh : g.Supplied fresh (keyed records).length) :
    let batch := keyed records
    let result := g.merge .overwrite fresh records
    let after := result.graph.fields
    (∃ s, result.summary = .ok s ∧ s.overwritten + s.added + s.skipped = records.length) ∧
      (∀ i f, g.fields[i]? = some f → ∃ f', after[i]? = some f' ∧
        f'.id = f.id ∧ f'.key = f.key ∧ f'.order = f.order ∧
        ((∀ k ∈ batch, nodePlace g batch k ≠ i) → f' = f)) ∧
      (∀ place k, batch[place]? = some k → ∃ node, after[nodePlace g batch k]? = some node ∧
        node.key = k.key ∧ Carries node k.record ∧
        (∀ j q, ownerPlace batch place k = some j → batch[j]? = some q →
          ∃ owner, after[nodePlace g batch q]? = some owner ∧ node.parent = some owner.id) ∧
        (ownerPlace batch place k = none →
          node.parent = (g.fields[nodePlace g batch k]?).bind Field.parent)) ∧
      (after.drop g.size).map (fun f => (f.key, f.order)) =
        (newKeys g batch).mapIdx fun i key => (key, (g.size : Int) + i) := by
  intro batch result after
  have hresult : result = ⟨.ok (g.mergeBatch .overwrite fresh records).1,
      (g.mergeBatch .overwrite fresh records).2⟩ := by
    change g.merge .overwrite fresh records = _
    unfold merge
    rw [if_neg fun h => DuplicatePolicy.noConfusion h.1]
  have hafter : after = mergedFields g fresh batch := congrArg (·.graph.fields) hresult
  refine ⟨⟨_, congrArg MergeResult.summary hresult, ?_⟩, ?_, ?_, ?_⟩
  · have hsplit := length_folded_add_others g (linked fresh g.size (keyed records))
    rw [length_linked] at hsplit
    have hrecords := length_keyed_add_keyless records
    change (List.length _) + (List.length _) + keyless records = _
    omega
  · intro i f hf
    rw [hafter]
    by_cases hnode : ∃ k ∈ batch, placeOf g.fields k.key = some i
    · obtain ⟨k, hk, hplace⟩ := hnode
      obtain ⟨place, hplaced⟩ := List.mem_iff_getElem?.mp hk
      refine ⟨_, getElem?_mergedFields_of_placeOf hfresh hkeys hplaced hplace hf, rfl, rfl, rfl,
        fun hne => ?_⟩
      exact absurd (nodePlace_of_placeOf hplace) (hne k hk)
    · push Not at hnode
      exact ⟨f, getElem?_mergedFields_of_forall_ne hfresh hf hnode, rfl, rfl, rfl, fun _ => rfl⟩
  · intro place k hk
    rw [hafter]
    obtain ⟨node, hnode, -, hkey, hcarries, howner, hroot⟩ := exists_node hfresh hkeys hk
    refine ⟨node, hnode, hkey, hcarries, ?_, hroot⟩
    intro j q hj hq
    obtain ⟨owner, hget, hid, -⟩ := exists_node hfresh hkeys hq
    exact ⟨owner, hget, hid ▸ howner j q hj hq⟩
  · rw [hafter]
    exact map_drop_mergedFields g fresh batch

/-- A batch whose first record is new and hangs below a later one that is old, whose second is
old and moves below the first, and whose others find no parent: one names itself and one a
record that has no key. The last field of the graph is no record's node. -/
theorem merge_overwrite_of_crossing_links :
    let g : FieldGraph := ⟨[
      { id := "1", key := "items", type := .array, order := 7 },
      { id := "2", key := "sku", order := 5, parent := some "1" },
      { id := "3", key := "qty", order := 6, parent := some "1" },
      { id := "4", key := "sku", order := 8, parent := some "2" }]⟩
    let records : List Record := [
      { key := some "line", parentKey := some "i", type := some "object" },
      { key := some "sku", parentKey := some "line", required := some true },
      { batchRef := some "keyless" },
      { key := some "items", batchRef := some "i", parentKey := some "i" },
      { key := some "qty", batchRef := some "i", parentKey := some "keyless" }]
    let fresh := (["a", "b", "c", "d"].getD · "")
    let result := g.merge .overwrite fresh records
    ((keyed records).map Keyed.key).Nodup ∧ g.Supplied fresh (keyed records).length ∧
      result.graph.fields.map (fun f => (f.id, f.key, f.order, f.parent)) =
        [("1", "items", 7, none), ("2", "sku", 5, some "a"), ("3", "qty", 6, some "1"),
          ("4", "sku", 8, some "2"), ("a", "line", 4, some "1")] ∧
      (result.graph.fields.drop 4).map (fun f => (f.key, f.order)) = [("line", 4)] ∧
      ∃ s, result.summary = .ok s ∧ s.overwritten + s.added + s.skipped = 5 := by
  intro g records fresh result
  have hkeys : ((keyed records).map Keyed.key).Nodup := by decide
  have hfresh : g.Supplied fresh (keyed records).length :=
    ⟨by decide +kernel, by decide +kernel⟩
  obtain ⟨hsummary, -, -, hnew⟩ := g.merge_overwrite hkeys hfresh
  exact ⟨hkeys, hfresh, by decide +kernel, hnew.trans (by decide +kernel), hsummary⟩

end FieldGraph

end ExtractionContract
