import ExtractionContract.Proofs.Graph.Cycles
import ExtractionContract.Proofs.Import.Overwrite

/-!
# Cycles and overwriting imports

After a merge under `overwrite` each field has the parent that it had, or hangs below the node
of a record's owner (`link_of_mem_mergedFields`). Neither the links that there were nor those of
the batch need form a cycle for the two to form one together: a batch may hang a field of the
graph below a field that the graph has below it, and that keeps its parent because its own
record names none.

* `nodeId`, `NodeLink`: the links of a batch, led over to the fields that records stand for.
* `FieldGraph.overwrite_closes_cycle`: such a batch.
* `FieldGraph.cycles_merge_overwrite`: this is the only way. Every cycle is made of links of
  both kinds, and there is none unless a field that gets no new parent lies below one that does.

Records with one key stand for one field if the graph has the key, and of their links the last one
counts. Links that form no cycle from record to record may then form one from field to field
(`FieldGraph.overwrite_folds_onto_itself`); a batch of which no two records have a key that the
graph has is not of this kind (`nodeLink_acyclic_of_ownerLink`).
-/

namespace ExtractionContract

open Relation

namespace Merge

/-! ### The links of a batch between fields -/

/-- The identifier of a record's node: that of the first field that has its key, or the one
drawn for it. -/
def nodeId (g : FieldGraph) (fresh : Nat → String) (place : Nat) (k : Keyed) : String :=
  ((g.fields.find? fun h => h.key == k.key).map Field.id).getD (fresh place)

/-- No record after a place has the given node and an owner. -/
def LastOwned (g : FieldGraph) (fresh : Nat → String) (batch : List Keyed) (place : Nat)
    (node : String) : Prop :=
  ∀ later k, place < later → batch[later]? = some k → nodeId g fresh later k = node →
    ownerPlace batch later k = none

/-- One identifier is that of a record's node, and another that of its owner's node. Of several
records with one node the last one that has an owner counts. -/
def NodeLink (g : FieldGraph) (fresh : Nat → String) (batch : List Keyed) (a b : String) : Prop :=
  ∃ place j k q, batch[place]? = some k ∧ ownerPlace batch place k = some j ∧
    LastOwned g fresh batch place a ∧ batch[j]? = some q ∧ nodeId g fresh place k = a ∧
    nodeId g fresh j q = b

/-- One identifier is that of the node of a record without a link, or the graph has it above such
a node. -/
def Settled (g : FieldGraph) (fresh : Nat → String) (batch : List Keyed) (a : String) : Prop :=
  ∃ place k, batch[place]? = some k ∧ (∀ b, ¬NodeLink g fresh batch (nodeId g fresh place k) b) ∧
    ReflTransGen g.Hangs (nodeId g fresh place k) a

/-- No two records have a key that the graph has. -/
def FoldsOnce (g : FieldGraph) (batch : List Keyed) : Prop :=
  ∀ (i j : Nat) (k q : Keyed), batch[i]? = some k → batch[j]? = some q → k.key = q.key →
    (placeOf g.fields k.key).isSome → i = j

/-- Entries that a function tells apart stand at one place if it gives the same for them. -/
theorem place_unique {α β : Type} (φ : α → β) {l : List α} (h : (l.map φ).Nodup) {i j : Nat}
    {a b : α} (ha : l[i]? = some a) (hb : l[j]? = some b) (hab : φ a = φ b) : i = j := by
  have hi : (l.map φ)[i]? = some (φ a) := by rw [List.getElem?_map, ha]; rfl
  have hj : (l.map φ)[j]? = some (φ a) := by rw [List.getElem?_map, hb, hab]; rfl
  obtain ⟨hilt, hi⟩ := List.getElem?_eq_some_iff.mp hi
  obtain ⟨hjlt, hj⟩ := List.getElem?_eq_some_iff.mp hj
  exact h.getElem_inj_iff.mp (hi.trans hj.symm)

theorem FoldsOnce.of_nodup {g : FieldGraph} {batch : List Keyed}
    (h : (batch.map Keyed.key).Nodup) : FoldsOnce g batch :=
  fun _ _ _ _ hk hq hkey _ => place_unique Keyed.key h hk hq hkey

/-- Owners ranked below their records make no cycle. -/
theorem ownerLink_acyclic_of_rank {batch : List Keyed} (rank : Nat → Nat)
    (h : ∀ i, (hi : i < batch.length) → ∀ j ∈ ownerPlace batch i batch[i], rank j < rank i)
    (i : Nat) : ¬TransGen (OwnerLink batch) i i := by
  refine not_transGen_of_rank rank ?_
  rintro c d ⟨k, hk, hd⟩
  obtain ⟨hc, rfl⟩ := List.getElem?_eq_some_iff.mp hk
  exact h c hc d hd

section

variable {g : FieldGraph} {fresh : Nat → String} {batch : List Keyed}

theorem surviving_fieldAt (place : Nat) (k : Keyed) :
    surviving g (fieldAt g fresh batch place k) = nodeId g fresh place k :=
  rfl

/-- An owner's record is there, so the last owned record of a node gives it a link. -/
theorem nodeLink_of_lastOwned {place j : Nat} {k : Keyed} (hk : batch[place]? = some k)
    (hj : ownerPlace batch place k = some j)
    (hlast : LastOwned g fresh batch place (nodeId g fresh place k)) :
    ∃ q, batch[j]? = some q ∧
      NodeLink g fresh batch (nodeId g fresh place k) (nodeId g fresh j q) := by
  have hlt : j < batch.length := ownerPlace_lt hj
  have hq : batch[j]? = some batch[j] := List.getElem?_eq_getElem hlt
  exact ⟨batch[j], hq, place, j, k, batch[j], hk, hj, hlast, hq, rfl, rfl⟩

/-- The node of a record with an owner has a link. -/
theorem exists_nodeLink (g : FieldGraph) (fresh : Nat → String) {place j : Nat} {k : Keyed}
    (hk : batch[place]? = some k) (hj : ownerPlace batch place k = some j) :
    ∃ b, NodeLink g fresh batch (nodeId g fresh place k) b := by
  by_cases hlast : LastOwned g fresh batch place (nodeId g fresh place k)
  · obtain ⟨q, -, hlink⟩ := nodeLink_of_lastOwned hk hj hlast
    exact ⟨_, hlink⟩
  · -- Otherwise a later record has the node and an owner.
    unfold LastOwned at hlast
    push Not at hlast
    obtain ⟨later, k', hlt, hk', hnode, howner⟩ := hlast
    obtain ⟨j', hj'⟩ := Option.ne_none_iff_exists'.mp howner
    have hbound : later < batch.length := (List.getElem?_eq_some_iff.mp hk').1
    exact hnode ▸ exists_nodeLink g fresh hk' hj'
termination_by batch.length - place

/-- A node is new, or it is the field that the record's key leads to. -/
theorem nodeId_cases (g : FieldGraph) (fresh : Nat → String) (place : Nat) (k : Keyed) :
    (placeOf g.fields k.key = none ∧ nodeId g fresh place k = fresh place) ∨
      ∃ i old, placeOf g.fields k.key = some i ∧ g.fields[i]? = some old ∧
        nodeId g fresh place k = old.id := by
  cases hplace : placeOf g.fields k.key with
  | none =>
    refine .inl ⟨rfl, ?_⟩
    rw [nodeId, find?_eq_none_of_placeOf hplace]
    rfl
  | some i =>
    obtain ⟨old, hold, -⟩ := exists_of_placeOf hplace
    refine .inr ⟨i, old, rfl, hold, ?_⟩
    rw [nodeId, find?_eq_of_placeOf hplace, hold]
    rfl

end

/-! ### The parent of an overwritten field -/

/-- The parent that a field of a batch brings to a place, if its key leads there. -/
def parentAt (fs : List Field) (i : Nat) (new : Field) : Option String :=
  if placeOf fs new.key = some i then new.parent else none

theorem getLast?_filterMap_cons {α β : Type} (φ : α → Option β) (a : α) (l : List α) :
    ((a :: l).filterMap φ).getLast? = (l.filterMap φ).getLast?.or (φ a) := by
  cases h : φ a with
  | none => rw [List.filterMap_cons_none h, Option.or_none]
  | some b =>
    rw [List.filterMap_cons_some h, List.getLast?_cons]
    cases (l.filterMap φ).getLast? <;> rfl

/-- What stands last in a list of values comes from an entry behind which none has a value. -/
theorem exists_of_getLast?_filterMap {α β : Type} {φ : α → Option β} {l : List α} {b : β}
    (h : (l.filterMap φ).getLast? = some b) :
    ∃ front a later, l = front ++ a :: later ∧ φ a = some b ∧ ∀ x ∈ later, φ x = none := by
  obtain ⟨before, hsplit⟩ := List.getLast?_eq_some_iff.mp h
  obtain ⟨l₁, l₂, rfl, -, hlast⟩ := List.filterMap_eq_append_iff.mp hsplit
  obtain ⟨front, a, later, rfl, -, ha, hlater⟩ := List.filterMap_eq_cons_iff.mp hlast
  exact ⟨l₁ ++ front, a, later, (List.append_assoc ..).symm, ha,
    List.filterMap_eq_nil_iff.mp hlater⟩

/-- What a key leads to is taken. -/
theorem filterMap_parentAt_taken (g : FieldGraph) (i : Nat) (fs : List Field) :
    (fs.filter (isTaken g)).filterMap (parentAt g.fields i) =
      fs.filterMap (parentAt g.fields i) := by
  rw [List.filterMap_filter]
  refine List.filterMap_congr fun f _ => ?_
  split
  · rfl
  · next hnew =>
    rw [isTaken_eq_isSome, Bool.not_eq_true, Option.isSome_eq_false_iff,
      Option.isNone_iff_eq_none] at hnew
    rw [parentAt, hnew, if_neg (Option.some_ne_none i).symm]

/-- **A field that has been overwritten** has the last of the parents that are brought to it, or
its own if none is. -/
theorem parent_foldl {folded fs : List Field} {i : Nat} {f : Field}
    (h : (folded.foldl (fun fs f => overwriteFirst f fs) fs)[i]? = some f) :
    ∃ old, fs[i]? = some old ∧ f.id = old.id ∧
      f.parent = (folded.filterMap (parentAt fs i)).getLast?.or old.parent := by
  induction folded generalizing fs with
  | nil => exact ⟨f, h, rfl, rfl⟩
  | cons new rest ih =>
    rw [List.foldl_cons] at h
    obtain ⟨f₁, hf₁, hid, hparent⟩ := ih h
    -- Overwriting keeps keys, so every later field finds the place that it would have found before.
    have hplaces : parentAt (overwriteFirst new fs) i = parentAt fs i := by
      funext later
      rw [parentAt, placeOf_congr (map_key_overwriteFirst new fs), parentAt]
    rw [hplaces] at hparent
    rw [getElem?_overwriteFirst] at hf₁
    simp only [getLast?_filterMap_cons, Option.or_assoc]
    split at hf₁
    · -- The first field of the batch is folded into this one.
      next hnew =>
      obtain ⟨old, hold, rfl⟩ := Option.map_eq_some_iff.mp hf₁
      refine ⟨old, hold, hid, ?_⟩
      rw [parentAt, if_pos hnew]
      exact hparent
    · next hnew =>
      refine ⟨f₁, hf₁, hid, ?_⟩
      rw [parentAt, if_neg hnew, Option.none_or]
      exact hparent

theorem parentAt_fieldAt {g : FieldGraph} {i : Nat} {k : Keyed}
    (hkey : placeOf g.fields k.key = some i) (fresh : Nat → String) (batch : List Keyed)
    (place : Nat) : parentAt g.fields i (fieldAt g fresh batch place k) =
      (ownerPlace batch place k).map fresh :=
  if_pos hkey

section

variable {g : FieldGraph} {fresh : Nat → String} {batch : List Keyed}
  (hids : g.ids.Nodup) (hfresh : g.Supplied fresh batch.length)

include hfresh

theorem exists_fieldAt {place : Nat} {f : Field}
    (hf : (linked fresh g.size batch)[place]? = some f) :
    ∃ k, batch[place]? = some k ∧ f = fieldAt g fresh batch place k := by
  have hlt : place < batch.length := by
    have hlength := (List.getElem?_eq_some_iff.mp hf).1
    rwa [length_linked] at hlength
  have hk : batch[place]? = some batch[place] := List.getElem?_eq_getElem hlt
  rw [getElem?_linked hfresh hk] at hf
  exact ⟨batch[place], hk, (Option.some.inj hf).symm⟩

/-- A node that is new is no field that was there. -/
theorem ne_fresh_of_mem {place i : Nat} {k : Keyed} {old : Field} (hk : batch[place]? = some k)
    (hold : g.fields[i]? = some old) : old.id ≠ fresh place := by
  intro hid
  refine hfresh.notMem_ids (List.getElem?_eq_some_iff.mp hk).1 ?_
  exact hid ▸ List.mem_map_of_mem (List.mem_of_getElem? hold)

/-- The link of a field made of a record with an owner. -/
theorem nodeLink_of_parent {place : Nat} {k : Keyed} {f : Field} {p : String}
    (hk : batch[place]? = some k)
    (hlast : LastOwned g fresh batch place (nodeId g fresh place k))
    (hf : f.parent = (ownerPlace batch place k).map fresh)
    (hp : (redirect (redirected g fresh batch) f).parent = some p) :
    NodeLink g fresh batch (nodeId g fresh place k) p := by
  cases hj : ownerPlace batch place k with
  | none =>
    rw [redirect, hf, hj] at hp
    exact absurd hp (Option.some_ne_none p).symm
  | some j =>
    obtain ⟨q, hq, hlink⟩ := nodeLink_of_lastOwned hk hj hlast
    rw [parent_redirect_of_owner hfresh hf hj hq, Option.some_inj, surviving_fieldAt] at hp
    exact hp ▸ hlink

/-- A new node has one record. -/
theorem lastOwned_of_new {place : Nat} {k : Keyed} (hk : batch[place]? = some k) :
    LastOwned g fresh batch place (fresh place) := by
  intro later k' hlt hk' hnode
  rcases nodeId_cases g fresh later k' with ⟨-, hnew⟩ | ⟨i, old, -, hold, hnode'⟩
  · have hsame := hfresh.inj later (List.getElem?_eq_some_iff.mp hk').1 place
      (List.getElem?_eq_some_iff.mp hk).1 (hnew.symm.trans hnode)
    omega
  · exact absurd (hnode'.symm.trans hnode) (ne_fresh_of_mem hfresh hk hold)

include hids

/-- The key of a record whose node was there leads to the node. -/
theorem placeOf_of_nodeId {place i : Nat} {k : Keyed} {old : Field} (hk : batch[place]? = some k)
    (hold : g.fields[i]? = some old) (hnode : nodeId g fresh place k = old.id) :
    placeOf g.fields k.key = some i := by
  rcases nodeId_cases g fresh place k with ⟨-, hnew⟩ | ⟨i', old', hplace, hold', hnode'⟩
  · exact absurd (hnode.symm.trans hnew) (ne_fresh_of_mem hfresh hk hold)
  · obtain rfl : i' = i := place_unique Field.id hids hold' hold (hnode'.symm.trans hnode)
    exact hplace

/-- The last parent that a batch brings to a place is that of the last owned record whose key leads
there. -/
theorem exists_lastOwned {i : Nat} {old : Field} (hold : g.fields[i]? = some old) {p : String}
    (h : ((linked fresh g.size batch).filterMap (parentAt g.fields i)).getLast? = some p) :
    ∃ place k, batch[place]? = some k ∧ nodeId g fresh place k = old.id ∧
      LastOwned g fresh batch place old.id ∧ (ownerPlace batch place k).map fresh = some p := by
  obtain ⟨front, new, later, hsplit, hnew, hlater⟩ := exists_of_getLast?_filterMap h
  have hplace : (linked fresh g.size batch)[front.length]? = some new := by
    rw [hsplit, List.getElem?_append_right (Nat.le_refl _), Nat.sub_self, List.getElem?_cons_zero]
  obtain ⟨k, hk, rfl⟩ := exists_fieldAt hfresh hplace
  unfold parentAt at hnew
  split at hnew
  · next hkey =>
    refine ⟨front.length, k, hk, surviving_of_placeOf hkey hold, ?_, hnew⟩
    intro place' k' hlt hk' hnode
    -- The field of a later record stands behind this one, and brings no parent.
    have hmem : fieldAt g fresh batch place' k' ∈ later := by
      have hfield := getElem?_linked hfresh hk'
      rw [hsplit, List.getElem?_append_right (Nat.le_of_lt hlt), List.getElem?_cons] at hfield
      rw [if_neg (by omega)] at hfield
      exact List.mem_of_getElem? hfield
    have hnone := hlater _ hmem
    rw [parentAt_fieldAt (placeOf_of_nodeId hids hfresh hk' hold hnode)] at hnone
    exact Option.map_eq_none_iff.mp hnone
  · exact absurd hnew (Option.some_ne_none p).symm

/-- A field that was there has a link of the batch, or keeps its own if the batch has none for it. -/
theorem link_of_overwritten {i : Nat} {f : Field}
    (hf : (((linked fresh g.size batch).filter (isTaken g)).foldl
      (fun fs f => overwriteFirst f fs) g.fields)[i]? = some f) {p : String}
    (hp : (redirect (redirected g fresh batch) f).parent = some p) :
    NodeLink g fresh batch f.id p ∨
      (g.Hangs f.id p ∧ ∀ q, ¬NodeLink g fresh batch f.id q) := by
  obtain ⟨old, hold, hid, hparent⟩ := parent_foldl hf
  rw [filterMap_parentAt_taken] at hparent
  rw [hid]
  cases hbrought : ((linked fresh g.size batch).filterMap (parentAt g.fields i)).getLast? with
  | some p' =>
    -- The parent is that of the last owned record with this field's key.
    obtain ⟨place, k, hk, hnode, hlast, howner⟩ := exists_lastOwned hids hfresh hold hbrought
    rw [hbrought, Option.some_or, ← howner] at hparent
    rw [← hnode] at hlast
    exact .inl (hnode ▸ nodeLink_of_parent hfresh hk hlast hparent hp)
  | none =>
    rw [hbrought, Option.none_or] at hparent
    have hmem : old ∈ g.fields := List.mem_of_getElem? hold
    -- The old parent is a name in use, so it is not redirected.
    rw [redirect_eq_self fun p hp =>
      parent_notMem_id_linked hfresh hmem (hparent ▸ hp), hparent] at hp
    refine .inr ⟨.of_mem hids hmem hp, ?_⟩
    rintro q ⟨place, j, k, owner, hk, hj, -, -, hnode, -⟩
    -- A record with a link and this field's key would have brought it a parent.
    have hnone := List.filterMap_eq_nil_iff.mp (List.getLast?_eq_none_iff.mp hbrought) _
      (List.mem_of_getElem? (getElem?_linked hfresh hk))
    rw [parentAt_fieldAt (placeOf_of_nodeId hids hfresh hk hold hnode), hj] at hnone
    exact absurd hnone (Option.some_ne_none _)

omit hids in
/-- A field that is left over is its record's node, and what link it has is of the batch. -/
theorem nodeLink_of_leftover {f : Field}
    (hf : f ∈ (linked fresh g.size batch).filter fun f => !isTaken g f) {p : String}
    (hp : (redirect (redirected g fresh batch) f).parent = some p) :
    NodeLink g fresh batch f.id p := by
  obtain ⟨hlinked, hnew⟩ := List.mem_filter.mp hf
  obtain ⟨place, hplace⟩ := List.mem_iff_getElem?.mp hlinked
  obtain ⟨k, hk, rfl⟩ := exists_fieldAt hfresh hplace
  rw [isTaken_eq_isSome, Bool.not_eq_true', Option.isSome_eq_false_iff,
    Option.isNone_iff_eq_none] at hnew
  have hnode : nodeId g fresh place k = fresh place := surviving_of_new hnew
  have hlast : LastOwned g fresh batch place (nodeId g fresh place k) :=
    hnode ▸ lastOwned_of_new hfresh hk
  change NodeLink g fresh batch (fresh place) p
  exact hnode ▸ nodeLink_of_parent hfresh hk hlast rfl hp

/-- **Every link after the merge** is one of the batch, or one that was there and that the batch
has no link in place of. -/
theorem link_of_mem_mergedFields {f : Field} (hf : f ∈ mergedFields g fresh batch) {p : String}
    (hp : f.parent = some p) :
    NodeLink g fresh batch f.id p ∨
      (g.Hangs f.id p ∧ ∀ q, ¬NodeLink g fresh batch f.id q) := by
  rcases List.mem_append.mp hf with hf | hf
  · obtain ⟨f', hf', rfl⟩ := List.mem_map.mp hf
    obtain ⟨i, hi⟩ := List.mem_iff_getElem?.mp hf'
    exact link_of_overwritten hids hfresh hi hp
  · obtain ⟨_, hmem, order, rfl⟩ := exists_of_mem_renumber hf
    obtain ⟨f', hf', rfl⟩ := List.mem_map.mp hmem
    exact .inl (nodeLink_of_leftover hfresh hf' hp)

/-- **Records with different keys stand for different fields**, and so do records with one key
that the graph does not have. -/
theorem nodeId_inj (hkeys : FoldsOnce g batch)
    {i j : Nat} {k q : Keyed} (hk : batch[i]? = some k) (hq : batch[j]? = some q)
    (h : nodeId g fresh i k = nodeId g fresh j q) : i = j := by
  rcases nodeId_cases g fresh i k with ⟨-, hi⟩ | ⟨p, old, hp, hold, hi⟩ <;>
    rcases nodeId_cases g fresh j q with ⟨-, hj⟩ | ⟨p', old', hp', hold', hj⟩ <;>
    rw [hi, hj] at h
  · exact hfresh.inj i (List.getElem?_eq_some_iff.mp hk).1 j (List.getElem?_eq_some_iff.mp hq).1 h
  · exact absurd h.symm (ne_fresh_of_mem hfresh hk hold')
  · exact absurd h (ne_fresh_of_mem hfresh hq hold)
  · -- One field, so one key leads to it.
    obtain rfl : p = p' := place_unique Field.id hids hold hold' h
    exact hkeys i j k q hk hq (placeOf_inj hp hp') (Option.isSome_of_eq_some hp)

/-- **Links between fields form no cycle** if those between records form none and no two records
have a key that the graph has. -/
theorem nodeLink_acyclic_of_ownerLink (hkeys : FoldsOnce g batch)
    (hbatch : ∀ i, ¬TransGen (OwnerLink batch) i i) (id : String) :
    ¬TransGen (NodeLink g fresh batch) id id := by
  -- A walk from field to field comes from one from record to record.
  have hwalk : ∀ {a b}, TransGen (NodeLink g fresh batch) a b →
      ∃ i j k q, batch[i]? = some k ∧ batch[j]? = some q ∧ nodeId g fresh i k = a ∧
        nodeId g fresh j q = b ∧ TransGen (OwnerLink batch) i j := by
    intro a b hab
    induction hab with
    | single hlink =>
      obtain ⟨i, j, k, q, hk, hj, -, hq, ha, hb⟩ := hlink
      exact ⟨i, j, k, q, hk, hq, ha, hb, .single ⟨k, hk, hj⟩⟩
    | tail _ hlink ih =>
      obtain ⟨i, j, k, q, hk, hq, ha, hb, hij⟩ := ih
      obtain ⟨j', l, q', o, hq', hl, -, ho, hb', hc⟩ := hlink
      obtain rfl : j = j' := nodeId_inj hids hfresh hkeys hq hq' (hb.trans hb'.symm)
      exact ⟨i, l, k, o, hk, ho, ha, hc, hij.tail ⟨q', hq', hl⟩⟩
  intro hcycle
  obtain ⟨i, j, k, q, hk, hq, ha, hb, hij⟩ := hwalk hcycle
  obtain rfl : i = j := nodeId_inj hids hfresh hkeys hk hq (ha.trans hb.symm)
  exact hbatch i hij

end

end Merge

namespace FieldGraph

open Merge

variable {g : FieldGraph} {fresh : Nat → String} {records : List Record}

theorem fields_merge_overwrite (g : FieldGraph) (fresh : Nat → String) (records : List Record) :
    (g.merge .overwrite fresh records).graph.fields = mergedFields g fresh (keyed records) := by
  rw [g.merge_of_ne_reject fun h => DuplicatePolicy.noConfusion h]
  rfl

section

variable (hids : g.ids.Nodup) (hfresh : g.Supplied fresh (keyed records).length)

include hids hfresh

/-- A step up after the merge is along a link of the batch, or one that was kept. -/
theorem link_of_hangs_merge {a b : String}
    (h : (g.merge .overwrite fresh records).graph.Hangs a b) :
    NodeLink g fresh (keyed records) a b ∨
      (g.Hangs a b ∧ ∀ c, ¬NodeLink g fresh (keyed records) a c) := by
  obtain ⟨f, hf, rfl, hp⟩ := h.exists_mem
  rw [fields_merge_overwrite] at hf
  exact link_of_mem_mergedFields hids hfresh hf hp

variable (hgraph : g.Acyclic) (hbatch : ∀ id, ¬TransGen (NodeLink g fresh (keyed records)) id id)

include hgraph in
/-- A cycle passes a link of the batch. -/
theorem exists_nodeLink_of_cycle {id : String}
    (h : TransGen (g.merge .overwrite fresh records).graph.Hangs id id) :
    ∃ a b, ReflTransGen (g.merge .overwrite fresh records).graph.Hangs id a ∧
      (g.merge .overwrite fresh records).graph.Hangs a b ∧
      NodeLink g fresh (keyed records) a b := by
  by_contra hnone
  push Not at hnone
  refine hgraph id (transGen_of_forall h fun a b hreach hab => ?_)
  rcases link_of_hangs_merge hids hfresh hab with hlink | ⟨hold, -⟩
  · exact absurd hlink (hnone a b hreach hab)
  · exact hold

include hbatch in
/-- A cycle passes a link that was kept. -/
theorem exists_kept_of_cycle {id : String}
    (h : TransGen (g.merge .overwrite fresh records).graph.Hangs id id) :
    ∃ a b, ReflTransGen (g.merge .overwrite fresh records).graph.Hangs id a ∧
      (g.merge .overwrite fresh records).graph.Hangs a b ∧ g.Hangs a b ∧
      ∀ c, ¬NodeLink g fresh (keyed records) a c := by
  by_contra hnone
  push Not at hnone
  refine hbatch id (transGen_of_forall h fun a b hreach hab => ?_)
  rcases link_of_hangs_merge hids hfresh hab with hlink | ⟨hold, hnew⟩
  · exact hlink
  · obtain ⟨c, hc⟩ := hnone a b hreach hab hold
    exact absurd hc (hnew c)

/-- A step up from a settled identifier is one that was there, and leads to a settled one, if no
settled identifier has a link. -/
theorem Settled.step (hsettled : ∀ a, Settled g fresh (keyed records) a →
      ∀ b, ¬NodeLink g fresh (keyed records) a b) {a b : String}
    (ha : Settled g fresh (keyed records) a)
    (hab : (g.merge .overwrite fresh records).graph.Hangs a b) :
    g.Hangs a b ∧ Settled g fresh (keyed records) b := by
  rcases link_of_hangs_merge hids hfresh hab with hlink | ⟨hold, -⟩
  · exact absurd hlink (hsettled a ha b)
  · obtain ⟨place, k, hk, hnone, hup⟩ := ha
    exact ⟨hold, place, k, hk, hnone, hup.tail hold⟩

include hgraph hbatch in
/-- **There is no cycle** if no settled identifier has a link of the batch. -/
theorem acyclic_merge_of_settled (hsettled : ∀ a, Settled g fresh (keyed records) a →
      ∀ b, ¬NodeLink g fresh (keyed records) a b) :
    (g.merge .overwrite fresh records).graph.Acyclic := by
  intro id hcycle
  have hunique : Relator.RightUnique (g.merge .overwrite fresh records).graph.Hangs :=
    Hangs.rightUnique
  -- The walk begins at the node of an owner, where a link of the batch leads.
  obtain ⟨a, b, hreach, hab, hlink⟩ := exists_nodeLink_of_cycle hids hfresh hgraph hcycle
  have hcycleB : TransGen (g.merge .overwrite fresh records).graph.Hangs b b :=
    transGen_of_reachable hunique hcycle (hreach.tail hab)
  -- From there on it goes from node to node until it comes to a settled identifier.
  have hpass : ∀ {c}, ReflTransGen (g.merge .overwrite fresh records).graph.Hangs b c →
      (∃ place k, (keyed records)[place]? = some k ∧ nodeId g fresh place k = c) ∨
        Settled g fresh (keyed records) c := by
    intro c hc
    induction hc with
    | refl =>
      obtain ⟨-, j, -, q, -, -, -, hq, -, hb⟩ := hlink
      exact .inl ⟨j, q, hq, hb⟩
    | tail _ hstep ih =>
      rcases link_of_hangs_merge hids hfresh hstep with hlink | ⟨hold, hnone⟩
      · obtain ⟨-, j, -, q, -, -, -, hq, -, hd⟩ := hlink
        exact .inl ⟨j, q, hq, hd⟩
      · rcases ih with ⟨place, k, hk, rfl⟩ | hsettledC
        · exact .inr ⟨place, k, hk, hnone, .single hold⟩
        · exact .inr (Settled.step hids hfresh hsettled hsettledC hstep).2
  -- It comes to one, because the links of the batch alone form no cycle.
  obtain ⟨c, d, hbc, -, -, hnone⟩ := exists_kept_of_cycle hids hfresh hbatch hcycleB
  have hc : Settled g fresh (keyed records) c := by
    rcases hpass hbc with ⟨place, k, hk, rfl⟩ | hc
    · exact ⟨place, k, hk, hnone, .refl⟩
    · exact hc
  -- And then it never leaves the links that were there.
  have hstay : ∀ {x}, ReflTransGen (g.merge .overwrite fresh records).graph.Hangs c x →
      Settled g fresh (keyed records) x := by
    intro x hx
    induction hx with
    | refl => exact hc
    | tail _ hstep ih => exact (Settled.step hids hfresh hsettled ih hstep).2
  refine hgraph c (transGen_of_forall (transGen_of_reachable hunique hcycleB hbc) ?_)
  exact fun x y hx hxy => (Settled.step hids hfresh hsettled (hstay hx) hxy).1

end

/-- **Overwriting makes a cycle only of links of both kinds.** Where neither the links of the
graph form a cycle nor those of the batch, records that stand for one field taken as one with the
last link of theirs, no field becomes its own parent; a cycle after the merge passes a link of the
batch and a link that was kept; and there is none unless a record's node that gets no new parent
lies, in the graph, below one that does. -/
theorem cycles_merge_overwrite (hids : g.ids.Nodup)
    (hfresh : g.Supplied fresh (keyed records).length) (hgraph : g.Acyclic)
    (hbatch : ∀ id, ¬TransGen (NodeLink g fresh (keyed records)) id id) :
    let link := NodeLink g fresh (keyed records)
    let after := (g.merge .overwrite fresh records).graph
    (∀ f ∈ after.fields, f.parent ≠ some f.id) ∧
      (∀ id, TransGen after.Hangs id id →
        (∃ a b, ReflTransGen after.Hangs id a ∧ after.Hangs a b ∧ link a b) ∧
          ∃ a b, ReflTransGen after.Hangs id a ∧ after.Hangs a b ∧ g.Hangs a b ∧ ∀ c, ¬link a c) ∧
      ((∀ (place : Nat) (k : Keyed), (keyed records)[place]? = some k →
          (∀ c, ¬link (nodeId g fresh place k) c) →
          ∀ b, TransGen g.Hangs (nodeId g fresh place k) b → ∀ c, ¬link b c) →
        after.Acyclic) := by
  intro link after
  refine ⟨?_, ?_, ?_⟩
  · intro f hf hself
    rw [fields_merge_overwrite] at hf
    rcases link_of_mem_mergedFields hids hfresh hf hself with hlink | ⟨hold, -⟩
    · exact hbatch f.id (.single hlink)
    · exact hgraph f.id (.single hold)
  · intro id hcycle
    exact ⟨exists_nodeLink_of_cycle hids hfresh hgraph hcycle,
      exists_kept_of_cycle hids hfresh hbatch hcycle⟩
  · intro hbelow
    refine acyclic_merge_of_settled hids hfresh hgraph hbatch ?_
    rintro a ⟨place, k, hk, hnone, hup⟩
    rcases reflTransGen_iff_eq_or_transGen.mp hup with rfl | hup
    · exact hnone
    · exact hbelow place k hk hnone a hup

/-- **Links that form no cycle apart may form one together.** The field `order` has `line` below
it. A batch that hangs `order` below `line`, and says nothing of where `line` belongs, leaves
each of the two below the other. -/
theorem overwrite_closes_cycle :
    let g : FieldGraph := ⟨[
      { id := "1", key := "order" },
      { id := "2", key := "line", parent := some "1" }]⟩
    let records : List Record := [
      { key := some "order", parentKey := some "line" },
      { key := some "line" }]
    let fresh := (["a", "b"].getD · "")
    g.ids.Nodup ∧ g.Supplied fresh (keyed records).length ∧ g.Acyclic ∧
      (∀ i, ¬TransGen (OwnerLink (keyed records)) i i) ∧
      ¬(g.merge .overwrite fresh records).graph.Acyclic := by
  intro g records fresh
  refine ⟨by decide, ⟨by decide, by decide⟩, ?_, ?_, ?_⟩
  · exact Acyclic.of_rank (fun id => if id = "2" then 1 else 0) (by decide)
  · exact ownerLink_acyclic_of_rank (fun place => 1 - place) (by decide +kernel)
  · intro h
    have hup : (g.merge .overwrite fresh records).graph.Hangs "1" "2" :=
      hangs_iff.mpr (by decide +kernel)
    have hdown : (g.merge .overwrite fresh records).graph.Hangs "2" "1" :=
      hangs_iff.mpr (by decide +kernel)
    exact h "1" (.tail (.single hup) hdown)

/-- **Folding may close a cycle by itself.** The second of two records for `line` names the first as
its parent. As records they form no cycle, but both stand for the field that the graph has. -/
theorem overwrite_folds_onto_itself :
    let g : FieldGraph := ⟨[{ id := "1", key := "line" }]⟩
    let records : List Record := [
      { key := some "line" },
      { key := some "line", parentKey := some "line" }]
    let fresh := (["a", "b"].getD · "")
    g.ids.Nodup ∧ g.Supplied fresh (keyed records).length ∧ g.Acyclic ∧
      (∀ i, ¬TransGen (OwnerLink (keyed records)) i i) ∧
      (g.merge .overwrite fresh records).graph.fields = [
        { id := "1", key := "line", parent := some "1" }] := by
  intro g records fresh
  refine ⟨by decide, ⟨by decide, by decide⟩, ?_, ?_, by decide +kernel⟩
  · exact Acyclic.of_rank (fun _ => 0) (by decide)
  · exact ownerLink_acyclic_of_rank id (by decide +kernel)

/-- A batch that puts a new field between two that are there. -/
theorem cycles_merge_overwrite_of_new_level :
    let g : FieldGraph := ⟨[
      { id := "1", key := "items" },
      { id := "2", key := "sku", parent := some "1" },
      { id := "3", key := "qty", parent := some "1" }]⟩
    let records : List Record := [
      { key := some "sku", parentKey := some "line" },
      { key := some "line", parentKey := some "items" },
      { key := some "items" }]
    let fresh := (["a", "b", "c"].getD · "")
    let link := NodeLink g fresh (keyed records)
    let after := (g.merge .overwrite fresh records).graph
    g.ids.Nodup ∧ g.Supplied fresh (keyed records).length ∧ g.Acyclic ∧
      (∀ id, ¬TransGen link id id) ∧
      after.fields.map (fun f => (f.id, f.parent)) =
        [("1", none), ("2", some "b"), ("3", some "1"), ("b", some "1")] ∧
      (∀ f ∈ after.fields, f.parent ≠ some f.id) ∧ after.Acyclic := by
  intro g records fresh link after
  have hids : g.ids.Nodup := by decide
  have hfresh : g.Supplied fresh (keyed records).length := ⟨by decide, by decide⟩
  have hgraph : g.Acyclic :=
    Acyclic.of_rank (fun id => if id = "2" ∨ id = "3" then 1 else 0) (by decide)
  have hbatch : ∀ id, ¬TransGen link id id :=
    nodeLink_acyclic_of_ownerLink hids hfresh (.of_nodup (by decide))
      (ownerLink_acyclic_of_rank (fun place => 2 - place) (by decide +kernel))
  obtain ⟨hself, -, hacyclic⟩ := cycles_merge_overwrite hids hfresh hgraph hbatch
  refine ⟨hids, hfresh, hgraph, hbatch, by decide +kernel, hself, hacyclic ?_⟩
  intro place k hk hnone b hup
  -- Only `items` has no owner, and nothing is above it.
  have hroots : ∀ i, (hi : i < (keyed records).length) →
      ownerPlace (keyed records) i (keyed records)[i] = none →
        (g.get? (nodeId g fresh i (keyed records)[i])).bind Field.parent = none := by
    decide +kernel
  obtain ⟨hi, rfl⟩ := List.getElem?_eq_some_iff.mp hk
  have howner : ownerPlace (keyed records) place (keyed records)[place] = none := by
    rw [Option.eq_none_iff_forall_not_mem]
    intro j hj
    obtain ⟨b, hlink⟩ := exists_nodeLink g fresh hk hj
    exact hnone b hlink
  obtain ⟨d, hd, -⟩ := TransGen.head'_iff.mp hup
  rw [hangs_iff, hroots place hi howner] at hd
  exact absurd hd (Option.some_ne_none d).symm

end FieldGraph

end ExtractionContract
