import ExtractionContract.Proofs.Import.Overwrite

/-!
# The order of a batch

Where the records of a batch go by different names, a name leads to the record that goes by it,
wherever this stands. So no parent depends on the order of the batch: two imports of the same
records, with identifiers of their own, differ in identifiers and orders and in nothing else.

The two batches are compared name by name. `holder_cases_of_perm` is the one case analysis that
this takes: a name leads to no record of either batch, or to one record, at a place of each. From
it the fields correspond (`corresponds_fieldAt`), and so do their parents, because the name that a
record gives its parent is the same in both; `FieldGraph.merge_coexist_of_perm` is the whole of it.
-/

namespace ExtractionContract

namespace Merge

/-! ### Names that are different -/

/-- The parent that a record names and that is not found, by its name. -/
def unfound (batch : List Keyed) (k : Keyed) : Option String :=
  if ((k.record.parentKey.filter fun name => name ≠ nameOf k).bind (holder batch)).isNone then
    k.record.parentKey
  else none

section

variable {batch batch' : List Keyed} (hnames : (batch.map nameOf).Nodup)

include hnames

/-- A record stands at the place that its name leads to. -/
theorem holder_nameOf {place : Nat} {k : Keyed} (hk : batch[place]? = some k) :
    holder batch (nameOf k) = some place := by
  obtain ⟨hlt, rfl⟩ := List.getElem?_eq_some_iff.mp hk
  rw [holder, List.findIdx?_eq_some_iff_getElem]
  refine ⟨hlt, beq_iff_eq.mpr rfl, ?_⟩
  -- A record that stands before it goes by another name.
  intro i hi hname
  have hdiffer := List.pairwise_iff_getElem.mp (List.pairwise_map.mp hnames)
  exact hdiffer i place (Nat.lt_trans hi hlt) hlt hi (beq_iff_eq.mp hname)

/-- **The owner of a record** is the record that goes by the name, unless this is the name that the
record itself goes by. -/
theorem ownerPlace_eq_bind {place : Nat} {k : Keyed} (hk : batch[place]? = some k) :
    ownerPlace batch place k =
      (k.record.parentKey.filter fun name => name ≠ nameOf k).bind (holder batch) := by
  have hself : holder batch (nameOf k) = some place := holder_nameOf hnames hk
  rw [ownerPlace]
  cases k.record.parentKey with
  | none => rfl
  | some name =>
    rw [Option.bind_some]
    by_cases hname : name = nameOf k
    · rw [hname, hself, Option.filter_some_neg (by simp), Option.filter_some_neg (by simp)]
      rfl
    · rw [Option.filter_some_pos (by simpa using hname), Option.bind_some]
      cases hj : holder batch name with
      | none => rfl
      | some j =>
        -- Another name leads to another record.
        have hne : j ≠ place := by
          rintro rfl
          obtain ⟨k', hk', hname'⟩ := exists_of_holder hj
          obtain rfl : k = k' := Option.some.inj (hk.symm.trans hk')
          exact hname hname'.symm
        exact Option.filter_some_pos (by simpa using hne)

/-- The names of the parents not found, in the order of the records. -/
theorem map_fst_unresolved_eq_filterMap {fresh : Nat → String}
    (hinj : ∀ i < batch.length, ∀ j < batch.length, fresh i = fresh j → i = j) :
    (unresolved fresh batch).map Prod.fst = batch.filterMap (unfound batch) := by
  have hmap : (batch.mapIdx fun place k =>
      if (ownerPlace batch place k).isNone then k.record.parentKey else none) =
        batch.map (unfound batch) := by
    refine List.ext_getElem? fun place => ?_
    rw [List.getElem?_mapIdx, List.getElem?_map]
    cases hk : batch[place]? with
    | none => rfl
    | some k => rw [Option.map_some, Option.map_some, unfound, ownerPlace_eq_bind hnames hk]
  rw [map_fst_unresolved hinj, hmap, List.filterMap_map]
  rfl

/-- **A name leads to the same record in either order**, or to none. -/
theorem holder_cases_of_perm (hperm : batch'.Perm batch) (name : String) :
    (holder batch name = none ∧ holder batch' name = none) ∨
      ∃ k place place', nameOf k = name ∧
        (batch[place]? = some k ∧ holder batch name = some place) ∧
        batch'[place']? = some k ∧ holder batch' name = some place' := by
  have hnames' : (batch'.map nameOf).Nodup := (hperm.map nameOf).nodup_iff.mpr hnames
  cases h : holder batch name with
  | none =>
    left
    refine ⟨rfl, holder_eq_none_iff.mpr fun k hk => ?_⟩
    exact holder_eq_none_iff.mp h k (hperm.mem_iff.mp hk)
  | some place =>
    right
    obtain ⟨k, hk, rfl⟩ := exists_of_holder h
    obtain ⟨place', hk'⟩ := List.mem_iff_getElem?.mp (hperm.mem_iff.mpr (List.mem_of_getElem? hk))
    exact ⟨k, place, place', rfl, ⟨hk, rfl⟩, hk', holder_nameOf hnames' hk'⟩

end

/-! ### Fields that correspond -/

/-- The field that a name leads to, of the fields of a batch. -/
def fieldNamed (fs : List Field) (batch : List Keyed) (name : String) : Option Field :=
  (holder batch name).bind fun place => fs[place]?

/-- Two fields have everything in common but their identifiers, their orders, and their parents,
which are related. -/
structure Corresponds (parents : String → String → Prop) (f f' : Field) : Prop where
  same : f' = { f with id := f'.id, order := f'.order, parent := f'.parent }
  /-- Both have parents, or neither has one. -/
  parent : Option.Rel parents f.parent f'.parent

/-- Two identifiers are those of the fields that a name leads to in two imports. -/
def SameName (named named' : String → Option Field) (p p' : String) : Prop :=
  ∃ name f f', named name = some f ∧ named' name = some f' ∧ f.id = p ∧ f'.id = p'

section

variable {g : FieldGraph} {fresh fresh' : Nat → String} {batch batch' : List Keyed}

theorem fieldNamed_of_holder (hfresh : g.Supplied fresh batch.length) {name : String} {place : Nat}
    {k : Keyed} (hk : batch[place]? = some k) (hplace : holder batch name = some place) :
    fieldNamed (linked fresh g.size batch) batch name = some (fieldAt g fresh batch place k) := by
  rw [fieldNamed, hplace, Option.bind_some]
  exact getElem?_linked hfresh hk

/-- The fields of a batch are those that its names lead to. -/
theorem map_fieldNamed (hnames : (batch.map nameOf).Nodup)
    (hfresh : g.Supplied fresh batch.length) :
    batch.map (fun k => fieldNamed (linked fresh g.size batch) batch (nameOf k)) =
      (linked fresh g.size batch).map some := by
  refine List.ext_getElem? fun place => ?_
  rw [List.getElem?_map, List.getElem?_map]
  cases hk : batch[place]? with
  | none =>
    have hlength : (linked fresh g.size batch).length ≤ place := by
      rw [length_linked]
      exact List.getElem?_eq_none_iff.mp hk
    rw [List.getElem?_eq_none_iff.mpr hlength]
    rfl
  | some k =>
    rw [getElem?_linked hfresh hk, Option.map_some, Option.map_some,
      fieldNamed_of_holder hfresh hk (holder_nameOf hnames hk)]

variable (hnames : (batch.map nameOf).Nodup) (hperm : batch'.Perm batch)
  (hfresh : g.Supplied fresh batch.length) (hfresh' : g.Supplied fresh' batch'.length)

include hnames hperm hfresh hfresh'

/-- **The fields of one record correspond.** -/
theorem corresponds_fieldAt {place place' : Nat} {k : Keyed} (hk : batch[place]? = some k)
    (hk' : batch'[place']? = some k) :
    Corresponds (SameName (fieldNamed (linked fresh g.size batch) batch)
        (fieldNamed (linked fresh' g.size batch') batch'))
      (fieldAt g fresh batch place k) (fieldAt g fresh' batch' place' k) where
  same := rfl
  parent := by
    have hnames' : (batch'.map nameOf).Nodup := (hperm.map nameOf).nodup_iff.mpr hnames
    show Option.Rel _ ((ownerPlace batch place k).map fresh) ((ownerPlace batch' place' k).map fresh')
    rw [ownerPlace_eq_bind hnames hk, ownerPlace_eq_bind hnames' hk']
    cases k.record.parentKey.filter fun name => name ≠ nameOf k with
    | none => exact .none
    | some name =>
      rw [Option.bind_some, Option.bind_some]
      rcases holder_cases_of_perm hnames hperm name with
        ⟨hnone, hnone'⟩ | ⟨owner, i, i', -, ⟨hi, hholder⟩, hi', hholder'⟩
      · rw [hnone, hnone']
        exact .none
      · rw [hholder, hholder']
        exact .some ⟨name, _, _, fieldNamed_of_holder hfresh hi hholder,
          fieldNamed_of_holder hfresh' hi' hholder', rfl, rfl⟩

/-- **The parents not found** are the same, but for their order. -/
theorem unresolved_of_perm :
    ((unresolved fresh' batch').map Prod.fst).Perm ((unresolved fresh batch).map Prod.fst) := by
  have hnames' : (batch'.map nameOf).Nodup := (hperm.map nameOf).nodup_iff.mpr hnames
  have hfound : ∀ name, (holder batch' name).isNone = (holder batch name).isNone := by
    intro name
    rcases holder_cases_of_perm hnames hperm name with
      ⟨hnone, hnone'⟩ | ⟨k, i, i', -, ⟨-, hholder⟩, -, hholder'⟩
    · rw [hnone, hnone']
    · rw [hholder, hholder']
      rfl
  have hunfound : unfound batch' = unfound batch := by
    funext k
    rw [unfound, unfound]
    cases k.record.parentKey.filter fun name => name ≠ nameOf k with
    | none => rfl
    | some name => rw [Option.bind_some, Option.bind_some, hfound name]
  rw [map_fst_unresolved_eq_filterMap hnames hfresh.inj,
    map_fst_unresolved_eq_filterMap hnames' hfresh'.inj, hunfound]
  exact hperm.filterMap _

/-- **What a name leads to corresponds**, or it leads to nothing in either batch. -/
theorem rel_fieldNamed (name : String) :
    Option.Rel
      (Corresponds (SameName (fieldNamed (linked fresh g.size batch) batch)
        (fieldNamed (linked fresh' g.size batch') batch')))
      (fieldNamed (linked fresh g.size batch) batch name)
      (fieldNamed (linked fresh' g.size batch') batch' name) := by
  rcases holder_cases_of_perm hnames hperm name with
    ⟨hnone, hnone'⟩ | ⟨k, i, i', -, ⟨hi, hholder⟩, hi', hholder'⟩
  · have hleft : fieldNamed (linked fresh g.size batch) batch name = none := by
      rw [fieldNamed, hnone, Option.bind_none]
    have hright : fieldNamed (linked fresh' g.size batch') batch' name = none := by
      rw [fieldNamed, hnone', Option.bind_none]
    rw [hleft, hright]
    exact .none
  · rw [fieldNamed_of_holder hfresh hi hholder, fieldNamed_of_holder hfresh' hi' hholder']
    exact .some (corresponds_fieldAt hnames hperm hfresh hfresh' hi hi')

end

end Merge

namespace FieldGraph

open Merge

/-- **The order of a batch does not matter.** Where the records that have a key go by different
names, two imports that add all fields of the same records in different orders, each with its own
fresh identifiers, append a field for each of these names, in the order of its records. What a name
leads to in the one and in the other has everything in common but identifier and order, and the
parents of the two are what one name leads to, or neither has a parent. The summaries are the same,
but for the order of the parents not found. -/
theorem merge_coexist_of_perm (g : FieldGraph) {fresh fresh' : Nat → String}
    {records records' : List Record} (hperm : records'.Perm records)
    (hnames : ((keyed records).map nameOf).Nodup)
    (hfresh : g.Supplied fresh (keyed records).length)
    (hfresh' : g.Supplied fresh' (keyed records').length) :
    let result := g.merge .coexist fresh records
    let result' := g.merge .coexist fresh' records'
    let new := result.graph.fields.drop g.size
    let new' := result'.graph.fields.drop g.size
    let named := fieldNamed new (keyed records)
    let named' := fieldNamed new' (keyed records')
    result.graph.fields.take g.size = g.fields ∧ result'.graph.fields.take g.size = g.fields ∧
      new.map some = (keyed records).map (fun k => named (nameOf k)) ∧
      new'.map some = (keyed records').map (fun k => named' (nameOf k)) ∧
      (∀ name, Option.Rel (Corresponds (SameName named named')) (named name) (named' name)) ∧
      ∃ s s', result.summary = .ok s ∧ result'.summary = .ok s' ∧ s'.added = s.added ∧
        s'.overwritten = s.overwritten ∧ s'.skipped = s.skipped ∧
        s'.unresolvedParents.Perm s.unresolvedParents := by
  intro result result' new new' named named'
  have hbatch : (keyed records').Perm (keyed records) := hperm.filterMap _
  have hnames' : ((keyed records').map nameOf).Nodup := (hbatch.map nameOf).nodup_iff.mpr hnames
  have hresult : result = _ := g.merge_coexist fresh records
  have hresult' : result' = _ := g.merge_coexist fresh' records'
  have hnew : new = linked fresh g.size (keyed records) := by
    show result.graph.fields.drop g.size = _
    rw [hresult]
    exact List.drop_left' rfl
  have hnew' : new' = linked fresh' g.size (keyed records') := by
    show result'.graph.fields.drop g.size = _
    rw [hresult']
    exact List.drop_left' rfl
  refine ⟨?_, ?_, ?_, ?_, ?_, _, _, congrArg MergeResult.summary hresult,
    congrArg MergeResult.summary hresult', ?_, rfl, ?_, ?_⟩
  · rw [hresult]
    exact List.take_left' rfl
  · rw [hresult']
    exact List.take_left' rfl
  · show new.map some = (keyed records).map fun k => fieldNamed new (keyed records) (nameOf k)
    rw [hnew, map_fieldNamed hnames hfresh]
  · show new'.map some = (keyed records').map fun k => fieldNamed new' (keyed records') (nameOf k)
    rw [hnew', map_fieldNamed hnames' hfresh']
  · show ∀ name, Option.Rel (Corresponds (SameName (fieldNamed new _) (fieldNamed new' _)))
      (fieldNamed new _ name) (fieldNamed new' _ name)
    rw [hnew, hnew']
    exact rel_fieldNamed hnames hbatch hfresh hfresh'
  · show (linked _ _ _).length = (linked _ _ _).length
    rw [length_linked, length_linked, hbatch.length_eq]
  · exact (hperm.filter fun r => r.key.isNone).length_eq
  · exact unresolved_of_perm hnames hbatch hfresh hfresh'

/-- A batch and the same batch backwards: a parent behind and then before its child, a parent that
only the graph has, a record that names itself, and two records of one key. -/
theorem merge_coexist_of_perm_backwards :
    let g : FieldGraph := ⟨[{ id := "1", key := "order", order := 4 }]⟩
    let records : List Record := [
      { key := some "sku", parentKey := some "line" }, { batchRef := some "line" },
      { key := some "line", parentKey := some "order" },
      { key := some "sku", batchRef := some "other", required := some true },
      { key := some "tax", parentKey := some "tax" },
      { key := some "unit", parentKey := some "other" }]
    let fresh := (["a", "b", "c", "d", "e"].getD · "")
    let fresh' := (["p", "q", "r", "s", "t"].getD · "")
    let result := g.merge .coexist fresh records
    let result' := g.merge .coexist fresh' records.reverse
    let named := fieldNamed (result.graph.fields.drop 1) (keyed records)
    let named' := fieldNamed (result'.graph.fields.drop 1) (keyed records.reverse)
    ((keyed records).map nameOf).Nodup ∧ g.Supplied fresh 5 ∧ g.Supplied fresh' 5 ∧
      result.summary = .ok ⟨5, 0, 1, ["order", "tax"]⟩ ∧
      result'.summary = .ok ⟨5, 0, 1, ["tax", "order"]⟩ ∧
      (result.graph.fields.drop 1).map (fun f => (f.id, f.key, f.order, f.parent)) =
        [("a", "sku", 1, some "b"), ("b", "line", 2, none), ("c", "sku", 3, none),
          ("d", "tax", 4, none), ("e", "unit", 5, some "c")] ∧
      (result'.graph.fields.drop 1).map (fun f => (f.id, f.key, f.order, f.parent)) =
        [("p", "unit", 1, some "r"), ("q", "tax", 2, none), ("r", "sku", 3, none),
          ("s", "line", 4, none), ("t", "sku", 5, some "s")] ∧
      ∀ name, Option.Rel (Corresponds (SameName named named')) (named name) (named' name) := by
  intro g records fresh fresh' result result' named named'
  have hnames : ((keyed records).map nameOf).Nodup := by decide
  have hfresh : g.Supplied fresh 5 := ⟨by decide, by decide⟩
  have hfresh' : g.Supplied fresh' 5 := ⟨by decide, by decide⟩
  obtain ⟨-, -, -, -, hrel, -⟩ :=
    g.merge_coexist_of_perm records.reverse_perm hnames hfresh hfresh'
  exact ⟨hnames, hfresh, hfresh', rfl, rfl, by decide +kernel, by decide +kernel, hrel⟩

end FieldGraph

end ExtractionContract
