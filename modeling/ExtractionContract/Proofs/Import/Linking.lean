import ExtractionContract.Proofs.Import.Batch

/-!
# Links within a batch, by place

A record names its parent by what another record of the batch goes by. `holder` is the place of
the record that the name leads to, the first of several, and `ownerPlace` the place of a
record's parent: that of the holder, unless this is the record itself.

The fields of a batch are linked by identifiers that were drawn one for each place. As these
are distinct, the parent of a field is the identifier drawn for the place of its owner
(`parentOf_references`, `linked_eq_mapIdx`); identifiers say no more and no less than places.
-/

namespace ExtractionContract

namespace Merge

/-- Whether a record goes by a name in its batch. -/
def goesBy (name : String) (k : Keyed) : Bool :=
  k.record.reference k.key == name

/-- What a record goes by in its batch. -/
def nameOf (k : Keyed) : String :=
  k.record.reference k.key

/-- The place of the first record of a batch that goes by a name. -/
def holder (batch : List Keyed) (name : String) : Option Nat :=
  batch.findIdx? (goesBy name)

/-- The place of the parent of a record that stands at a place of a batch. No record is its own
parent. -/
def ownerPlace (batch : List Keyed) (place : Nat) (k : Keyed) : Option Nat :=
  (k.record.parentKey.bind (holder batch)).filter fun owner => owner ≠ place

/-- A name leads nowhere if no record goes by it. -/
theorem holder_eq_none_iff {batch : List Keyed} {name : String} :
    holder batch name = none ↔ ∀ k ∈ batch, nameOf k ≠ name := by
  rw [holder, List.findIdx?_eq_none_iff]
  exact forall₂_congr fun k _ => beq_eq_false_iff_ne

/-- A name leads to a record that goes by it. -/
theorem exists_of_holder {batch : List Keyed} {name : String} {j : Nat}
    (h : holder batch name = some j) : ∃ k, batch[j]? = some k ∧ nameOf k = name := by
  obtain ⟨hlt, hname, -⟩ := List.findIdx?_eq_some_iff_getElem.mp h
  exact ⟨batch[j], List.getElem?_eq_getElem hlt, beq_iff_eq.mp hname⟩

theorem holder_lt {batch : List Keyed} {name : String} {j : Nat}
    (h : holder batch name = some j) : j < batch.length :=
  (List.findIdx?_eq_some_iff_getElem.mp h).1

/-- **An owner is a record of the batch.** -/
theorem ownerPlace_lt {batch : List Keyed} {place j : Nat} {k : Keyed}
    (h : ownerPlace batch place k = some j) : j < batch.length := by
  obtain ⟨hbind, -⟩ := Option.filter_eq_some_iff.mp h
  obtain ⟨name, -, hname⟩ := Option.bind_eq_some_iff.mp hbind
  exact holder_lt hname

/-- The record at one place of a batch has the one at another as its owner. -/
def OwnerLink (batch : List Keyed) (place owner : Nat) : Prop :=
  ∃ k, batch[place]? = some k ∧ ownerPlace batch place k = some owner

/-- **A name leads to the first record that goes by it.** -/
theorem lookup_references (fresh : Nat → String) (batch : List Keyed) (name : String) :
    (references fresh batch).lookup name = (holder batch name).map fresh := by
  induction batch generalizing fresh with
  | nil => rfl
  | cons k rest ih =>
    have htail := ih fun i => fresh (i + 1)
    rw [references] at htail
    rw [references, List.mapIdx_cons, List.lookup_cons, htail, holder, holder,
      List.findIdx?_cons]
    by_cases h : k.record.reference k.key = name
    · rw [goesBy, beq_iff_eq.mpr h, beq_iff_eq.mpr h.symm]
      rfl
    · rw [goesBy, beq_false_of_ne h, beq_false_of_ne fun e => h e.symm, if_neg Bool.false_ne_true,
        Option.map_map]
      rfl

/-- The parents not found are those that a record names and its field has not. -/
theorem unresolved_eq (fresh : Nat → String) (batch : List Keyed) :
    unresolved fresh batch = (batch.mapIdx fun place k =>
      if (parentOf (references fresh batch) (fresh place) k.record.parentKey).isNone then
        k.record.parentKey.map fun name => (name, k.key)
      else none).filterMap id := by
  refine congrArg (List.filterMap id) (List.mapIdx_eq_mapIdx_iff.mpr ?_)
  intro place hplace
  cases batch[place].record.parentKey with
  | none => exact (ite_self none).symm
  | some name => rfl

variable {fresh : Nat → String} {batch : List Keyed}
  (hinj : ∀ i < batch.length, ∀ j < batch.length, fresh i = fresh j → i = j)

include hinj

/-- **The parent of a field of a batch** has the identifier drawn for the owner's place. -/
theorem parentOf_references {place : Nat} (hplace : place < batch.length) (k : Keyed) :
    parentOf (references fresh batch) (fresh place) k.record.parentKey =
      (ownerPlace batch place k).map fresh := by
  rw [parentOf, ownerPlace]
  cases hname : k.record.parentKey with
  | none => rfl
  | some name =>
    rw [Option.bind_some, Option.bind_some, lookup_references]
    cases hj : holder batch name with
    | none => rfl
    | some j =>
      rw [Option.map_some]
      by_cases hself : j = place
      · rw [hself, Option.filter_some_neg (by simp), Option.filter_some_neg (by simp)]
        rfl
      · have hother : fresh j ≠ fresh place :=
          fun e => hself (hinj j (holder_lt hj) place hplace e)
        rw [Option.filter_some_pos (by simpa using hother),
          Option.filter_some_pos (by simpa using hself)]
        rfl

/-- **The fields of a batch, linked by place.** -/
theorem linked_eq_mapIdx (base : Nat) :
    linked fresh base batch = batch.mapIdx fun place k =>
      { fieldOf fresh base place k with parent := (ownerPlace batch place k).map fresh } := by
  refine List.ext_getElem? ?_
  intro i
  rw [linked, List.getElem?_mapIdx, List.getElem?_mapIdx]
  cases hk : batch[i]? with
  | none => rfl
  | some k =>
    have hlt : i < batch.length := (List.getElem?_eq_some_iff.mp hk).1
    rw [Option.map_some, Option.map_some, parentOf_references hinj hlt]

/-- **The parents not found**: those that a record names without having an owner. -/
theorem unresolved_eq_mapIdx :
    unresolved fresh batch = (batch.mapIdx fun place k =>
      if (ownerPlace batch place k).isNone then k.record.parentKey.map fun name => (name, k.key)
      else none).filterMap id := by
  rw [unresolved_eq]
  refine congrArg (List.filterMap id) (List.mapIdx_eq_mapIdx_iff.mpr ?_)
  intro place hplace
  rw [parentOf_references hinj hplace, Option.isNone_map]

/-- The names of the parents not found, in the order of the records. -/
theorem map_fst_unresolved :
    (unresolved fresh batch).map Prod.fst = (batch.mapIdx fun place k =>
      if (ownerPlace batch place k).isNone then k.record.parentKey else none).filterMap id := by
  rw [unresolved_eq_mapIdx hinj, List.map_filterMap, List.mapIdx_eq_zipIdx_map,
    List.mapIdx_eq_zipIdx_map, List.filterMap_map, List.filterMap_map]
  refine congrArg (List.filterMap · batch.zipIdx) ?_
  funext x
  change ((if _ then _ else none : Option _).map Prod.fst) = if _ then _ else none
  split
  · rw [Option.map_map]
    exact Option.map_id'
  · rfl

end Merge

namespace FieldGraph

open Merge

/-- A merge is refused for repeated keys, or it goes through. -/
theorem merge_eq (g : FieldGraph) (policy : DuplicatePolicy) (fresh : Nat → String)
    (records : List Record) :
    g.merge policy fresh records =
      if policy = .reject ∧ repeatedKeys g (keyed records) ≠ [] then
        ⟨.error (.repeatedKeys (repeatedKeys g (keyed records))), g⟩
      else ⟨.ok (g.mergeBatch policy fresh records).1, (g.mergeBatch policy fresh records).2⟩ :=
  rfl

theorem merge_of_ne_reject (g : FieldGraph) {policy : DuplicatePolicy} (h : policy ≠ .reject)
    (fresh : Nat → String) (records : List Record) :
    g.merge policy fresh records =
      ⟨.ok (g.mergeBatch policy fresh records).1, (g.mergeBatch policy fresh records).2⟩ := by
  rw [merge_eq, if_neg fun hreject => h hreject.1]

/-- Where all fields are added, the merge gives the batch as it is linked. -/
theorem merge_coexist (g : FieldGraph) (fresh : Nat → String) (records : List Record) :
    g.merge .coexist fresh records =
      ⟨.ok ⟨(linked fresh g.size (keyed records)).length, 0, keyless records,
          (unresolved fresh (keyed records)).map Prod.fst⟩,
        g.append (linked fresh g.size (keyed records))⟩ :=
  g.merge_of_ne_reject (fun h => DuplicatePolicy.noConfusion h) fresh records

end FieldGraph

end ExtractionContract
