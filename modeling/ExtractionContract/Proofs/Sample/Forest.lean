import ExtractionContract.Proofs.Graph.Index
import ExtractionContract.Proofs.Sample.Findings
import ExtractionContract.Proofs.Sample.Identifiers

/-!
# Inferred fields as a forest

The fields of a sample are its findings, each with the identifier that belongs to its place.
Identifiers are distinct, so naming a parent by identifier says the same as naming it by place:

* `nodup_ids_infer`: the identifiers of inferred fields are pairwise distinct.
* `roots_infer`: the roots are the fields of the findings without a parent.
* `childrenOf_infer`: the children of a field are the fields of the findings that name its
  place.

What is known of the layout of findings thereby holds of the graph of inferred fields.
-/

namespace ExtractionContract

/-- A sample that is no object is itself the first finding. -/
theorem findings_of_ne_obj {v : Json} (parentKey : String) (h : ∀ members, v ≠ .obj members) :
    ∃ d : Finding, d.parent = none ∧ d.key = rootKey parentKey ∧ d.type = inferType v ∧
      findings parentKey v = d :: findBelow (rootKey parentKey) false 0 v := by
  cases v with
  | obj members => exact absurd rfl (h members)
  | null | bool | num | str | arr => exact ⟨_, rfl, rfl, rfl, rfl⟩

/-- **Parents stand before their children** in the findings of a sample. -/
theorem parent_findings (parentKey : String) (v : Json) :
    ∀ x ∈ (findings parentKey v).zipIdx, ParentBefore none 0 x := by
  by_cases h : ∃ members, v = .obj members
  · obtain ⟨members, rfl⟩ := h
    exact parent_findMembers parentKey false none 0 members
  · push Not at h
    obtain ⟨d, hd, -, -, hfindings⟩ := findings_of_ne_obj parentKey h
    rw [hfindings, List.zipIdx_cons]
    intro x hx
    rcases List.mem_cons.mp hx with rfl | hbelow
    · exact .inl hd
    · exact (parent_findBelow (rootKey parentKey) false 0 v x hbelow).below
        (List.le_snd_of_mem_zipIdx hbelow)

namespace Inferrer

variable (inferrer : Inferrer) (v : Json) (parentKey : String) (start : Int64)

/-! ### Identifiers by place -/

/-- The identifiers of the findings of a sample, by place. -/
def idsOf : List String :=
  identify [] ((findings parentKey v).map Finding.key)

theorem length_idsOf : (idsOf v parentKey).length = (findings parentKey v).length := by
  rw [idsOf, length_identify, List.length_map, List.length_nil, Nat.zero_add]

theorem nodup_idsOf : (idsOf v parentKey).Nodup :=
  nodup_identify List.nodup_nil _

/-- The field of a finding that stands at a place. -/
def fieldAt (x : Finding × Nat) : Field :=
  inferrer.fieldOf (idsOf v parentKey) none (orders start v) x.2 x.1

theorem infer_eq_map :
    inferrer.infer v parentKey none start =
      (findings parentKey v).zipIdx.map (inferrer.fieldAt v parentKey start) :=
  List.mapIdx_eq_zipIdx_map

/-- The parent of a field has the identifier that belongs to the place its finding names. -/
theorem parent_fieldAt (x : Finding × Nat) :
    (inferrer.fieldAt v parentKey start x).parent =
      x.1.parent.bind fun p => (idsOf v parentKey)[p]? := by
  unfold fieldAt fieldOf
  cases x.1.parent with
  | none => rfl
  | some p => rfl

section Place

variable {inferrer v parentKey start} {x : Finding × Nat}
  (hx : x ∈ (findings parentKey v).zipIdx)

include hx

theorem place_lt_length_idsOf : x.2 < (idsOf v parentKey).length := by
  rw [length_idsOf]
  exact List.snd_lt_of_mem_zipIdx hx

theorem getElem?_idsOf :
    (idsOf v parentKey)[x.2]? = some (inferrer.fieldAt v parentKey start x).id := by
  have hlt := place_lt_length_idsOf hx
  change _ = some ((idsOf v parentKey).getD x.2 x.1.key)
  rw [List.getD_eq_getElem?_getD, List.getElem?_eq_getElem hlt, Option.getD_some]

/-- A place that a finding names has an identifier. -/
theorem exists_getElem?_idsOf {p : Nat} (hp : x.1.parent = some p) :
    ∃ id, (idsOf v parentKey)[p]? = some id := by
  rcases parent_findings parentKey v x hx with h | ⟨q, hq, -, hlt⟩
  · exact absurd (h.symm.trans hp) (Option.some_ne_none p).symm
  · obtain rfl : p = q := Option.some.inj (hp.symm.trans hq)
    exact ⟨_, List.getElem?_eq_getElem (Nat.lt_trans hlt (place_lt_length_idsOf hx))⟩

theorem isRoot_fieldAt :
    (inferrer.fieldAt v parentKey start x).isRoot ↔ x.1.parent = none := by
  rw [Field.isRoot, parent_fieldAt, Option.isNone_iff_eq_none]
  cases hp : x.1.parent with
  | none => exact iff_of_true rfl rfl
  | some p =>
    obtain ⟨id, hid⟩ := exists_getElem?_idsOf hx hp
    rw [Option.bind_some, hid]
    exact iff_of_false (Option.some_ne_none id) (Option.some_ne_none p)

/-- **A field names another as its parent** exactly when its finding names the other's
place. -/
theorem isChildOf_fieldAt (y : Finding × Nat) :
    (inferrer.fieldAt v parentKey start y).isChildOf (inferrer.fieldAt v parentKey start x).id ↔
      y.1.parent = some x.2 := by
  rw [Field.isChildOf_iff, parent_fieldAt]
  have hid : (idsOf v parentKey)[x.2]? = some (inferrer.fieldAt v parentKey start x).id :=
    getElem?_idsOf hx
  constructor
  · intro h
    -- Identifiers are distinct, so the place named is the one that has this identifier.
    obtain ⟨p, hp, hpid⟩ := Option.bind_eq_some_iff.mp h
    obtain ⟨hlt, -⟩ := List.getElem?_eq_some_iff.mp hpid
    rw [hp, (List.getElem?_inj hlt (nodup_idsOf v parentKey)).mp (hpid.trans hid.symm)]
  · intro h
    rw [h, Option.bind_some, hid]

end Place

/-! ### The graph of inferred fields -/

theorem map_id_infer :
    (inferrer.infer v parentKey none start).map Field.id = idsOf v parentKey := by
  refine List.ext_getElem? ?_
  intro i
  rw [List.getElem?_map, infer_eq_map, List.getElem?_map, List.getElem?_zipIdx, Nat.zero_add]
  cases hd : (findings parentKey v)[i]? with
  | none =>
    rw [List.getElem?_eq_none_iff, ← length_idsOf, ← List.getElem?_eq_none_iff] at hd
    rw [hd]
    rfl
  | some d => exact (getElem?_idsOf (List.mk_mem_zipIdx_iff_getElem?.mpr hd)).symm

/-- **Inferred fields have distinct identifiers.** -/
theorem nodup_ids_infer : ((inferrer.infer v parentKey none start).map Field.id).Nodup :=
  map_id_infer inferrer v parentKey start ▸ nodup_idsOf v parentKey

/-- **The parent of an inferred field is an inferred field.** -/
theorem parent_mem_infer {f : Field} (hf : f ∈ inferrer.infer v parentKey none start)
    {id : String} (hid : f.parent = some id) :
    id ∈ (inferrer.infer v parentKey none start).map Field.id := by
  rw [infer_eq_map] at hf
  obtain ⟨x, -, rfl⟩ := List.mem_map.mp hf
  rw [parent_fieldAt] at hid
  obtain ⟨p, -, hp⟩ := Option.bind_eq_some_iff.mp hid
  rw [map_id_infer]
  exact List.mem_of_getElem? hp

/-- **The roots** are the fields of the findings without a parent, in order. -/
theorem roots_infer :
    (FieldGraph.mk (inferrer.infer v parentKey none start)).roots =
      (childrenAt none (findings parentKey v).zipIdx).map
        (inferrer.fieldAt v parentKey start) := by
  change (inferrer.infer v parentKey none start).filter _ = _
  rw [infer_eq_map, List.filter_map]
  refine congrArg _ (List.filter_congr ?_)
  intro x hx
  rw [Bool.eq_iff_iff, decide_eq_true_iff]
  exact isRoot_fieldAt hx

/-- **The children of a field** are the fields of the findings that name its place, in
order. -/
theorem childrenOf_infer {x : Finding × Nat} (hx : x ∈ (findings parentKey v).zipIdx) :
    (FieldGraph.mk (inferrer.infer v parentKey none start)).childrenOf
        (inferrer.fieldAt v parentKey start x).id =
      (childrenAt (some x.2) (findings parentKey v).zipIdx).map
        (inferrer.fieldAt v parentKey start) := by
  change (inferrer.infer v parentKey none start).filter _ = _
  rw [infer_eq_map, List.filter_map]
  refine congrArg _ (List.filter_congr ?_)
  intro y _
  rw [Bool.eq_iff_iff, decide_eq_true_iff]
  exact isChildOf_fieldAt hx y

end Inferrer

end ExtractionContract
