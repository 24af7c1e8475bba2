import ExtractionContract.Compiler.Basic
import ExtractionContract.Proofs.Field.DataType
import ExtractionContract.Proofs.Import.Linking
import ExtractionContract.Proofs.Sample.Forest

/-!
# Importing a sample document

A text that holds a sample document is imported by way of its inferred fields: each becomes a
record that goes by the field's identifier and names the parent's, and the merge makes fields
of the records again. On this way a link is written as an identifier, looked up as a name and
written as another identifier, and a type is written as a name and read again.

Where all fields are added, nothing is lost: the graph gains exactly the inferred fields, with
new identifiers and later orders, and links lead from and to the same places
(`Compiler.importText_sample`). The identifiers of inferred fields are distinct, so no key that
clashes with another can lead a link astray.
-/

namespace ExtractionContract

/-! ### Types of findings -/

theorem isKnown_inferType (v : Json) : (inferType v).isKnown := by
  cases v with
  | str s =>
    rw [inferType]
    split <;> rfl
  | null | bool | num | arr | obj => rfl

mutual

/-- The members of an object suggest known types, at any depth. -/
theorem isKnown_findMembers (parentKey : String) (inItem : Bool) (parent : Option Nat)
    (place : Nat) : ∀ members : List (String × Json),
    ∀ d ∈ findMembers parentKey inItem parent place members, d.type.isKnown
  | [] => fun d hd => absurd hd List.not_mem_nil
  | (key, v) :: rest => by
    intro d hd
    rw [findMembers, List.cons_append, List.mem_cons, List.mem_append] at hd
    rcases hd with rfl | hbelow | hrest
    · exact isKnown_inferType v
    · exact isKnown_findBelow (joinKey parentKey key) inItem place v d hbelow
    · exact isKnown_findMembers parentKey inItem parent _ rest d hrest

theorem isKnown_findBelow (key : String) (inItem : Bool) (place : Nat) : ∀ v : Json,
    ∀ d ∈ findBelow key inItem place v, d.type.isKnown
  | .obj members => isKnown_findMembers key inItem (some place) (place + 1) members
  | .arr (.obj members :: tail) => by
    rw [findBelow]
    split
    · exact fun d hd => absurd hd List.not_mem_nil
    · exact isKnown_findMembers key true (some place) (place + 1) members
  | .null | .bool _ | .num _ | .str _ | .arr [] | .arr (.null :: _) | .arr (.bool _ :: _)
  | .arr (.num _ :: _) | .arr (.str _ :: _) | .arr (.arr _ :: _) =>
    fun d hd => absurd hd List.not_mem_nil

end

namespace Inferrer

variable (inferrer : Inferrer) (members : List (String × Json))

/-- **Inferred fields have known types.** -/
theorem isKnown_of_mem_inferDocument {f : Field}
    (hf : f ∈ inferrer.inferDocument (.obj members)) : f.type.isKnown := by
  rw [inferDocument, infer_eq_map] at hf
  obtain ⟨x, hx, rfl⟩ := List.mem_map.mp hf
  have hmem : x.1 ∈ findings "" (.obj members) := by
    have hfst := List.mem_map_of_mem (f := Prod.fst) hx
    rwa [List.zipIdx_map_fst] at hfst
  exact isKnown_findMembers "" false none 0 members x.1 hmem

/-- **The parent of an inferred field** is an inferred field of an earlier place. -/
theorem exists_owner_inferDocument (v : Json) {i : Nat} {f : Field}
    (hf : (inferrer.inferDocument v)[i]? = some f) {p : String} (hp : f.parent = some p) :
    ∃ j < i, ∃ owner, (inferrer.inferDocument v)[j]? = some owner ∧ owner.id = p := by
  rw [inferDocument, infer_eq_map, List.getElem?_map, Option.map_eq_some_iff] at hf
  obtain ⟨x, hx, rfl⟩ := hf
  have hxi : x.2 = i := by
    rw [List.getElem?_zipIdx, Nat.zero_add, Option.map_eq_some_iff] at hx
    obtain ⟨d, -, rfl⟩ := hx
    rfl
  have hmem : x ∈ (findings "" v).zipIdx := List.mem_of_getElem? hx
  rw [parent_fieldAt, Option.bind_eq_some_iff] at hp
  obtain ⟨j, hj, hid⟩ := hp
  have hlt : j < x.2 := by
    rcases parent_findings "" v x hmem with hnone | ⟨q, hq, -, hlt⟩
    · exact absurd (hnone.symm.trans hj) (Option.some_ne_none j).symm
    · rwa [Option.some.inj (hj.symm.trans hq)]
  have hids := inferrer.map_id_infer v "" 0
  rw [← hids, List.getElem?_map, Option.map_eq_some_iff] at hid
  obtain ⟨owner, howner, hid⟩ := hid
  exact ⟨j, hxi ▸ hlt, owner, howner, hid⟩

end Inferrer

/-! ### The records of fields -/

namespace Merge

theorem keyed_ofField (fs : List Field) :
    keyed (fs.map Record.ofField) = fs.map fun f => ⟨f.key, Record.ofField f⟩ := by
  induction fs with
  | nil => rfl
  | cons f rest ih =>
    rw [List.map_cons, List.map_cons, ← ih]
    rfl

theorem keyless_ofField (fs : List Field) : keyless (fs.map Record.ofField) = 0 := by
  refine keyless_eq_zero ?_
  intro r hr
  obtain ⟨f, -, rfl⟩ := List.mem_map.mp hr
  rfl

/-- The field of an inferred field's record is that field, but for its identifier, its order
and its parent. -/
theorem fieldOf_ofField (fresh : Nat → String) (base place : Nat) {f : Field}
    (hf : f.type.isKnown) :
    fieldOf fresh base place ⟨f.key, Record.ofField f⟩ =
      { f with id := fresh place, order := (base : Int) + place, parent := none } := by
  have htype : ((some f.type.name).map DataType.parse).getD .string = f.type := by
    rw [Option.map_some, Option.getD_some, DataType.parse_name_of_isKnown hf]
  unfold fieldOf Record.ofField
  rw [htype]
  rfl

/-- The record of a field goes by the field's identifier. -/
theorem holder_ofField (fs : List Field) (id : String) :
    holder (fs.map fun f => ⟨f.key, Record.ofField f⟩) id = fs.findIdx? fun f => f.id == id := by
  rw [holder, List.findIdx?_map]
  rfl

variable (inferrer : Inferrer) (members : List (String × Json))

/-- The records of the fields of a sample. -/
def sampleBatch : List Keyed :=
  (inferrer.inferDocument (.obj members)).map fun f => ⟨f.key, Record.ofField f⟩

/-- **The owner of a record made of an inferred field** stands where the field's parent does. -/
theorem ownerPlace_sampleBatch {i : Nat} {f : Field}
    (hf : (inferrer.inferDocument (.obj members))[i]? = some f) :
    ownerPlace (sampleBatch inferrer members) i ⟨f.key, Record.ofField f⟩ =
      f.parent.map fun p =>
        (inferrer.inferDocument (.obj members)).findIdx fun h => h.id == p := by
  rw [ownerPlace, sampleBatch]
  change (f.parent.bind _).filter _ = _
  cases hp : f.parent with
  | none => rfl
  | some p =>
    obtain ⟨j, hji, owner, howner, hid⟩ := inferrer.exists_owner_inferDocument _ hf hp
    obtain ⟨hlt, hget⟩ := List.getElem?_eq_some_iff.mp howner
    have hfound := List.findIdx?_eq_some_of_exists (p := fun h : Field => h.id == p)
      ⟨owner, List.mem_of_getElem? howner, beq_iff_eq.mpr hid⟩
    -- The parent stands before its child, so it is not the child itself.
    have hle : (inferrer.inferDocument (.obj members)).findIdx (fun h => h.id == p) ≤ j := by
      by_contra hgt
      have hbefore := List.not_of_lt_findIdx (Nat.lt_of_not_le hgt)
      rw [hget, hid, beq_self_eq_true] at hbefore
      exact Bool.false_ne_true hbefore.symm
    rw [Option.bind_some, holder_ofField, hfound, Option.map_some, Option.filter_some_pos]
    exact decide_eq_true (by omega)

variable {fresh : Nat → String}
  (hinj : ∀ i < (inferrer.inferDocument (.obj members)).length,
    ∀ j < (inferrer.inferDocument (.obj members)).length, fresh i = fresh j → i = j)

include hinj

theorem unresolved_sampleBatch : unresolved fresh (sampleBatch inferrer members) = [] := by
  have hlength : (sampleBatch inferrer members).length =
      (inferrer.inferDocument (.obj members)).length := List.length_map _
  rw [unresolved_eq_mapIdx (hlength ▸ hinj), List.filterMap_eq_nil_iff]
  intro o ho
  obtain ⟨i, hi, rfl⟩ := List.mem_mapIdx.mp ho
  have hf := List.getElem?_eq_getElem (hlength ▸ hi)
  have howner := ownerPlace_sampleBatch inferrer members hf
  simp only [sampleBatch, List.getElem_map] at howner ⊢
  rw [howner]
  change (if _ then Option.map _ (Field.parent _) else none) = none
  cases (inferrer.inferDocument (.obj members))[i].parent with
  | none => rfl
  | some p => rfl

/-- **The fields that a merge makes of a sample's fields.** -/
theorem linked_sampleBatch (base : Nat) :
    linked fresh base (sampleBatch inferrer members) =
      (inferrer.inferDocument (.obj members)).mapIdx fun i f =>
        { f with
          id := fresh i
          order := (base : Int) + i
          parent := f.parent.map fun p =>
            fresh ((inferrer.inferDocument (.obj members)).findIdx fun h => h.id == p) } := by
  have hlength : (sampleBatch inferrer members).length =
      (inferrer.inferDocument (.obj members)).length := List.length_map _
  rw [linked_eq_mapIdx (hlength ▸ hinj)]
  refine List.ext_getElem? ?_
  intro i
  rw [List.getElem?_mapIdx, List.getElem?_mapIdx, sampleBatch, List.getElem?_map]
  cases hf : (inferrer.inferDocument (.obj members))[i]? with
  | none => rfl
  | some f =>
    have hknown := inferrer.isKnown_of_mem_inferDocument members (List.mem_of_getElem? hf)
    have howner := ownerPlace_sampleBatch inferrer members hf
    rw [sampleBatch] at howner
    simp only [Option.map_some, howner, fieldOf_ofField fresh base i hknown, Option.map_map]
    rfl

end Merge

namespace FieldGraph

open Merge

/-- A merge reports nothing that it does not do. -/
theorem value_mergeLogged (g : FieldGraph) (policy : DuplicatePolicy) (fresh : Nat → String)
    (records : List Record) :
    (g.mergeLogged policy fresh records).value = g.merge policy fresh records := by
  unfold mergeLogged
  cases h : (g.merge policy fresh records).summary <;> simp only [h]

end FieldGraph

namespace Compiler

open Merge

/-- An import from a source that gives records is their merge. -/
theorem value_importFrom (compiler : Compiler) (fresh : Nat → String) (g : FieldGraph)
    {source : Attempt (List Record)} {records : List Record} (h : source.value = .ok records) :
    (compiler.importFrom fresh g source).value = g.merge compiler.config.policy fresh records := by
  unfold importFrom
  simp only [h]
  exact g.value_mergeLogged compiler.config.policy fresh records

/-- The records of a text that holds a sample document. -/
theorem value_recordsFromText (headers : Headers) (inferrer : Inferrer) {text : String}
    {r : Lenient.Recovered} {members : List (String × Json)}
    (hread : (Lenient.recover text).value = .ok r) (hobject : r.value = .obj members) :
    (recordsFromText headers inferrer text).value =
      .ok ((inferrer.inferDocument (.obj members)).map Record.ofField) := by
  unfold recordsFromText Attempt.andThen
  simp only [hread, hobject]
  rfl

/-- **Importing a sample document** adds the inferred fields, each under a new identifier and
with the order of its new place, and leads its link to the field that stands for its parent.
Nothing else of the fields changes, and nothing of the graph. -/
theorem importText_sample (compiler : Compiler) (hpolicy : compiler.config.policy = .coexist)
    (g : FieldGraph) {text : String} {r : Lenient.Recovered} {members : List (String × Json)}
    (hread : (Lenient.recover text).value = .ok r) (hobject : r.value = .obj members)
    {fresh : Nat → String}
    (hfresh : g.Supplied fresh (compiler.inferFields r.value).length) :
    let inferred := compiler.inferFields r.value
    let result := (compiler.importText fresh g text).value
    result.summary = .ok ⟨inferred.length, 0, 0, []⟩ ∧
      result.graph.fields = g.fields ++ inferred.mapIdx (fun i f =>
        { f with
          id := fresh i
          order := (g.size : Int) + i
          parent := f.parent.map fun p => fresh (inferred.findIdx fun h => h.id == p) }) ∧
      (inferred.map Field.id).Nodup ∧
      ∀ f ∈ inferred, ∀ p, f.parent = some p → ∃ owner ∈ inferred, owner.id = p := by
  intro inferred result
  have hinferred : inferred = compiler.inferrer.inferDocument (.obj members) := by
    rw [← hobject]
    rfl
  have hsupplied : g.Supplied fresh inferred.length := hfresh
  rw [hinferred] at hsupplied
  have hresult : result = g.merge .coexist fresh (inferred.map Record.ofField) := by
    rw [hinferred, ← hpolicy]
    exact compiler.value_importFrom fresh g
      (value_recordsFromText compiler.config.headers compiler.inferrer hread hobject)
  have hbatch : keyed (inferred.map Record.ofField) =
      sampleBatch compiler.inferrer members := by
    rw [hinferred, keyed_ofField]
    rfl
  have hlinked := linked_sampleBatch compiler.inferrer members hsupplied.inj g.size
  rw [hresult, FieldGraph.merge_coexist, hbatch, hlinked, keyless_ofField,
    unresolved_sampleBatch compiler.inferrer members hsupplied.inj, List.length_mapIdx, ← hinferred]
  refine ⟨rfl, rfl, ?_, ?_⟩
  · exact compiler.inferrer.nodup_ids_infer r.value "" 0
  · intro f hf p hp
    exact List.mem_map.mp (compiler.inferrer.parent_mem_infer r.value "" 0 hf hp)

/-- A text with a comment and a comma too many, whose sample has a dotted key that is also the
path of a nested one, next to a field of the same name. -/
theorem importText_sample_of_clash :
    let compiler : Compiler := ⟨{ exampleLength := 1 }⟩
    let g : FieldGraph := ⟨[{ id := "a.b", key := "a.b", parent := some "0" }]⟩
    let text := "\x7b\"a.b\":17, // 1\n \"a\":[\x7b\"b\":\"\"\x7d],\x7d"
    let fresh := (["1", "2", "3"].getD · "")
    let result := (compiler.importText fresh g text).value
    ∃ r members, (Lenient.recover text).value = .ok r ∧ r.value = .obj members ∧
      g.Supplied fresh (compiler.inferFields r.value).length ∧
      result.summary = .ok ⟨3, 0, 0, []⟩ ∧
      result.graph.fields.map (fun f => (f.id, f.key, f.order, f.parent)) =
        [("a.b", "a.b", 0, some "0"), ("1", "a.b", 1, none), ("2", "a", 2, none),
          ("3", "a.b", 3, some "2")] := by
  intro compiler g text fresh result
  have hcheck : ((Lenient.recover text).value.toOption.any fun r =>
      r.value.isObject && (compiler.inferFields r.value).length == 3) = true := by
    decide +kernel
  cases hread : (Lenient.recover text).value with
  | error e => rw [hread] at hcheck; exact absurd hcheck Bool.false_ne_true
  | ok r =>
    rw [hread] at hcheck
    obtain ⟨hkind, hcount⟩ := (Bool.and_eq_true_iff).mp hcheck
    have hlength : (compiler.inferFields r.value).length = 3 := beq_iff_eq.mp hcount
    obtain ⟨members, hobject⟩ : ∃ members, r.value = .obj members := by
      cases hv : r.value with
      | obj members => exact ⟨members, rfl⟩
      | null | bool | num | str | arr => rw [hv] at hkind; exact absurd hkind Bool.false_ne_true
    have hfresh : g.Supplied fresh (compiler.inferFields r.value).length := by
      rw [hlength]
      exact ⟨by decide +kernel, by decide +kernel⟩
    obtain ⟨hsummary, -⟩ := compiler.importText_sample rfl g hread hobject hfresh
    exact ⟨r, members, rfl, hobject, hfresh, hlength ▸ hsummary, by decide +kernel⟩

end Compiler

end ExtractionContract
