import ExtractionContract.Proofs.Example.Tree
import ExtractionContract.Proofs.Json.Distinct
import ExtractionContract.Proofs.Sample.Forest
import ExtractionContract.Proofs.Sample.Values

/-!
# The example tree of a sample

Inference lays the fields of a sample out in one list, where only identifiers tell what stands
below what, and the example tree puts them together again. What it shows for a member of the
sample depends on the member's value alone (`ExampleEntry.ofSample`): on the types in the first
item of an array, and on nothing deeper. That is `exampleTree_graphOf`, which holds whatever the
keys of the sample are; the fields below a member are found by the place of its finding, which
no clash of keys can change.

* `exampleTree_inferDocument`: the tree of a sample in full, and that an instance of the tree
  has the same tree again.
-/

namespace ExtractionContract

/-- The type that a tree shows for a value of a sample. It may be absent. -/
def sampleType (v : Json) : String :=
  (inferType v).exampleType ++ DataType.nullable

theorem exists_items_of_isArray {v : Json} (h : (inferType v).isArray) :
    ∃ items, v = .arr items := by
  cases v with
  | arr items => exact ⟨items, rfl⟩
  | str s =>
    rw [inferType] at h
    split at h <;> exact absurd h Bool.false_ne_true
  | null | bool | num | obj => exact absurd h Bool.false_ne_true

namespace ExampleEntry

/-- What a tree shows for a member of a sample. -/
def ofSample : Json → ExampleEntry
  | .arr (.obj members :: _) => .items (Members.collapse (members.map fun m =>
      (m.1, sampleType m.2)))
  | .arr _ => .items []
  | v => .scalar (sampleType v)

theorem ofSample_of_not_isArray {v : Json} (h : ¬(inferType v).isArray) :
    ofSample v = .scalar (sampleType v) := by
  cases v with
  | arr items => exact absurd rfl h
  | null | bool | num | str | obj => rfl

/-- The members of the item that an array shows: those of its first item, if that is an
object. -/
theorem exists_ofSample_arr (vs : List Json) :
    ∃ item : List (String × Json), ofSample (.arr vs) =
      .items (Members.collapse (item.map fun m => (m.1, sampleType m.2))) := by
  match vs with
  | .obj item :: _ => exact ⟨item, rfl⟩
  | [] | .null :: _ | .bool _ :: _ | .num _ :: _ | .str _ :: _ | .arr _ :: _ => exact ⟨[], rfl⟩

end ExampleEntry

/-! ### From a sample to its tree -/

namespace Inferrer

variable (inferrer : Inferrer) (start : Int64)

/-- The graph of the fields of an object. -/
def graphOf (members : List (String × Json)) : FieldGraph :=
  ⟨inferrer.infer (.obj members) "" none start⟩

variable {members : List (String × Json)}

/-- The members of a whole sample have no parent. -/
theorem noParent : ∀ p, (none : Option Nat) = some p → p < 0 :=
  fun p h => absurd h (Option.some_ne_none p).symm

/-- The field of a member of a sample. -/
def memberField (members : List (String × Json)) (s : Spot) : Field :=
  inferrer.fieldAt (.obj members) "" start (findMember "" false none s.key s.value, s.place)

/-- **The roots** are the fields of the members, in order. -/
theorem roots_graphOf (members : List (String × Json)) :
    (inferrer.graphOf start members).roots =
      (spots "" false 0 members).map (inferrer.memberField start members) := by
  rw [graphOf, roots_infer, findings, childrenAt_findMembers "" false noParent, List.map_map]
  rfl

theorem mem_findings_of_spot {s : Spot} (hs : s ∈ spots "" false 0 members) :
    (findMember "" false none s.key s.value, s.place) ∈
      (findings "" (.obj members)).zipIdx := by
  have hchild : (findMember "" false none s.key s.value, s.place) ∈
      childrenAt none (findings "" (.obj members)).zipIdx := by
    rw [findings, childrenAt_findMembers "" false noParent]
    exact List.mem_map_of_mem hs
  exact List.mem_of_mem_filter hchild

/-- **The children of a member's field** are the fields found directly below it. -/
theorem childrenOf_graphOf {s : Spot} (hs : s ∈ spots "" false 0 members) :
    (inferrer.graphOf start members).childrenOf (inferrer.memberField start members s).id =
      (childrenAt (some s.place) ((findBelow s.key false s.place s.value).zipIdx
        (s.place + 1))).map (inferrer.fieldAt (.obj members) "" start) := by
  have hchildren := childrenOf_infer inferrer (.obj members) "" start (mem_findings_of_spot hs)
  rw [findings, childrenAt_findMembers_spot "" false noParent hs] at hchildren
  exact hchildren

/-- What a tree shows for the fields found in an item. -/
theorem ofChildren_item (place : Nat) (key : String) (item : List (String × Json)) :
    ExampleEntry.ofChildren
        ((childrenAt (some place) ((findMembers key true (some place) (place + 1)
          item).zipIdx (place + 1))).map (inferrer.fieldAt (.obj members) "" start)) =
      .items (Members.collapse (item.map fun m => (m.1, sampleType m.2))) := by
  have hparent : ∀ p, some place = some p → p < place + 1 := by
    rintro p ⟨⟩
    exact Nat.lt_succ_self place
  -- Both sides go through the members of the item, of which each has one spot.
  rw [childrenAt_findMembers key true hparent, ExampleEntry.ofChildren, List.map_map,
    List.map_map]
  conv_rhs => rw [← map_spots key true (place + 1) item, List.map_map]
  rfl

/-- **What a tree shows for a member of a sample** depends on the member's value alone. -/
theorem exampleEntry_memberField {s : Spot} (hs : s ∈ spots "" false 0 members) :
    (inferrer.graphOf start members).exampleEntry (inferrer.graphOf start members).childrenIndex
        (inferrer.memberField start members s) = ExampleEntry.ofSample s.value := by
  have htype : (inferrer.memberField start members s).type = inferType s.value := rfl
  have hrequired : (inferrer.memberField start members s).required = false := rfl
  rw [FieldGraph.exampleEntry_childrenIndex, htype, hrequired, childrenOf_graphOf _ _ hs]
  clear hs htype hrequired
  obtain ⟨place, key, v⟩ := s
  -- Only a first item that is an object has anything found in it.
  by_cases harray : (inferType v).isArray
  · obtain ⟨items, rfl⟩ := exists_items_of_isArray harray
    rw [if_pos harray]
    match items with
    | .obj item :: _ => exact inferrer.ofChildren_item start place key item
    | [] | .null :: _ | .bool _ :: _ | .num _ :: _ | .str _ :: _ | .arr _ :: _ => rfl
  · rw [if_neg harray, ExampleEntry.ofSample_of_not_isArray harray]
    rfl

/-- **The tree of a sample**, whatever keys it has. -/
theorem exampleTree_graphOf (members : List (String × Json)) :
    (inferrer.graphOf start members).exampleTree =
      Members.collapse (members.map fun m => (m.1, ExampleEntry.ofSample m.2)) := by
  have hroots : ((inferrer.graphOf start members).roots.map fun r =>
      (r.key, (inferrer.graphOf start members).exampleEntry
        (inferrer.graphOf start members).childrenIndex r)) =
      members.map fun m => (m.1, ExampleEntry.ofSample m.2) := by
    rw [roots_graphOf, List.map_map]
    conv_rhs => rw [← map_spots "" false 0 members, List.map_map]
    refine List.map_congr_left ?_
    intro s hs
    exact Prod.ext rfl (inferrer.exampleEntry_memberField start hs)
  rw [FieldGraph.exampleTree, hroots]

end Inferrer

/-! ### From the tree to a sample and back -/

/-- A value of the type that a tree shows has that type shown. -/
theorem sampleType_sampleValue (v : Json) :
    sampleType (sampleValue (sampleType v)) = sampleType v := by
  have htype : inferType (sampleValue (sampleType v)) = inferType v :=
    (inferType_sampleValue (inferType v) false).trans (DataType.suggested_inferType v)
  rw [sampleType, htype, sampleType]

namespace ExampleEntry

/-- **An instance of what a tree shows** has the same shown again. -/
theorem ofSample_instantiate (v : Json) :
    ofSample (ofSample v).toJson.instantiate = ofSample v := by
  by_cases harray : (inferType v).isArray
  · obtain ⟨vs, rfl⟩ := exists_items_of_isArray harray
    obtain ⟨item, hitem⟩ := exists_ofSample_arr vs
    rw [hitem, instantiate_items]
    split
    · next hnil =>
      rw [hnil]
      rfl
    · rw [ofSample, List.map_map]
      refine congrArg items (Members.collapse_map_collapse
        (fun t => sampleType (sampleValue t)) ?_)
      intro p hp
      obtain ⟨m, -, rfl⟩ := List.mem_map.mp hp
      exact sampleType_sampleValue m.2
  · -- A value of the type shown has that type, so it is no array either.
    have hvalue : (ofSample v).toJson.instantiate = sampleValue (sampleType v) := by
      rw [ofSample_of_not_isArray harray]
      rfl
    have hnot : ¬(inferType (sampleValue (sampleType v))).isArray := by
      have htype : inferType (sampleValue (sampleType v)) = (inferType v).suggested :=
        inferType_sampleValue (inferType v) false
      rwa [htype, DataType.suggested_isArray]
    rw [hvalue, ofSample_of_not_isArray hnot, ofSample_of_not_isArray harray,
      sampleType_sampleValue]

end ExampleEntry

/-- What the tree of a sample shows for a value: for an array the types in its first item, if
that is an object that is not empty, and else the value's own type. -/
def shownFor : Json → Json
  | .arr (.obj (m :: rest) :: _) =>
    .arr [.obj ((m :: rest).map fun m => (m.1, .str (sampleType m.2)))]
  | .arr _ => .arr []
  | v => .str (sampleType v)

theorem ExampleEntry.ofSample_toJson {v : Json} (h : v.Distinct) :
    (ofSample v).toJson = shownFor v := by
  match v with
  | .arr (.obj [] :: _) => rfl
  | .arr (.obj (m :: rest) :: tail) =>
    have hkeys : ((m :: rest).map Prod.fst).Nodup := (h.item List.mem_cons_self).nodup_keys
    rw [ofSample, Members.collapse_map_eq_self hkeys, items_toJson]
    simp only [List.map_cons, List.cons_ne_nil, if_false, List.map_map]
    rfl
  | .arr [] | .arr (.null :: _) | .arr (.bool _ :: _) | .arr (.num _ :: _)
  | .arr (.str _ :: _) | .arr (.arr _ :: _) => rfl
  | .null | .bool _ | .num _ | .str _ | .obj _ => rfl

namespace Inferrer

variable (inferrer : Inferrer)

/-- **An instance of the tree of a sample** has the same tree. -/
theorem exampleTree_instantiate (members : List (String × Json)) (start start' : Int64) :
    (FieldGraph.mk (inferrer.infer
        (inferrer.graphOf start members).exampleTree.toJson.instantiate "" none
        start')).exampleTree =
      (inferrer.graphOf start members).exampleTree := by
  rw [exampleTree_graphOf, ExampleTree.instantiate_toJson]
  refine (exampleTree_graphOf inferrer start' _).trans ?_
  rw [List.map_map]
  refine Members.collapse_map_collapse
    (fun e => ExampleEntry.ofSample e.toJson.instantiate) ?_
  intro p hp
  obtain ⟨m, -, rfl⟩ := List.mem_map.mp hp
  exact ExampleEntry.ofSample_instantiate m.2

/-- **From a sample to its example tree.** The tree has the sample's keys in order and shows for
each of them what its value says, whatever the keys are; and an instance of the tree, read as a
sample, has the same tree again. -/
theorem exampleTree_inferDocument {members : List (String × Json)}
    (h : (Json.obj members).Distinct) :
    let tree := (FieldGraph.mk (inferrer.inferDocument (.obj members))).exampleTree
    tree.toJson = .obj (members.map fun m => (m.1, shownFor m.2)) ∧
      (FieldGraph.mk (inferrer.inferDocument tree.toJson.instantiate)).exampleTree = tree := by
  intro tree
  refine ⟨?_, inferrer.exampleTree_instantiate members 0 0⟩
  have htree : tree = members.map fun m => (m.1, ExampleEntry.ofSample m.2) :=
    (inferrer.exampleTree_graphOf 0 members).trans
      (Members.collapse_map_eq_self h.nodup_keys _)
  rw [htree, ExampleTree.toJson, List.map_map]
  refine congrArg Json.obj (List.map_congr_left ?_)
  intro m hm
  exact Prod.ext rfl (ExampleEntry.ofSample_toJson (h.member hm))

/-- A dotted key next to an array whose items have the key after the dot, an empty key, and an
array of arrays. -/
theorem exampleTree_of_clashing_sample :
    let members := [("a.b", Json.ofNat 1),
      ("a", .arr [.obj [("b", .str "2024-01-01"), ("", .obj [("c", .null)])]]),
      ("", .arr [.arr [.null]]), ("a#2", .bool true)]
    let tree := (FieldGraph.mk (builtIn.inferDocument (.obj members))).exampleTree
    (Json.obj members).Distinct ∧
      tree = [("a.b", .scalar "number | null"),
        ("a", .items [("b", "date | null"), ("", "object | null")]), ("", .items []),
        ("a#2", .scalar "boolean | null")] ∧
      tree.toJson = .obj (members.map fun m => (m.1, shownFor m.2)) ∧
      (FieldGraph.mk (builtIn.inferDocument tree.toJson.instantiate)).exampleTree = tree := by
  intro members tree
  have h : (Json.obj members).Distinct := by
    simp only [members, Json.Distinct, Json.DistinctMembers, Json.DistinctItems, Json.ofNat]
    decide
  exact ⟨h, by decide +kernel, builtIn.exampleTree_inferDocument h⟩

end Inferrer

end ExtractionContract
