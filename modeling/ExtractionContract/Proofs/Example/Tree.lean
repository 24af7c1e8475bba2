import ExtractionContract.Example.Instance
import ExtractionContract.Proofs.Graph.Index
import ExtractionContract.Proofs.Json.Members

/-!
# Example trees and their instances, opened up

What a tree and its instance consist of, in the form in which they are compared with other
things: the members of a tree come from the roots of its graph (`exampleTree_toJson`), and when
keys are unambiguous there is one for each root (`KeysUnambiguous.exampleTree`); an instance has
the tree's keys and a value for each type (`ExampleTree.instantiate_toJson`).
-/

namespace ExtractionContract

namespace Json

theorem instantiateMembers_eq_map (ms : List (String × Json)) :
    instantiateMembers ms = ms.map fun m => (m.1, m.2.instantiate) := by
  induction ms with
  | nil => rfl
  | cons m rest ih => rw [instantiateMembers, ih, List.map_cons]

end Json

/-! ### Entries -/

namespace ExampleEntry

/-- An array of the tree shows its item, unless that has no keys. -/
theorem items_toJson (shape : List (String × String)) :
    (items shape).toJson =
      .arr (if shape = [] then [] else [.obj (shape.map fun m => (m.1, .str m.2))]) := by
  cases shape with
  | nil => rfl
  | cons m rest => rfl

/-- An instance of an array has one item, with a value of each type, unless it has no keys. -/
theorem instantiate_items (shape : List (String × String)) :
    (items shape).toJson.instantiate =
      .arr (if shape = [] then [] else [.obj (shape.map fun m => (m.1, sampleValue m.2))]) := by
  cases shape with
  | nil => rfl
  | cons m rest =>
    rw [items_toJson, if_neg (List.cons_ne_nil m rest), if_neg (List.cons_ne_nil m rest)]
    simp only [Json.instantiate, Json.instantiateItems, Json.instantiateMembers_eq_map,
      List.map_map, Function.comp_def]

end ExampleEntry

/-- An instance of a tree. -/
theorem ExampleTree.instantiate_toJson (tree : ExampleTree) :
    tree.toJson.instantiate = .obj (tree.map fun m => (m.1, m.2.toJson.instantiate)) := by
  rw [toJson, Json.instantiate, Json.instantiateMembers_eq_map, List.map_map]
  rfl

/-! ### Trees -/

namespace FieldGraph

/-- No two roots have one key, and no two children of an array have one. -/
structure KeysUnambiguous (g : FieldGraph) : Prop where
  roots : (g.roots.map Field.key).Nodup
  items : ∀ r ∈ g.roots, r.type.isArray → ((g.childrenOf r.id).map Field.outputKey).Nodup

variable (g : FieldGraph)

/-- What a tree shows for a root, with the children found by going through the graph. -/
theorem exampleEntry_childrenIndex (r : Field) :
    g.exampleEntry g.childrenIndex r =
      if r.type.isArray then ExampleEntry.ofChildren (g.childrenOf r.id)
      else .scalar (r.type.exampleTypeFor r.required) := by
  rw [exampleEntry, indexedChildren_childrenIndex]

/-- The members of the tree, each from its root. -/
theorem exampleTree_toJson :
    g.exampleTree.toJson =
      .obj (Members.collapse (g.roots.map fun r =>
        (r.key, (g.exampleEntry g.childrenIndex r).toJson))) := by
  unfold exampleTree ExampleTree.toJson
  rw [Members.map_collapse, List.map_map]
  rfl

/-- **With unambiguous keys** the tree has one member for each root. -/
theorem KeysUnambiguous.exampleTree {g : FieldGraph} (h : g.KeysUnambiguous) :
    g.exampleTree = g.roots.map fun r => (r.key, g.exampleEntry g.childrenIndex r) :=
  Members.collapse_map_eq_self h.roots _

/-- With unambiguous keys an array's items have one member for each child. -/
theorem KeysUnambiguous.ofChildren {g : FieldGraph} (h : g.KeysUnambiguous) {r : Field}
    (hr : r ∈ g.roots) (harray : r.type.isArray) :
    ExampleEntry.ofChildren (g.childrenOf r.id) =
      .items ((g.childrenOf r.id).map fun f =>
        (f.outputKey, f.type.exampleTypeFor f.required)) := by
  rw [ExampleEntry.ofChildren, Members.collapse_map_eq_self (h.items r hr harray)]

end FieldGraph

end ExtractionContract
