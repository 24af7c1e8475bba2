import ExtractionContract.Graph.Naming
import ExtractionContract.Proofs.Example.Tree
import ExtractionContract.Proofs.Sample.Forest
import ExtractionContract.Proofs.Sample.Values
import Mathlib.Data.List.Forall2
import Mathlib.Data.List.Nodup

/-!
# Fields recovered from an instance

A graph is *tabular* when its fields are roots and, below arrays, the fields of their items,
with keys that say so. All of such a graph is shown by its example tree, and so an instance of
the tree, read as a sample, has a field for each field of the graph.

The instance is read in the order of `FieldGraph.layout`: each root, then the fields of its
items. `mirrors_findMembers` goes through the layout and the findings side by side, where a
finding `Mirrors` a field when it has its key, the type its values suggest, and names the place
at which the field's parent stands.

* `Tabular.perm_layout`: the layout holds each field once, in whatever order they are stored.
* `inferDocument_instantiate`: the recovered fields, and whose parents they have.
-/

namespace ExtractionContract

/-! ### Tabular graphs -/

namespace FieldGraph

/-- Fields are roots or the fields of an array's items, and keys are distinct and spelled out:
that of an item's field is the array's key, a dot, and the key inside the item. -/
structure Tabular (g : FieldGraph) : Prop extends KeysUnambiguous g where
  nodup_ids : g.ids.Nodup
  root_key : ∀ r ∈ g.roots, r.key ≠ ""
  owner : ∀ f ∈ g.fields, ¬f.isRoot → ∃ r ∈ g.roots, r.type.isArray ∧
    f.parent = some r.id ∧ f.key = r.key ++ "." ++ f.outputKey

variable (g : FieldGraph)

/-- The fields of a root's items. -/
def itemFields (r : Field) : List Field :=
  if r.type.isArray then g.childrenOf r.id else []

/-- Each of some roots, and after it the fields of its items. -/
def layoutOf (rs : List Field) : List Field :=
  rs.flatMap fun r => r :: g.itemFields r

/-- Each root, and after it the fields of its items. -/
def layout : List Field :=
  g.layoutOf g.roots

variable {g}

theorem mem_roots_iff {f : Field} : f ∈ g.roots ↔ f ∈ g.fields ∧ f.parent = none := by
  rw [roots, List.mem_filter, Field.isRoot, Option.isNone_iff_eq_none]

theorem mem_itemFields_iff {r f : Field} :
    f ∈ g.itemFields r ↔ r.type.isArray ∧ f ∈ g.fields ∧ f.parent = some r.id := by
  unfold itemFields
  split
  · next harray =>
    rw [childrenOf, List.mem_filter, Field.isChildOf_iff]
    exact (and_iff_right harray).symm
  · next harray => exact iff_of_false List.not_mem_nil fun h => harray h.1

namespace Tabular

variable (h : g.Tabular)

include h

/-- A field is known by its identifier. -/
theorem eq_of_id {f f' : Field} (hf : f ∈ g.fields) (hf' : f' ∈ g.fields) (hid : f.id = f'.id) :
    f = f' :=
  List.inj_on_of_nodup_map h.nodup_ids hf hf' hid

/-- The key of a field of a root's items. -/
theorem key_of_mem_itemFields {r f : Field} (hr : r ∈ g.roots) (hf : f ∈ g.itemFields r) :
    f.key = r.key ++ "." ++ f.outputKey := by
  obtain ⟨-, hmem, hparent⟩ := mem_itemFields_iff.mp hf
  have hnotRoot : ¬f.isRoot := by
    rw [Field.isRoot, hparent]
    exact Bool.false_ne_true
  obtain ⟨owner, howner, -, hparent', hkey⟩ := h.owner f hmem hnotRoot
  have hid : owner.id = r.id := Option.some.inj (hparent'.symm.trans hparent)
  rwa [h.eq_of_id (mem_roots_iff.mp howner).1 (mem_roots_iff.mp hr).1 hid] at hkey

theorem nodup_fields : g.fields.Nodup :=
  List.Nodup.of_map Field.id h.nodup_ids

theorem mem_layout_iff {f : Field} : f ∈ g.layout ↔ f ∈ g.fields := by
  rw [layout, layoutOf, List.mem_flatMap]
  constructor
  · rintro ⟨r, hr, hf⟩
    rcases List.mem_cons.mp hf with rfl | hf
    · exact (mem_roots_iff.mp hr).1
    · exact (mem_itemFields_iff.mp hf).2.1
  · intro hf
    by_cases hroot : f.isRoot
    · exact ⟨f, List.mem_filter.mpr ⟨hf, hroot⟩, List.mem_cons_self⟩
    · obtain ⟨r, hr, harray, hparent, -⟩ := h.owner f hf hroot
      exact ⟨r, hr, List.mem_cons_of_mem r (mem_itemFields_iff.mpr ⟨harray, hf, hparent⟩)⟩

/-- Roots are not fields of items, and fields of items name their root. -/
theorem nodup_layout : g.layout.Nodup := by
  have hchild : ∀ r r' : Field, r ∈ g.roots → r ∉ g.itemFields r' := by
    intro r r' hr hmem
    have hnone := (mem_roots_iff.mp hr).2
    rw [(mem_itemFields_iff.mp hmem).2.2] at hnone
    exact Option.some_ne_none _ hnone
  refine List.nodup_flatMap.mpr ⟨?_, ?_⟩
  · intro r hr
    refine List.nodup_cons.mpr ⟨hchild r r hr, ?_⟩
    unfold itemFields
    split
    · exact h.nodup_fields.filter _
    · exact List.nodup_nil
  · have hroots : g.roots.Nodup := h.nodup_fields.filter _
    refine hroots.imp_of_mem ?_
    -- A field in the parts of two roots is one of them, or names both as its parent.
    intro r r' hr hr' hne f hf hf'
    rcases List.mem_cons.mp hf with rfl | hf <;> rcases List.mem_cons.mp hf' with rfl | hf'
    · exact hne rfl
    · exact hchild f r' hr hf'
    · exact hchild f r hr' hf
    · have hparent := (mem_itemFields_iff.mp hf).2.2
      have hid := Option.some.inj (hparent.symm.trans (mem_itemFields_iff.mp hf').2.2)
      exact hne (h.eq_of_id (mem_roots_iff.mp hr).1 (mem_roots_iff.mp hr').1 hid)

/-- **The layout holds each field once.** -/
theorem perm_layout : g.layout.Perm g.fields :=
  (List.perm_ext_iff_of_nodup h.nodup_layout h.nodup_fields).mpr fun _ => h.mem_layout_iff

end Tabular

/-! ### Instances -/

/-- What an instance holds for a root. -/
def instanceOf (g : FieldGraph) (r : Field) : Json :=
  (g.exampleEntry g.childrenIndex r).toJson.instantiate

theorem instanceOf_of_not_isArray {r : Field} (hr : ¬r.type.isArray) :
    g.instanceOf r = sampleValue (r.type.exampleTypeFor r.required) := by
  rw [instanceOf, exampleEntry_childrenIndex, if_neg hr]
  rfl

/-- The members of an item with the given fields. -/
def itemInstance (fields : List Field) : List (String × Json) :=
  fields.map fun f => (f.outputKey, sampleValue (f.type.exampleTypeFor f.required))

theorem Tabular.instanceOf_of_isArray (h : g.Tabular) {r : Field} (hr : r ∈ g.roots)
    (harray : r.type.isArray) :
    g.instanceOf r = .arr (if g.itemFields r = [] then []
      else [.obj (itemInstance (g.itemFields r))]) := by
  have hfields : g.itemFields r = g.childrenOf r.id := if_pos harray
  rw [instanceOf, exampleEntry_childrenIndex, if_pos harray,
    h.toKeysUnambiguous.ofChildren hr harray, ExampleEntry.instantiate_items, hfields]
  simp only [List.map_eq_nil_iff, List.map_map]
  rfl

/-- **An instance of a tabular graph's tree** has a member for each root. -/
theorem Tabular.instantiate_exampleTree (h : g.Tabular) :
    g.exampleTree.toJson.instantiate = .obj (g.roots.map fun r => (r.key, g.instanceOf r)) := by
  rw [h.toKeysUnambiguous.exampleTree, ExampleTree.instantiate_toJson, List.map_map]
  rfl

end FieldGraph

/-! ### Findings in an instance -/

/-- Of members below which there is nothing, each is found and nothing else. -/
theorem findMembers_of_findBelow_eq_nil {inItem : Bool} {members : List (String × Json)}
    (h : ∀ m ∈ members, ∀ key place, findBelow key inItem place m.2 = []) (parentKey : String)
    (parent : Option Nat) (place : Nat) :
    findMembers parentKey inItem parent place members =
      members.map fun m => findMember parentKey inItem parent m.1 m.2 := by
  induction members generalizing place with
  | nil => rfl
  | cons m rest ih =>
    have hbelow := h m List.mem_cons_self (joinKey parentKey m.1) place
    have hrest := ih fun m' hm' => h m' (List.mem_cons_of_mem m hm')
    rw [findMembers, hbelow, hrest, List.map_cons, List.cons_append, List.nil_append]

namespace FieldGraph

variable {g : FieldGraph}

/-- The finding of a field of an item, when the item's root stands at a place. -/
def itemFinding (r : Field) (place : Nat) (f : Field) : Finding :=
  findMember r.key true (some place) f.outputKey
    (sampleValue (f.type.exampleTypeFor f.required))

/-- **What is found below a root's value** are the fields of its items, each once. -/
theorem Tabular.findBelow_instanceOf (h : g.Tabular) {r : Field} (hr : r ∈ g.roots)
    (place : Nat) :
    findBelow r.key false place (g.instanceOf r) =
      (g.itemFields r).map (itemFinding r place) := by
  by_cases harray : r.type.isArray
  · rw [h.instanceOf_of_isArray hr harray]
    split
    · next hnil => rw [hnil]; rfl
    · -- The members of an item hold sample values, and nothing is found below these.
      have hleaves : ∀ m ∈ itemInstance (g.itemFields r), ∀ key place,
          findBelow key true place m.2 = [] := by
        intro m hm key place
        obtain ⟨f, -, rfl⟩ := List.mem_map.mp hm
        exact findBelow_sampleValue key true place _
      calc findBelow r.key false place (.arr [.obj (itemInstance (g.itemFields r))])
          = findMembers r.key true (some place) (place + 1)
              (itemInstance (g.itemFields r)) := by
            rw [findBelow, if_neg Bool.false_ne_true]
        _ = (itemInstance (g.itemFields r)).map fun m =>
              findMember r.key true (some place) m.1 m.2 :=
            findMembers_of_findBelow_eq_nil hleaves _ _ _
        _ = (g.itemFields r).map (itemFinding r place) := by
            rw [itemInstance, List.map_map]
            rfl
  · rw [instanceOf_of_not_isArray harray, findBelow_sampleValue, itemFields, if_neg harray]
    rfl

theorem Tabular.inferType_instanceOf (h : g.Tabular) {r : Field} (hr : r ∈ g.roots) :
    inferType (g.instanceOf r) = r.type.suggested := by
  by_cases harray : r.type.isArray
  · have htype : r.type = .array := beq_iff_eq.mp harray
    rw [h.instanceOf_of_isArray hr harray, htype]
    rfl
  · rw [instanceOf_of_not_isArray harray, inferType_sampleValue]

/-- What a finding in an instance has of the field that the instance was made for. Parents of
findings are places; the identifiers are those of the fields by place. -/
structure Mirrors (ids : List String) (f : Field) (d : Finding) : Prop where
  key : d.key = f.key
  type : d.type = f.type.suggested
  parent : d.parent.map (fun p => ids[p]?) = f.parent.map some

theorem Tabular.mirrors_itemFinding (h : g.Tabular) {ids : List String} {r f : Field}
    (hr : r ∈ g.roots) {place : Nat} (hplace : ids[place]? = some r.id)
    (hf : f ∈ g.itemFields r) : Mirrors ids f (itemFinding r place f) where
  key := by
    have hkey : joinKey r.key f.outputKey = r.key ++ "." ++ f.outputKey :=
      if_neg (h.root_key r hr)
    exact hkey.trans (h.key_of_mem_itemFields hr hf).symm
  type := inferType_sampleValue f.type f.required
  parent := by
    rw [(mem_itemFields_iff.mp hf).2.2]
    exact congrArg some hplace

/-- **The findings in an instance mirror the layout**, from any root on: by induction on the
roots, where those before are known by their identifiers. -/
theorem Tabular.mirrors_findMembers (h : g.Tabular) {ids front : List String} {rs : List Field}
    (hrs : ∀ r ∈ rs, r ∈ g.roots) (hids : ids = front ++ (g.layoutOf rs).map Field.id) :
    List.Forall₂ (Mirrors ids) (g.layoutOf rs)
      (findMembers "" false none front.length (rs.map fun r => (r.key, g.instanceOf r))) := by
  induction rs generalizing front with
  | nil => exact .nil
  | cons r rest ih =>
    -- The root stands at the end of `front`, its items' fields after it, and the rest last.
    obtain ⟨hr, hrest⟩ := List.forall_mem_cons.mp hrs
    have hlayout : g.layoutOf (r :: rest) = r :: (g.itemFields r ++ g.layoutOf rest) :=
      List.flatMap_cons
    have hkey : joinKey "" r.key = r.key := if_pos rfl
    have hplace : ids[front.length]? = some r.id := by
      rw [hids, hlayout, List.getElem?_append_right (Nat.le_refl _), Nat.sub_self]
      rfl
    have hroot : Mirrors ids r (findMember "" false none r.key (g.instanceOf r)) := by
      refine ⟨hkey, h.inferType_instanceOf hr, ?_⟩
      rw [(mem_roots_iff.mp hr).2]
      rfl
    have hitems : List.Forall₂ (Mirrors ids) (g.itemFields r)
        ((g.itemFields r).map (itemFinding r front.length)) := by
      rw [List.forall₂_map_right_iff, List.forall₂_same]
      exact fun f hf => h.mirrors_itemFinding hr hplace hf
    have hfront : (front ++ (r :: g.itemFields r).map Field.id).length =
        front.length + 1 + (g.itemFields r).length := by
      rw [List.length_append, List.length_map, List.length_cons]
      omega
    -- The tail is the statement for a longer `front`.
    have htail := @ih (front ++ (r :: g.itemFields r).map Field.id) hrest (by
      rw [hids, hlayout, List.append_assoc, ← List.map_append, List.cons_append])
    rw [hlayout, List.map_cons, findMembers, hkey, h.findBelow_instanceOf hr, List.length_map,
      ← hfront]
    exact .cons hroot (List.rel_append hitems htail)

/-- The findings in an instance of a whole tree. -/
theorem Tabular.mirrors_findings (h : g.Tabular) :
    List.Forall₂ (Mirrors (g.layout.map Field.id)) g.layout
      (findings "" g.exampleTree.toJson.instantiate) := by
  rw [h.instantiate_exampleTree]
  exact @mirrors_findMembers g h _ [] g.roots (fun _ hr => hr) rfl

end FieldGraph

/-! ### The fields recovered -/

namespace Inferrer

open FieldGraph

variable (inferrer : Inferrer) {g : FieldGraph}

/-- The fields of a graph by place, each with the one recovered for it. -/
def origins (g : FieldGraph) : List (Field × Field) :=
  g.layout.zip (inferrer.inferDocument g.exampleTree.toJson.instantiate)

theorem length_inferDocument (v : Json) :
    (inferrer.inferDocument v).length = (findings "" v).length := by
  rw [inferDocument, infer_eq_map, List.length_map, List.length_zipIdx]

theorem fst_origins (h : g.Tabular) : (inferrer.origins g).map Prod.fst = g.layout := by
  refine List.map_fst_zip (Nat.le_of_eq ?_)
  rw [length_inferDocument]
  exact h.mirrors_findings.length_eq

theorem snd_origins (h : g.Tabular) :
    (inferrer.origins g).map Prod.snd =
      inferrer.inferDocument g.exampleTree.toJson.instantiate := by
  refine List.map_snd_zip (Nat.le_of_eq ?_)
  rw [length_inferDocument]
  exact h.mirrors_findings.length_eq.symm

/-- **The place of a field** in the layout is that of the finding its recovered field is of. -/
theorem exists_place_of_mem_origins (h : g.Tabular) {x : Field × Field}
    (hx : x ∈ inferrer.origins g) :
    ∃ y ∈ (findings "" g.exampleTree.toJson.instantiate).zipIdx,
      (g.layout.map Field.id)[y.2]? = some x.1.id ∧
      x.2 = inferrer.fieldAt g.exampleTree.toJson.instantiate "" 0 y ∧
      Mirrors (g.layout.map Field.id) x.1 y.1 := by
  obtain ⟨i, hi⟩ := List.mem_iff_getElem?.mp hx
  obtain ⟨hlayout, hfield⟩ := List.getElem?_zip_eq_some.mp hi
  rw [inferDocument, infer_eq_map, List.getElem?_map, Option.map_eq_some_iff] at hfield
  obtain ⟨y, hy, hx2⟩ := hfield
  obtain ⟨d, hd, rfl⟩ : ∃ d, (findings "" g.exampleTree.toJson.instantiate)[i]? = some d ∧
      (d, i) = y := by
    rw [List.getElem?_zipIdx, Nat.zero_add, Option.map_eq_some_iff] at hy
    exact hy
  refine ⟨(d, i), List.mem_of_getElem? hy, ?_, hx2.symm, ?_⟩
  · rw [List.getElem?_map, hlayout]
    rfl
  · have hzip : (g.layout.zip (findings "" g.exampleTree.toJson.instantiate))[i]? =
        some (x.1, d) := List.getElem?_zip_eq_some.mpr ⟨hlayout, hd⟩
    exact (List.forall₂_iff_zip.mp h.mirrors_findings).2 (List.mem_of_getElem? hzip)

/-- **A recovered field** has the key of the field it was recovered for and the type that its
values suggest; it has no parent if that one has none, and else the field recovered for the
parent. -/
theorem recovered (h : g.Tabular) {x : Field × Field} (hx : x ∈ inferrer.origins g) :
    x.2.key = x.1.key ∧ x.2.type = x.1.type.suggested ∧
      (x.1.parent = none → x.2.parent = none) ∧
      ∀ y ∈ inferrer.origins g, x.1.parent = some y.1.id → x.2.parent = some y.2.id := by
  obtain ⟨u, -, -, hx2, hmirrors⟩ := inferrer.exists_place_of_mem_origins h hx
  have hparent := parent_fieldAt inferrer g.exampleTree.toJson.instantiate "" 0 u
  rw [hx2]
  refine ⟨hmirrors.key, hmirrors.type, ?_, ?_⟩
  · intro hroot
    -- A finding names a parent exactly when the field it mirrors does.
    have hnone := hmirrors.parent
    rw [hroot, Option.map_none, Option.map_eq_none_iff] at hnone
    rw [hparent, hnone, Option.bind_none]
  · intro y hy hchild
    -- The place that the finding names has the identifier of `y.1`, so it is that of `y.1`.
    obtain ⟨w, hw, hplace, hy2, -⟩ := inferrer.exists_place_of_mem_origins h hy
    have hsome := hmirrors.parent
    rw [hchild, Option.map_some, Option.map_eq_some_iff] at hsome
    obtain ⟨p, hp, hpid⟩ := hsome
    have hnodup : (g.layout.map Field.id).Nodup :=
      (h.perm_layout.map Field.id).nodup_iff.mpr h.nodup_ids
    obtain ⟨hlt, -⟩ := List.getElem?_eq_some_iff.mp hpid
    have hpw : p = w.2 := (List.getElem?_inj hlt hnodup).mp (hpid.trans hplace.symm)
    rw [hparent, hp, Option.bind_some, hpw, hy2]
    exact getElem?_idsOf hw

/-- **From a tabular graph to an instance and back.** The fields of an instance of the graph's
tree have the graph's keys and, as often as there, the types that values of its types suggest.
Each field of the graph is the origin of one of them, and the parent's is the parent's. -/
theorem inferDocument_instantiate (h : g.Tabular) :
    let inferred := inferrer.inferDocument g.exampleTree.toJson.instantiate
    (inferred.map fun f => (f.key, f.type)).Perm
        (g.fields.map fun f => (f.key, f.type.suggested)) ∧
      ∃ origins : List (Field × Field), (origins.map Prod.fst).Perm g.fields ∧
        origins.map Prod.snd = inferred ∧
        ∀ x ∈ origins, x.2.key = x.1.key ∧ x.2.type = x.1.type.suggested ∧
          (x.1.parent = none → x.2.parent = none) ∧
          ∀ y ∈ origins, x.1.parent = some y.1.id → x.2.parent = some y.2.id := by
  intro inferred
  have hfst : ((inferrer.origins g).map Prod.fst).Perm g.fields := by
    rw [inferrer.fst_origins h]
    exact h.perm_layout
  have hsnd : (inferrer.origins g).map Prod.snd = inferred := inferrer.snd_origins h
  refine ⟨?_, inferrer.origins g, hfst, hsnd, fun x hx => inferrer.recovered h hx⟩
  have hpairs : (inferrer.origins g).map (fun x => (x.2.key, x.2.type)) =
      (inferrer.origins g).map fun x => (x.1.key, x.1.type.suggested) := by
    refine List.map_congr_left fun x hx => ?_
    obtain ⟨hkey, htype, -⟩ := inferrer.recovered h hx
    rw [hkey, htype]
  have hperm := hfst.map fun f => (f.key, f.type.suggested)
  rw [List.map_map] at hperm
  rw [← hsnd, List.map_map]
  exact (List.Perm.of_eq hpairs).trans hperm

/-- An array whose only item field has the key of a root, with the fields of two arrays stored
among each other. -/
theorem inferDocument_instantiate_of_clash :
    let g : FieldGraph := ⟨[
      { id := "4", key := "a.b", outputName := some "b", type := .integer, required := true,
        parent := some "2" },
      { id := "1", key := "a.b", type := .datetime },
      { id := "6", key := "c.on", outputName := some "on", type := .boolean,
        parent := some "3" },
      { id := "2", key := "a", type := .array },
      { id := "5", key := "a.list", outputName := some "list", type := .array,
        parent := some "2" },
      { id := "3", key := "c", type := .array, required := true }]⟩
    let inferred := builtIn.inferDocument g.exampleTree.toJson.instantiate
    g.Tabular ∧
      inferred.map (fun f => (f.id, f.key, f.type, f.parent)) =
        [("a.b", "a.b", .string, none), ("a", "a", .array, none),
          ("a.b#2", "a.b", .number, some "a"), ("a.list", "a.list", .array, some "a"),
          ("c", "c", .array, none), ("c.on", "c.on", .boolean, some "c")] ∧
      (inferred.map fun f => (f.key, f.type)).Perm
        (g.fields.map fun f => (f.key, f.type.suggested)) := by
  intro g inferred
  have h : g.Tabular := ⟨⟨by decide, by decide⟩, by decide, by decide, by decide⟩
  exact ⟨h, by decide +kernel, (builtIn.inferDocument_instantiate h).1⟩

end Inferrer

end ExtractionContract
