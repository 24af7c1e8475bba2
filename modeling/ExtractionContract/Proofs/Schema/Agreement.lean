import ExtractionContract.Proofs.Example.Tree
import ExtractionContract.Proofs.Example.Types
import ExtractionContract.Proofs.Json.Collapse
import ExtractionContract.Schema.Document
import Mathlib.Data.List.Nodup

/-!
# The example tree and the schema document agree

The example tree and the schema document of a graph describe data of one shape. The tree gives
a key its last value while it is built, the document keeps all properties and gives a key its
last one when it is written; so that the two agree place by place is a statement about what
lists of pairs amount to (`Members.forall₂_collapse`), at the level of the roots and again at
the level of items.

* `SameShape`: what it means that a value of the tree and a property describe the same.
* `MarksRequired`: types without a mark stand exactly under the keys that are required.
* `exampleTree_agrees_with_schemaDocument`: the whole agreement. The part on required keys asks
  that keys be unambiguous, since a key that occurs again is required when any of its fields
  is, while its mark is that of the last one.
-/

namespace ExtractionContract

open Members (Alike)

/-! ### Agreement of values -/

/-- A type shown in a tree against the kind that a property names. -/
def TypeMatches (type kind : String) : Prop :=
  kind = if baseType type = DataType.enumExample then "string" else baseType type

/-- A value of a tree that is a type, against a property of the kind it names. -/
def ScalarMatches (shown property : Json) : Prop :=
  ∃ type kind, shown = .str type ∧ property.member? "type" = some (.str kind) ∧
    TypeMatches type kind

/-- The items of a tree's array against the properties of an item: none against none, or one
object with the same keys in the same order. -/
def ItemsMatch (items : List Json) (properties : List (String × Json)) : Prop :=
  (items = [] ↔ properties = []) ∧
    (items ≠ [] → ∃ shape, items = [.obj shape] ∧
      List.Forall₂ (Alike ScalarMatches) shape properties)

/-- A value of a tree against a property. -/
structure SameShape (shown property : Json) : Prop where
  kind : shown.kind = .str ∨ shown.kind = .arr
  array_iff : shown.kind = .arr ↔ property.member? "type" = some (.str "array")
  scalar : shown.kind = .str → ScalarMatches shown property
  array : ∀ items, shown = .arr items → ∃ item properties,
    property.member? "items" = some item ∧
      item.member? "properties" = some (.obj properties) ∧ ItemsMatch items properties

/-- In members of a tree, the types without a mark stand under the required keys. -/
structure MarksRequired (members : List (String × Json)) (required : List String) : Prop where
  nodup : required.Nodup
  unmarked_iff : ∀ key type, (key, .str type) ∈ members → (¬Marked type ↔ key ∈ required)

/-- The members of the item that a tree's array shows. -/
def itemMembers : Json → List (String × Json)
  | .arr (.obj members :: _) => members
  | _ => []

/-- The item that a value of a tree shows, if any, marks what the item of a property
requires. -/
def ItemMarksRequired (shown property : Json) : Prop :=
  ∀ item, property.member? "items" = some item →
    ∃ required, item.member? "required" = some (.ofStrings required) ∧
      MarksRequired (itemMembers shown) required

/-! ### The document as a value -/

/-- The value of an object's description. -/
theorem collapse_objectMembers (properties : List (String × Json)) (required : List String) :
    (Json.obj (objectMembers properties required)).collapse =
      .obj (objectMembers (Members.collapse (properties.map fun p => (p.1, p.2.collapse)))
        required) := by
  have hkeys : (Members.keys (objectMembers properties required)).Nodup := by
    change ["type", "properties", "required"].Nodup
    decide
  rw [Json.collapse_obj hkeys]
  simp only [objectMembers, List.map_cons, List.map_nil, Json.collapse_ofStrings, Json.collapse,
    Json.collapseMembers_eq_map]

theorem ScalarSchema.collapse_toJson (s : ScalarSchema) : s.toJson.collapse = s.toJson := by
  obtain ⟨type, description, sample⟩ := s
  cases sample with
  | none =>
    have hkeys : ["type", "description"].Nodup := by decide
    exact Json.collapse_obj hkeys
  | some text =>
    have hkeys : ["type", "description", "example"].Nodup := by decide
    exact Json.collapse_obj hkeys

theorem ItemSchema.collapse_toJson (s : ItemSchema) :
    s.toJson.collapse =
      .obj (objectMembers
        (Members.collapse (s.properties.map fun p => (p.1, p.2.toJson))) s.required) := by
  rw [ItemSchema.toJson, collapse_objectMembers, List.map_map]
  simp only [Function.comp_def, ScalarSchema.collapse_toJson]

theorem PropertySchema.collapse_toJson_scalar (s : ScalarSchema) :
    (PropertySchema.scalar s).toJson.collapse = s.toJson :=
  s.collapse_toJson

theorem PropertySchema.collapse_toJson_array (items : ItemSchema) :
    (PropertySchema.array items).toJson.collapse =
      .obj [("type", .str "array"), ("items", items.toJson.collapse)] := by
  have hkeys : ["type", "items"].Nodup := by decide
  exact Json.collapse_obj hkeys

theorem SchemaDocument.value_eq (d : SchemaDocument) :
    d.value = .obj (("$schema", .str dialect) ::
      objectMembers (Members.collapse (d.properties.map fun p => (p.1, p.2.toJson.collapse)))
        d.required) := by
  have hkeys : ["$schema", "type", "properties", "required"].Nodup := by decide
  have hvalue := @Json.collapse_obj (("$schema", .str dialect) ::
    objectMembers (d.properties.map fun p => (p.1, p.2.toJson)) d.required) hkeys
  rw [value, toJson, hvalue]
  simp only [objectMembers, List.map_cons, List.map_nil, Json.collapse_ofStrings, Json.collapse,
    Json.collapseMembers_eq_map, List.map_map]
  rfl

/-! ### One field -/

theorem Field.scalarMatches (f : Field) :
    ScalarMatches (.str (f.type.exampleTypeFor f.required)) f.scalarSchema.toJson := by
  refine ⟨_, f.type.schemaType, rfl, rfl, ?_⟩
  rw [TypeMatches, DataType.baseType_exampleTypeFor]
  exact f.type.schemaType_eq

/-- Lists of fields under the same keys, as an item of the tree and as an item's properties. -/
theorem forall₂_scalarMatches (fields : List Field) :
    List.Forall₂ (Alike ScalarMatches)
      (Members.collapse (fields.map fun f =>
        (f.outputKey, Json.str (f.type.exampleTypeFor f.required))))
      (Members.collapse (fields.map fun f => (f.outputKey, f.scalarSchema.toJson))) := by
  refine Members.forall₂_collapse ?_
  rw [List.forall₂_map_left_iff, List.forall₂_map_right_iff, List.forall₂_same]
  exact fun f _ => ⟨rfl, f.scalarMatches⟩

theorem itemMembers_items (shape : List (String × String)) :
    itemMembers (ExampleEntry.items shape).toJson = shape.map fun m => (m.1, .str m.2) := by
  cases shape with
  | nil => rfl
  | cons m rest => rfl

theorem itemsMatch_of_forall₂ {shape : List (String × String)} {properties : List (String × Json)}
    (h : List.Forall₂ (Alike ScalarMatches) (shape.map fun m => (m.1, .str m.2)) properties) :
    ItemsMatch (if shape = [] then [] else [.obj (shape.map fun m => (m.1, .str m.2))])
      properties := by
  cases shape with
  | nil =>
    obtain rfl := List.forall₂_nil_left_iff.mp h
    exact ⟨iff_of_true rfl rfl, fun hne => absurd rfl hne⟩
  | cons m rest =>
    obtain ⟨p, properties, -, -, rfl⟩ := List.forall₂_cons_left_iff.mp h
    rw [if_neg (List.cons_ne_nil m rest)]
    exact ⟨iff_of_false (List.cons_ne_nil _ _) (List.cons_ne_nil _ _), fun _ => ⟨_, rfl, h⟩⟩

/-- **An array of the tree** shows the keys of the item that the document describes. -/
theorem sameShape_array (children : List Field) :
    SameShape (ExampleEntry.ofChildren children).toJson
      (PropertySchema.array (ItemSchema.ofFields children)).toJson.collapse := by
  rw [PropertySchema.collapse_toJson_array, ItemSchema.collapse_toJson, ItemSchema.ofFields,
    List.map_map, ExampleEntry.ofChildren, ExampleEntry.items_toJson]
  refine ⟨.inr rfl, iff_of_true rfl rfl, ?_, ?_⟩
  · intro hkind
    cases hkind
  intro _ hitems
  cases hitems
  -- Both are made of the same children, and collapsed in the same way.
  refine ⟨_, _, rfl, rfl, itemsMatch_of_forall₂ ?_⟩
  rw [Members.map_collapse, List.map_map]
  exact forall₂_scalarMatches children

/-- **A type of the tree** is the type that the document names. -/
theorem sameShape_scalar {f : Field} (h : ¬f.type.isArray) :
    SameShape (ExampleEntry.scalar (f.type.exampleTypeFor f.required)).toJson
      (PropertySchema.scalar f.scalarSchema).toJson.collapse := by
  rw [PropertySchema.collapse_toJson_scalar]
  refine ⟨.inl rfl, iff_of_false ?_ ?_, fun _ => f.scalarMatches, ?_⟩
  · intro hkind
    cases hkind
  · intro htype
    exact h (f.type.schemaType_eq_array_iff.mp (Json.str.inj (Option.some.inj htype)))
  · intro items hitems
    cases hitems

/-! ### Required keys -/

/-- Fields under distinct keys: the unmarked types are those of the required fields. -/
theorem MarksRequired.of_fields {fields : List Field} {key : Field → String}
    (shown : Field → Json) (hkeys : (fields.map key).Nodup)
    (hshown : ∀ f ∈ fields, ∀ type, shown f = .str type →
      type = f.type.exampleTypeFor f.required) :
    MarksRequired (fields.map fun f => (key f, shown f))
      ((fields.filter Field.required).map key) where
  nodup := (List.filter_sublist.map key).nodup hkeys
  unmarked_iff := by
    intro k type hmem
    obtain ⟨f, hf, hpair⟩ := List.mem_map.mp hmem
    obtain ⟨rfl, hstr⟩ := Prod.mk.inj hpair
    rw [hshown f hf type hstr, DataType.marked_exampleTypeFor, Bool.not_eq_false]
    constructor
    · intro hrequired
      exact List.mem_map_of_mem (List.mem_filter.mpr ⟨hf, hrequired⟩)
    · intro hk
      -- Distinct keys: the required field with this key is the field itself.
      obtain ⟨f', hf', hkey⟩ := List.mem_map.mp hk
      obtain ⟨hmem', hrequired⟩ := List.mem_filter.mp hf'
      rwa [List.inj_on_of_nodup_map hkeys hmem' hf hkey] at hrequired

/-- **Items mark what their descriptions require**, when the fields of an item have distinct
keys. -/
theorem itemMarksRequired_array {children : List Field}
    (hkeys : (children.map Field.outputKey).Nodup) :
    ItemMarksRequired (ExampleEntry.ofChildren children).toJson
      (PropertySchema.array (ItemSchema.ofFields children)).toJson.collapse := by
  have hmarks := MarksRequired.of_fields
    (fun f => .str (f.type.exampleTypeFor f.required)) hkeys
    fun f _ type htype => (Json.str.inj htype).symm
  have hmembers : itemMembers (ExampleEntry.ofChildren children).toJson =
      children.map fun f => (f.outputKey, .str (f.type.exampleTypeFor f.required)) := by
    rw [ExampleEntry.ofChildren, Members.collapse_map_eq_self hkeys, itemMembers_items,
      List.map_map]
    rfl
  rw [PropertySchema.collapse_toJson_array, ItemSchema.collapse_toJson]
  rintro _ ⟨⟩
  refine ⟨_, rfl, ?_⟩
  rw [hmembers]
  exact hmarks

theorem itemMarksRequired_scalar (f : Field) (shown : Json) :
    ItemMarksRequired shown (PropertySchema.scalar f.scalarSchema).toJson.collapse := by
  intro item hitem
  rw [PropertySchema.collapse_toJson_scalar] at hitem
  unfold Field.scalarSchema ScalarSchema.toJson at hitem
  cases hsample : nonEmpty f.sample with
  | none =>
    rw [hsample] at hitem
    exact absurd hitem (Option.some_ne_none item).symm
  | some text =>
    rw [hsample] at hitem
    exact absurd hitem (Option.some_ne_none item).symm

/-! ### The whole agreement -/

namespace FieldGraph

variable (g : FieldGraph)

/-- The properties of the document, each from its root. -/
theorem schemaDocument_value :
    g.schemaDocument.value =
      .obj (("$schema", .str SchemaDocument.dialect) ::
        objectMembers (Members.collapse (g.roots.map fun r =>
            (r.key, (g.propertySchema g.childrenIndex r).toJson.collapse)))
          ((g.roots.filter Field.required).map Field.key)) := by
  rw [SchemaDocument.value_eq, schemaDocument, List.map_map]
  rfl

/-- What a document says of a root, with the children found by going through the graph. -/
theorem propertySchema_childrenIndex (r : Field) :
    g.propertySchema g.childrenIndex r =
      if r.type.isArray then .array (g.itemSchema r) else .scalar r.scalarSchema := by
  rw [propertySchema, indexedChildren_childrenIndex, itemSchema]

/-- **One root** has the same shape in the tree and in the document. -/
theorem sameShape_root (r : Field) :
    SameShape (g.exampleEntry g.childrenIndex r).toJson
      (g.propertySchema g.childrenIndex r).toJson.collapse := by
  rw [exampleEntry_childrenIndex, propertySchema_childrenIndex]
  split
  · exact sameShape_array (g.childrenOf r.id)
  · next h => exact sameShape_scalar h

/-- One root of a graph with unambiguous keys. -/
theorem KeysUnambiguous.itemMarksRequired {g : FieldGraph} (h : g.KeysUnambiguous) {r : Field}
    (hr : r ∈ g.roots) :
    ItemMarksRequired (g.exampleEntry g.childrenIndex r).toJson
      (g.propertySchema g.childrenIndex r).toJson.collapse := by
  rw [exampleEntry_childrenIndex, propertySchema_childrenIndex]
  split
  · next harray => exact itemMarksRequired_array (h.items r hr harray)
  · exact itemMarksRequired_scalar r _

/-- A type that the tree shows for a root is the root's own. -/
theorem type_of_exampleEntry {r : Field} {type : String}
    (h : (g.exampleEntry g.childrenIndex r).toJson = .str type) :
    type = r.type.exampleTypeFor r.required := by
  rw [exampleEntry_childrenIndex] at h
  split at h
  · rw [ExampleEntry.ofChildren, ExampleEntry.items_toJson] at h
    cases h
  · exact (Json.str.inj h).symm

/-- **The example tree and the schema document describe the same shape.** The keys of the tree
are those of the properties, in the same order, and the two agree at each of them; when keys
are unambiguous, the marks in the tree and in its items say what the document requires. -/
theorem exampleTree_agrees_with_schemaDocument :
    ∃ entries properties required,
      g.exampleTree.toJson = .obj entries ∧
      g.schemaDocument.value.member? "properties" = some (.obj properties) ∧
      g.schemaDocument.value.member? "required" = some (.ofStrings required) ∧
      (Members.keys entries).Nodup ∧
      List.Forall₂ (Alike SameShape) entries properties ∧
      (g.KeysUnambiguous →
        MarksRequired entries required ∧
          List.Forall₂ (Alike ItemMarksRequired) entries properties) := by
  rw [exampleTree_toJson, schemaDocument_value]
  -- Root by root the tree and the document agree, so they do after repeated keys are merged.
  refine ⟨_, _, _, rfl, rfl, rfl, Members.nodup_keys_collapse _, ?_, fun h => ⟨?_, ?_⟩⟩
  · refine Members.forall₂_collapse ?_
    rw [List.forall₂_map_left_iff, List.forall₂_map_right_iff, List.forall₂_same]
    exact fun r _ => ⟨rfl, g.sameShape_root r⟩
  · rw [Members.collapse_map_eq_self h.roots]
    exact MarksRequired.of_fields _ h.roots fun r _ type htype => g.type_of_exampleEntry htype
  · refine Members.forall₂_collapse ?_
    rw [List.forall₂_map_left_iff, List.forall₂_map_right_iff, List.forall₂_same]
    exact fun r hr => ⟨rfl, h.itemMarksRequired hr⟩

/-- An order with a required key, an optional one, and lines of which each must have a name. -/
theorem marks_of_order :
    let g : FieldGraph := ⟨[{ id := "1", key := "number", required := true },
      { id := "2", key := "lines", type := .array }, { id := "3", key := "note" },
      { id := "4", key := "lines.name", outputName := some "name", required := true,
        parent := some "2" },
      { id := "5", key := "lines.qty", outputName := some "qty", type := .integer,
        parent := some "2" }]⟩
    let entries : List (String × Json) := [("number", .str "string"),
      ("lines", .arr [.obj [("name", .str "string"), ("qty", .str "integer | null")]]),
      ("note", .str "string | null")]
    g.KeysUnambiguous ∧ g.exampleTree.toJson = .obj entries ∧
      g.schemaDocument.value.member? "required" = some (.ofStrings ["number"]) ∧
      MarksRequired entries ["number"] := by
  intro g entries
  have h : g.KeysUnambiguous := ⟨by decide, by decide⟩
  have hentries : g.exampleTree.toJson = .obj entries := rfl
  have hrequired : g.schemaDocument.value.member? "required" = some (.ofStrings ["number"]) := rfl
  obtain ⟨entries', _, required, hentries', _, hrequired', _, _, hmarks⟩ :=
    g.exampleTree_agrees_with_schemaDocument
  obtain rfl : entries = entries' := Json.obj.inj (hentries.symm.trans hentries')
  have hkeys := Json.arr.inj (Option.some.inj (hrequired.symm.trans hrequired'))
  obtain rfl : ["number"] = required := List.map_injective_iff.mpr (fun _ _ => Json.str.inj) hkeys
  exact ⟨h, hentries, hrequired, (hmarks h).1⟩

end FieldGraph

end ExtractionContract
