import ExtractionContract.Proofs.Json.Indented
import ExtractionContract.Proofs.Schema.Agreement

/-!
# The text of a schema document

A schema document is written as it stands, with every property of it; as a value it holds each
key once. Whatever strings its graph has for keys, names, descriptions and samples, the text is
JSON and says that value: it nests six containers and holds no numbers, so it can be read
(`SchemaDocument.legible_toJson`), and the reader collapses repeated keys as the value does.

* `Describes`: what the value says of a root.
* `parse_text_schemaDocument`: reading the text gives the value, and what the value is. Roots of
  one key leave one property, in the first root's place and of the last root's description, and so
  do an array's children of one output key.
-/

namespace ExtractionContract

open Json (Legible)

/-! ### Documents can be read -/

section

variable {d : Nat}

theorem Json.legible_ofStrings (ss : List String) : Legible (d + 1) (.ofStrings ss) :=
  .arr (List.forall_mem_map.mpr fun _ _ => .str)

/-- The members of an object's description, when its properties can be read. -/
theorem legible_objectMembers {properties : List (String × Json)}
    (h : ∀ p ∈ properties, Legible d p.2) (required : List String) :
    ∀ m ∈ objectMembers properties required, Legible (d + 1) m.2 := by
  intro m hm
  simp only [objectMembers, List.mem_cons, List.not_mem_nil, or_false] at hm
  rcases hm with rfl | rfl | rfl
  · exact .str
  · exact .obj h
  · exact Json.legible_ofStrings required

theorem ScalarSchema.legible_toJson (s : ScalarSchema) : Legible (d + 1) s.toJson := by
  refine .obj (List.forall_mem_append.mpr ⟨?_, ?_⟩)
  · simp only [List.forall_mem_cons]
    exact ⟨.str, .str, List.forall_mem_nil _⟩
  · cases s.sample with
    | none => exact List.forall_mem_nil _
    | some sample => exact List.forall_mem_singleton.mpr .str

theorem ItemSchema.legible_toJson (s : ItemSchema) : Legible (d + 3) s.toJson :=
  .obj (legible_objectMembers (List.forall_mem_map.mpr fun p _ => p.2.legible_toJson) s.required)

theorem PropertySchema.legible_toJson (s : PropertySchema) : Legible (d + 4) s.toJson := by
  cases s with
  | scalar s => exact s.legible_toJson
  | array items =>
    refine .obj ?_
    simp only [List.forall_mem_cons]
    exact ⟨.str, items.legible_toJson, List.forall_mem_nil _⟩

/-- **A document nests six containers**, and the reader follows more. -/
theorem SchemaDocument.legible_toJson (s : SchemaDocument) : Legible (d + 6) s.toJson := by
  refine .obj (List.forall_mem_cons.mpr ⟨.str, ?_⟩)
  exact legible_objectMembers (List.forall_mem_map.mpr fun p _ => p.2.legible_toJson) s.required

end

/-- **The text of a document is read as its value.** -/
theorem SchemaDocument.parse_text (s : SchemaDocument) : Json.parse s.text = .ok s.value :=
  -- The reader follows 127 containers.
  have hlegible : Legible (121 + 6) s.toJson := s.legible_toJson
  Json.parse_pretty hlegible

/-! ### The value of a document -/

namespace FieldGraph

/-- What a document's value says of a root: of an array the properties of its items, one for each
output key of its children, and of any other root its type and what describes it. -/
def Describes (g : FieldGraph) (root : Field) (v : Json) : Prop :=
  if root.type.isArray then
    ∃ properties, Members.FirstPlaceLastValue
        ((g.childrenOf root.id).map fun f => (f.outputKey, f.scalarSchema.toJson)) properties ∧
      v = .obj [("type", .str "array"), ("items", .obj (objectMembers properties
        (((g.childrenOf root.id).filter Field.required).map Field.outputKey)))]
  else v = root.scalarSchema.toJson

variable (g : FieldGraph)

theorem describes_propertySchema (root : Field) :
    g.Describes root (g.propertySchema g.childrenIndex root).toJson.collapse := by
  rw [Describes, propertySchema_childrenIndex]
  split
  · rw [PropertySchema.collapse_toJson_array, ItemSchema.collapse_toJson, itemSchema,
      ItemSchema.ofFields, List.map_map]
    exact ⟨_, Members.firstPlaceLastValue_collapse _, rfl⟩
  · exact PropertySchema.collapse_toJson_scalar root.scalarSchema

/-- **The indented text of a schema document means its value.** Whatever strings a graph has, and
whatever keys repeat in it, its document's text is read, and as the document's value, with the same
order of members at every level. In this value the properties are those of the roots, and the
properties of an array's items are those of its direct children, where of those with one key the
first gives the place and the last the description. -/
theorem parse_text_schemaDocument :
    Json.parse g.schemaDocument.text = .ok g.schemaDocument.value ∧
      ∃ (described : Field → Json) (properties : List (String × Json)),
        (∀ root ∈ g.roots, g.Describes root (described root)) ∧
        Members.FirstPlaceLastValue (g.roots.map fun r => (r.key, described r)) properties ∧
        g.schemaDocument.value = .obj (("$schema", .str SchemaDocument.dialect) ::
          objectMembers properties ((g.roots.filter Field.required).map Field.key)) := by
  refine ⟨g.schemaDocument.parse_text, ?_⟩
  -- Properties are described before repeated keys are collapsed.
  refine ⟨fun r => (g.propertySchema g.childrenIndex r).toJson.collapse, _, ?_, ?_,
    g.schemaDocument_value⟩
  · exact fun root _ => g.describes_propertySchema root
  · exact Members.firstPlaceLastValue_collapse _

end FieldGraph

end ExtractionContract
