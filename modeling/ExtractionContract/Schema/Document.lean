import ExtractionContract.Event
import ExtractionContract.Graph.Basic

/-!
# Schema documents

A schema document describes extracted data to a model as a draft-07 JSON schema: a property
for each root, in order, and the keys of the required ones. A root of type array is described
by its direct children, and no deeper.

* `FieldGraph.schemaDocument`: the document of a graph. A key that several roots have occurs
  several times.
* `FieldGraph.itemSchema`: the description of a field's direct children.
* `SchemaDocument.text`: the indented text of a document, with every property of it.
* `SchemaDocument.value`: the document as a value, where a key that occurs again keeps its
  first place and takes its last description.
-/

namespace ExtractionContract

/-- The description of a single value. -/
structure ScalarSchema where
  type : String
  description : String
  sample : Option String
deriving DecidableEq

/-- The description of an item: its properties in order and the keys it must have. -/
structure ItemSchema where
  properties : List (String × ScalarSchema)
  required : List String
deriving DecidableEq

/-- The description of a property. -/
inductive PropertySchema where
  | scalar (schema : ScalarSchema)
  | array (items : ItemSchema)
deriving DecidableEq

/-- The description of a contract's data. -/
structure SchemaDocument where
  properties : List (String × PropertySchema)
  required : List String
deriving DecidableEq

/-! ### Descriptions of fields -/

/-- A text, unless it is absent or empty. -/
def nonEmpty (text : Option String) : Option String :=
  text.filter fun s => s ≠ ""

/-- The description of a field as a single value. What describes it in words is its
description, else its name, else its key. -/
def Field.scalarSchema (f : Field) : ScalarSchema where
  type := f.type.schemaType
  description := ((nonEmpty f.description).or (nonEmpty f.name)).getD f.key
  sample := nonEmpty f.sample

/-- The description of an item with the given fields. -/
def ItemSchema.ofFields (fields : List Field) : ItemSchema where
  properties := fields.map fun f => (f.outputKey, f.scalarSchema)
  required := (fields.filter Field.required).map Field.outputKey

namespace FieldGraph

variable (g : FieldGraph)

/-- The description of a field's direct children as an item. -/
def itemSchema (parent : Field) : ItemSchema :=
  ItemSchema.ofFields (g.childrenOf parent.id)

/-- The description of a root, given the index of children. -/
def propertySchema (index : List (String × List Nat)) (root : Field) : PropertySchema :=
  if root.type.isArray then .array (ItemSchema.ofFields (g.indexedChildren index root.id))
  else .scalar root.scalarSchema

/-- The schema document of a graph. -/
def schemaDocument : SchemaDocument :=
  let index := g.childrenIndex
  { properties := g.roots.map fun r => (r.key, g.propertySchema index r)
    required := (g.roots.filter Field.required).map Field.key }

/-- The schema document of a graph, with a report. -/
def schemaDocumentLogged : Logged SchemaDocument :=
  let d := g.schemaDocument
  ⟨d, [.schemaBuilt d.properties.length d.required.length]⟩

end FieldGraph

/-! ### Documents as JSON -/

/-- The members of an object's description. -/
def objectMembers (properties : List (String × Json)) (required : List String) :
    List (String × Json) :=
  [("type", .str "object"), ("properties", .obj properties), ("required", .ofStrings required)]

/-- The description of a single value, as an object. -/
def ScalarSchema.toJson (s : ScalarSchema) : Json :=
  .obj ([("type", .str s.type), ("description", .str s.description)] ++
    optionalMember "example" (s.sample.map .str))

/-- The description of an item, as an object in which keys may repeat. -/
def ItemSchema.toJson (s : ItemSchema) : Json :=
  .obj (objectMembers (s.properties.map fun p => (p.1, p.2.toJson)) s.required)

namespace PropertySchema

/-- The kind of a property, in words. -/
def kind : PropertySchema → String
  | scalar s => s.type
  | array _ => "array of object"

/-- The description of a property, as an object in which keys may repeat. -/
def toJson : PropertySchema → Json
  | scalar s => s.toJson
  | array items => .obj [("type", .str "array"), ("items", items.toJson)]

end PropertySchema

namespace SchemaDocument

/-- The dialect that a document names. -/
def dialect : String := "http://json-schema.org/draft-07/schema#"

/-- The first property with a key. -/
def property? (d : SchemaDocument) (key : String) : Option PropertySchema :=
  d.properties.lookup key

/-- A document as an object in which keys may repeat. -/
def toJson (d : SchemaDocument) : Json :=
  .obj (("$schema", .str dialect) ::
    objectMembers (d.properties.map fun p => (p.1, p.2.toJson)) d.required)

/-- The indented text of a document. -/
def text (d : SchemaDocument) : String :=
  d.toJson.pretty

/-- A document as a value, in which each key stands once. -/
def value (d : SchemaDocument) : Json :=
  d.toJson.collapse

end SchemaDocument

end ExtractionContract
