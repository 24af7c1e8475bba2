import ExtractionContract.Field.DataType
import ExtractionContract.Json.Text

/-!
# The schema of a stored field

A JSON schema of the object that a field is stored as, with its properties sorted by name.
-/

namespace ExtractionContract

namespace Field

open Json

/-- One property of a stored field. -/
structure Property where
  key : String
  note : Option String
  default : Option Json
  type : Json
  format : Option String

/-- The type of a value that may be absent. -/
def orNull (type : String) : Json :=
  .ofStrings [type, "null"]

/-- An optional text with a note. -/
def optionalText (key : String) (note : Option String) : Property :=
  ⟨key, note, none, orNull "string", none⟩

/-- The properties of a stored field, sorted by name. -/
def properties : List Property := [
  ⟨"confidenceThreshold",
    some "Minimum model confidence (0.0 - 1.0) before the value is accepted", none,
    orNull "number", some "double"⟩,
  optionalText "dataName"
    (some "Machine friendly alias used in extracted data. Falls back to fieldKey."),
  ⟨"dataType",
    some "One of string, integer, number, boolean, date, datetime, enum, object, array",
    some (.str DataType.string.name), .str "string", none⟩,
  optionalText "description" none,
  optionalText "example" none,
  ⟨"fieldKey",
    some ("Symbolic key unique among siblings (e.g. 'invoice_no'). Dotted keys such as " ++
      "'buyer_info.name' imply nesting when no parent id is present."),
    none, .str "string", none⟩,
  optionalText "fieldName" (some "Human readable label shown to reviewers"),
  ⟨"id", some "Opaque identifier, stable for the lifetime of the field", none, .str "string",
    none⟩,
  ⟨"isRequired", some "Whether the extraction model must always produce this field",
    some (.bool false), .str "boolean", none⟩,
  optionalText "normalize" (some "Normalization rule applied to the extracted value"),
  optionalText "parentFieldId" (some "Id of the owning field, absent for root fields"),
  optionalText "promptHint" (some "Extra hint passed to the prompt author for this field"),
  ⟨"sortOrder", some "Position among siblings; ties are broken by depth, then by key",
    some (.ofNat 0), .str "integer", some "int64"⟩,
  optionalText "validation" (some "Free-form validation rule applied after extraction")]

/-- One property of the schema. -/
def Property.toJson (p : Property) : Json :=
  .obj (
    (match p.note with | some n => [("description", .str n)] | none => []) ++
    (match p.default with | some d => [("default", d)] | none => []) ++
    [("type", p.type)] ++
    (match p.format with | some f => [("format", .str f)] | none => []))

/-- The schema of a stored field. -/
def recordSchema : Json :=
  .obj [
    ("$schema", .str "http://json-schema.org/draft-07/schema#"),
    ("title", .str "FieldDescriptor"),
    ("description",
      .str "One node of the field graph, in the record shape exchanged with the backend."),
    ("type", .str "object"),
    ("required", .ofStrings ["fieldKey", "id"]),
    ("properties", .obj (properties.map fun p => (p.key, p.toJson)))]

end Field

end ExtractionContract
