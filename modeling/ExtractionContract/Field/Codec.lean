import ExtractionContract.Field.Basic
import ExtractionContract.Json.Shape

/-!
# Fields as JSON

A field is stored as an object. Absent members are left out; a threshold that is no finite
number is stored as `null`, which reads back as absent. On reading only the identifier and the
key must be given.
-/

namespace ExtractionContract

open Json

/-- An optional member of an object, left out when absent. -/
def optionalMember (key : String) (value : Option Json) : List (String × Json) :=
  match value with
  | some v => [(key, v)]
  | none => []

/-- A binary64 number as a value, `null` when it is not finite. -/
def realJson (x : Binary64) : Json :=
  if x.isFinite then .num (.real x) else .null

/-- The range of whole numbers of sixty-four bits with a sign. -/
def asOrder (v : Json) : Shaped Int64 :=
  (v.asIntBetween (-(twoTo 63)) (twoTo 63 - 1) "i64").map Int64.ofInt

/-- A type, read from its name. -/
def asDataType (v : Json) : Shaped DataType :=
  v.asString.map DataType.parse

namespace Field

/-- A field as an object. -/
def toJson (f : Field) : Json :=
  .obj (
    [("id", .str f.id), ("fieldKey", .str f.key)] ++
    optionalMember "fieldName" (f.name.map .str) ++
    optionalMember "dataName" (f.outputName.map .str) ++
    [("dataType", .str f.type.name), ("isRequired", .bool f.required)] ++
    optionalMember "description" (f.description.map .str) ++
    optionalMember "example" (f.sample.map .str) ++
    optionalMember "validation" (f.validation.map .str) ++
    optionalMember "normalize" (f.normalization.map .str) ++
    optionalMember "promptHint" (f.hint.map .str) ++
    optionalMember "confidenceThreshold" (f.threshold.map realJson) ++
    [("sortOrder", .ofInt f.order)] ++
    optionalMember "parentFieldId" (f.parent.map .str))

/-- The shape of a stored field. -/
def shape : RecordShape Field where
  name := "FieldDescriptor"
  blank := { id := "", key := "" }
  slots := [
    .of "id" .always asString fun v f => { f with id := v },
    .of "fieldKey" .always asString fun v f => { f with key := v },
    .of "fieldName" .never (asOption asString) fun v f => { f with name := v },
    .of "dataName" .never (asOption asString) fun v f => { f with outputName := v },
    .of "dataType" .never asDataType fun v f => { f with type := v },
    .of "isRequired" .never asBool fun v f => { f with required := v },
    .of "description" .never (asOption asString) fun v f => { f with description := v },
    .of "example" .never (asOption asString) fun v f => { f with sample := v },
    .of "validation" .never (asOption asString) fun v f => { f with validation := v },
    .of "normalize" .never (asOption asString) fun v f => { f with normalization := v },
    .of "promptHint" .never (asOption asString) fun v f => { f with hint := v },
    .of "confidenceThreshold" .never (asOption asReal) fun v f => { f with threshold := v },
    .of "sortOrder" .never asOrder fun v f => { f with order := v.toInt },
    .of "parentFieldId" .never (asOption asString) fun v f => { f with parent := v }]

/-- Reads a stored field. -/
def ofJson (v : Json) : Shaped Field :=
  shape.read v

end Field

end ExtractionContract
