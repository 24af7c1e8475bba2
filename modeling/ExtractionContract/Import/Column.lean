import ExtractionContract.Json.Shape
import ExtractionContract.Text.Blank
import ExtractionContract.Text.Case

/-!
# Columns of field definitions

Field definitions are supplied in columns that go by many names.

* `Column`: the columns, each with the key it has in a record.
* `Headers`: the further names of each column.
* `Headers.resolve`: the column that a name stands for, without regard to case and to blanks at
  its ends. Of several columns the first one in the order of columns counts.
-/

namespace ExtractionContract

/-- What a field definition may say. -/
inductive Column where
  | fieldKey
  | fieldName
  | dataName
  | dataType
  | isRequired
  | description
  | sample
  | parentFieldKey
  | validation
  | normalization
  | promptHint
  | threshold
deriving DecidableEq

namespace Column

/-- All columns, in order. -/
def all : List Column :=
  [fieldKey, fieldName, dataName, dataType, isRequired, description, sample, parentFieldKey,
    validation, normalization, promptHint, threshold]

/-- The key of a column in a record, which is always one of its names. -/
def key : Column → String
  | fieldKey => "fieldKey"
  | fieldName => "fieldName"
  | dataName => "dataName"
  | dataType => "dataType"
  | isRequired => "isRequired"
  | description => "description"
  | sample => "example"
  | parentFieldKey => "parentFieldKey"
  | validation => "validation"
  | normalization => "normalize"
  | promptHint => "promptHint"
  | threshold => "confidenceThreshold"

/-- The columns by key. -/
def keys : List (String × Column) :=
  all.map fun c => (c.key, c)

/-- Reads a column from its key. -/
def ofKey : String → Shaped Column :=
  Json.asName.ofName keys

/-- Reads a column from its key, or from an object with that key alone. -/
def ofJson (v : Json) : Shaped Column :=
  v.asName keys

end Column

/-- Further names of columns. -/
structure Headers where
  entries : List (Column × List String)

namespace Headers

/-- No further names. -/
def empty : Headers := ⟨[]⟩

/-- The further names of a column. -/
def namesOf (headers : Headers) (column : Column) : List String :=
  (headers.entries.lookup column).getD []

/-- The headers with names added to a column. -/
def addNames (headers : Headers) (column : Column) (names : List String) : Headers :=
  ⟨Members.put column (headers.namesOf column ++ names) headers.entries⟩

/-- The names columns commonly have. -/
def builtIn : Headers := ⟨[
  (.fieldKey,
    ["field_key", "field key", "key", "identifier", "字段标识", "字段键", "字段编码"]),
  (.fieldName,
    ["field_name", "field name", "name", "display name", "label", "字段名称", "字段名", "名称"]),
  (.dataName, ["data_name", "data name", "alias", "数据名", "数据名称", "别名"]),
  (.dataType, ["data_type", "data type", "type", "数据类型", "类型"]),
  (.isRequired, ["is_required", "required", "mandatory", "是否必填", "必填"]),
  (.description, ["desc", "描述", "说明"]),
  (.sample, ["sample", "example value", "示例", "样例"]),
  (.parentFieldKey, ["parent_field_key", "parent key", "parent", "父字段", "父级字段"]),
  (.validation, ["validation rule", "校验规则"]),
  (.normalization, ["normalization", "标准化"]),
  (.promptHint, ["prompt_hint", "hint", "提示"]),
  (.threshold, ["confidence_threshold", "confidence", "置信度阈值"])]⟩

/-- A name as it is compared: trimmed, in lower case. -/
def folded (name : String) : String :=
  Text.lower (Text.trim name)

/-- Whether a folded name stands for a column. -/
def matches? (headers : Headers) (wanted : String) (column : Column) : Bool :=
  Text.lower column.key == wanted || (headers.namesOf column).any fun n => folded n == wanted

/-- The column that a name stands for. A blank name stands for none. -/
def resolve (headers : Headers) (name : String) : Option Column :=
  let wanted := folded name
  if wanted = "" then none else Column.all.find? (headers.matches? wanted)

/-! ### Headers as JSON -/

/-- Headers as an object of lists of names. -/
def toJson (headers : Headers) : Json :=
  .obj (headers.entries.map fun e => (e.1.key, .ofStrings e.2))

/-- Reads headers. -/
def ofJson (v : Json) : Shaped Headers :=
  (v.asPairs Column.ofKey (Json.asList Json.asString)).map fun es => ⟨Members.collapse es⟩

end Headers

end ExtractionContract
