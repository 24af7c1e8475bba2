import ExtractionContract.Decimal.Literal
import ExtractionContract.Event
import ExtractionContract.Field.Codec
import ExtractionContract.Import.Column

/-!
# Field records

A record is a field definition as a source of imports supplies it: everything may be missing,
and the parent is named by key.

* `Record.set`: puts a cell of a column into a record.
* `Record.ofMembers`: the record of an object, its members in order.
* `Record.ofField`: the record of an inferred field.
* `isTruthy`: the values that say yes.
-/

namespace ExtractionContract

/-- A field definition as supplied. -/
structure Record where
  key : Option String := none
  name : Option String := none
  outputName : Option String := none
  type : Option String := none
  required : Option Bool := none
  description : Option String := none
  sample : Option String := none
  /-- What the record's parent goes by in the batch. -/
  parentKey : Option String := none
  validation : Option String := none
  normalization : Option String := none
  hint : Option String := none
  threshold : Option Binary64 := none
  /-- What the record goes by in the batch, when not its key. -/
  batchRef : Option String := none
deriving DecidableEq

/-! ### Cells -/

/-- The words that say yes. -/
def yesWords : List String :=
  ["true", "yes", "y", "1", "required", "是", "必填"]

/-- Whether a value says yes. -/
def isTruthy : Json → Bool
  | .bool b => b
  | .num n => !n.isZero
  | .str s => yesWords.contains (Headers.folded s)
  | _ => false

/-- The text of a cell, absent when blank. -/
def cellText : Json → Option String
  | .null => none
  | .str s => let t := Text.trim s; if t = "" then none else some t
  | v => some v.text

/-- The threshold that a cell gives. A text that is no number gives none, and is reported. -/
def cellThreshold : Json → Logged (Option Binary64)
  | .num n => pure (some n.toBinary64)
  | .str s =>
    let cs := Text.trimList s.toList
    if cs.isEmpty then pure none
    else match Decimal.thresholdOf? cs with
      | some x => pure (some x)
      | none => ⟨none, [.thresholdIgnored s]⟩
  | _ => pure none

namespace Record

/-- A record with only a key. -/
def ofKey (key : String) : Record :=
  { key := some key }

/-- A record with its parent named. -/
def withParent (r : Record) (parentKey : String) : Record :=
  { r with parentKey := some parentKey }

/-- A record with a text put into a column. -/
def setText (r : Record) (column : Column) (text : Option String) : Record :=
  match column with
  | .fieldKey => { r with key := text }
  | .fieldName => { r with name := text }
  | .dataName => { r with outputName := text }
  | .dataType => { r with type := text }
  | .description => { r with description := text }
  | .sample => { r with sample := text }
  | .parentFieldKey => { r with parentKey := text }
  | .validation => { r with validation := text }
  | .normalization => { r with normalization := text }
  | .promptHint => { r with hint := text }
  | .isRequired => r
  | .threshold => r

/-- A record with a cell put into a column, in place of what the column held. -/
def set (r : Record) (column : Column) (v : Json) : Logged Record :=
  match column with
  | .isRequired => pure { r with required := some (isTruthy v) }
  | .threshold => do
    let t ← cellThreshold v
    return { r with threshold := t }
  | column => pure (r.setText column (cellText v))

/-- A record with further members put into the columns that their keys stand for. A key that
stands for no column is reported. -/
def addMembers (headers : Headers) (r : Record) : List (String × Json) → Logged Record
  | [] => pure r
  | (key, v) :: rest =>
    match headers.resolve key with
    | some column => do
      let r' ← r.set column v
      addMembers headers r' rest
    | none => do
      Logged.note (.keyIgnored key)
      addMembers headers r rest

/-- The record of an object. -/
def ofMembers (headers : Headers) (members : List (String × Json)) : Logged Record :=
  addMembers headers {} members

/-- The record of an inferred field, which goes by the field's identifier. -/
def ofField (f : Field) : Record where
  key := some f.key
  name := f.name
  outputName := f.outputName
  type := some f.type.name
  required := some f.required
  description := f.description
  sample := f.sample
  parentKey := f.parent
  validation := f.validation
  normalization := f.normalization
  hint := f.hint
  threshold := f.threshold
  batchRef := some f.id

/-- What a record with a key goes by in its batch. -/
def reference (r : Record) (key : String) : String :=
  r.batchRef.getD key

/-! ### Records as JSON -/

/-- A record as an object, with `null` for what is missing. -/
def toJson (r : Record) : Json :=
  .obj ([
    ("fieldKey", .ofOption r.key),
    ("fieldName", .ofOption r.name),
    ("dataName", .ofOption r.outputName),
    ("dataType", .ofOption r.type),
    ("isRequired", match r.required with | some b => .bool b | none => .null),
    ("description", .ofOption r.description),
    ("example", .ofOption r.sample),
    ("parentFieldKey", .ofOption r.parentKey),
    ("validation", .ofOption r.validation),
    ("normalize", .ofOption r.normalization),
    ("promptHint", .ofOption r.hint),
    ("confidenceThreshold", match r.threshold with | some x => realJson x | none => .null)] ++
    optionalMember "batchRef" (r.batchRef.map .str))

/-- The shape of a stored record. -/
def shape : Json.RecordShape Record where
  name := "FieldRecord"
  blank := {}
  slots :=
    let text := Json.asOption Json.asString
    [.of "fieldKey" .inArray text fun v r => { r with key := v },
    .of "fieldName" .inArray text fun v r => { r with name := v },
    .of "dataName" .inArray text fun v r => { r with outputName := v },
    .of "dataType" .inArray text fun v r => { r with type := v },
    .of "isRequired" .inArray (Json.asOption Json.asBool) fun v r => { r with required := v },
    .of "description" .inArray text fun v r => { r with description := v },
    .of "example" .inArray text fun v r => { r with sample := v },
    .of "parentFieldKey" .inArray text fun v r => { r with parentKey := v },
    .of "validation" .inArray text fun v r => { r with validation := v },
    .of "normalize" .inArray text fun v r => { r with normalization := v },
    .of "promptHint" .inArray text fun v r => { r with hint := v },
    .of "confidenceThreshold" .inArray (Json.asOption Json.asReal)
      fun v r => { r with threshold := v },
    .of "batchRef" .never text fun v r => { r with batchRef := v }]

/-- Reads a stored record. -/
def ofJson (v : Json) : Shaped Record :=
  shape.read v

end Record

end ExtractionContract
