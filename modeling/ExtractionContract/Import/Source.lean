import ExtractionContract.Failure
import ExtractionContract.Import.Record
import ExtractionContract.Lenient.Recovery
import ExtractionContract.Sample.Inference

/-!
# Sources of imports

Records come from a table, whose first row names the columns, or from a JSON text: an array of
records, or a sample document whose fields are inferred.

* `recordsFromRows`: the records of a table. Rows with nothing in them are passed over, and so
  are rows without a key, which are reported.
* `recordsFromText`: the records of a text, which may need repair.
-/

namespace ExtractionContract

/-! ### Tables -/

/-- Whether a row has nothing in it. -/
def isBlankRow (row : List String) : Bool :=
  row.all fun cell => Text.trim cell == ""

/-- A record with the cells of a row put into their columns. Cells without a column, and
columns without a cell, are passed over. -/
def addCells (r : Record) : List (Option Column) → List String → Logged Record
  | some column :: columns, cell :: row => do
    let r' ← r.set column (.str cell)
    addCells r' columns row
  | none :: columns, _ :: row => addCells r columns row
  | _, _ => pure r

/-- The records of rows, the first of which stands on a line of the table. -/
def readRows (columns : List (Option Column)) (line : Nat) :
    List (List String) → Logged (List Record)
  | [] => pure []
  | row :: rows =>
    if isBlankRow row then readRows columns (line + 1) rows
    else do
      let r ← addCells {} columns row
      if r.key.isNone then
        Logged.note (.rowSkipped line)
        readRows columns (line + 1) rows
      else do
        let records ← readRows columns (line + 1) rows
        return r :: records

/-- The records of a table. A table without a row has none; one whose first row names no
column for the key is refused. -/
def recordsFromRows (headers : Headers) : List (List String) → Attempt (List Record)
  | [] => Attempt.ok []
  | header :: rows =>
    let columns := header.map headers.resolve
    if columns.contains (some .fieldKey) then
      Attempt.lift do
        let records ← readRows columns 2 rows
        Logged.note (.rowsRead records.length rows.length)
        return records
    else Attempt.fail (.missingColumn Column.fieldKey.key)

/-! ### JSON texts -/

/-- The records of the entries of an array, from an index on. Entries that are no objects are
reported and passed over. -/
def readEntries (headers : Headers) (index : Nat) : List Json → Logged (List Record)
  | [] => pure []
  | .obj members :: rest => do
    let r ← Record.ofMembers headers members
    let records ← readEntries headers (index + 1) rest
    return r :: records
  | _ :: rest => do
    Logged.note (.entrySkipped index)
    readEntries headers (index + 1) rest

/-- The records of a value, or the failure that it holds none. -/
def recordsFromValue (headers : Headers) (inferrer : Inferrer) (v : Json) :
    Attempt (List Record) :=
  let refused (kind : String) : Attempt (List Record) :=
    Attempt.fail (.importRefused
      s!"expected an array of field records or a sample object, got {kind}")
  match v with
  | .arr entries => Attempt.lift (readEntries headers 0 entries)
  | .obj members => Attempt.lift do
    let fields ← inferrer.inferLogged (.obj members) "" none 0
    return fields.map Record.ofField
  | .null => refused "null"
  | .bool _ => refused "a boolean"
  | .num _ => refused "a number"
  | .str _ => refused "a string"

/-- The records of a text. -/
def recordsFromText (headers : Headers) (inferrer : Inferrer) (text : String) :
    Attempt (List Record) :=
  (Lenient.recover text).andThen fun r => recordsFromValue headers inferrer r.value

end ExtractionContract
