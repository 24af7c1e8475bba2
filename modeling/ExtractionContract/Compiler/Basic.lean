import ExtractionContract.Compiler.Config
import ExtractionContract.Import.Merge

/-!
# Compilers

A compiler carries a configuration into the operations that depend on one: the inference of
fields, imports, and display.

* `Compiler.ofConfig`: the compiler of a configuration that is in order.
* `Compiler.importRows`, `importText`, `importRecords`: imports into a graph.
-/

namespace ExtractionContract

/-- The operations that depend on a configuration. -/
structure Compiler where
  config : Config

namespace Compiler

/-- The compiler in which nothing is changed. -/
def standard : Compiler := ⟨.standard⟩

/-- The compiler of a configuration that is in order. -/
def ofConfig (c : Config) : Except Failure Compiler :=
  c.validate.map fun _ => ⟨c⟩

variable (compiler : Compiler)

/-- How samples are read. -/
def inferrer : Inferrer :=
  ⟨compiler.config.labels, compiler.config.exampleLength⟩

/-- The fields of a sample. -/
def inferFields (v : Json) : List Field :=
  compiler.inferrer.inferDocument v

/-- The fields of a sample, with a report. -/
def inferFieldsLogged (v : Json) : Logged (List Field) :=
  compiler.inferrer.inferLogged v "" none 0

/-- The label of a key. -/
def humanize (key : String) : String :=
  compiler.config.labels.humanize key

/-! ### Imports -/

/-- Merges records into a graph. -/
def importRecords (fresh : Nat → String) (g : FieldGraph) (records : List Record) :
    Logged MergeResult := do
  Logged.note (.importStarted records.length compiler.config.policy)
  g.mergeLogged compiler.config.policy fresh records

/-- Merges the records that an attempt gives. When it fails the graph stays as it is. -/
def importFrom (fresh : Nat → String) (g : FieldGraph) (source : Attempt (List Record)) :
    Logged MergeResult :=
  match source.value with
  | .error e => ⟨⟨.error e, g⟩, source.events⟩
  | .ok records =>
    let result := compiler.importRecords fresh g records
    ⟨result.value, source.events ++ result.events⟩

/-- Merges the records of a table into a graph. -/
def importRows (fresh : Nat → String) (g : FieldGraph) (rows : List (List String)) :
    Logged MergeResult :=
  compiler.importFrom fresh g (recordsFromRows compiler.config.headers rows)

/-- Merges the records of a text into a graph. -/
def importText (fresh : Nat → String) (g : FieldGraph) (text : String) : Logged MergeResult :=
  compiler.importFrom fresh g
    (recordsFromText compiler.config.headers compiler.inferrer text)

/-! ### Display -/

/-- How a field is shown. -/
def displayOf (g : FieldGraph) (f : Field) : Display :=
  g.displayOf compiler.config.indentUnit f

/-- How all fields are shown. -/
def displayAll (g : FieldGraph) : List Display :=
  g.displayAll compiler.config.indentUnit

end Compiler

end ExtractionContract
