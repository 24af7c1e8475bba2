import ExtractionContract.Text.Blank
import ExtractionContract.Text.Case

/-!
# Data types of fields

A field has one of nine known types, or a type that is only known by the name it was given.
Reading a type never fails.

* `DataType.parse`: the type that a name stands for, without regard to case and to blanks at
  its ends. Each known type has a few names.
* `DataType.name`: the name a type is stored under.
* `DataType.exampleType`, `DataType.schemaType`: the names it has in an example of the data and
  in a schema. An enumeration shows its values in the one and is a string in the other; an
  unknown type is a string in both.
-/

namespace ExtractionContract

/-- The declared type of a field. -/
inductive DataType where
  | string
  | integer
  | number
  | boolean
  | date
  | datetime
  | enum
  | object
  | array
  /-- A type known only by its name. -/
  | other (name : String)
deriving DecidableEq

namespace DataType

instance : Inhabited DataType := ⟨.string⟩

/-- The names of the known types. -/
def aliases : List (String × DataType) := [
  ("string", string), ("text", string), ("str", string),
  ("integer", integer), ("int", integer),
  ("number", number), ("float", number), ("double", number), ("decimal", number),
  ("boolean", boolean), ("bool", boolean),
  ("date", date),
  ("datetime", datetime), ("timestamp", datetime),
  ("enum", enum),
  ("object", object), ("dict", object), ("map", object),
  ("array", array), ("list", array)]

/-- The type that a name stands for. -/
def parse (raw : String) : DataType :=
  let name := Text.trim raw
  (aliases.lookup (Text.lower name)).getD (other name)

/-- The name a type is stored under. -/
def name : DataType → String
  | string => "string"
  | integer => "integer"
  | number => "number"
  | boolean => "boolean"
  | date => "date"
  | datetime => "datetime"
  | enum => "enum"
  | object => "object"
  | array => "array"
  | other name => name

/-- Whether a type is the array type. -/
def isArray (t : DataType) : Bool :=
  t == array

/-! ### The type in examples and schemas -/

/-- How an enumeration stands in an example. -/
def enumExample : String := "pass | fail | unknown"

/-- What follows the type of a field that may be absent. -/
def nullable : String := " | null"

/-- The name of a type, an unknown one being a string. -/
def knownName : DataType → String
  | other _ => "string"
  | t => t.name

/-- The name of a type in an example. -/
def exampleType : DataType → String
  | enum => enumExample
  | t => t.knownName

/-- The name of a type in a schema. -/
def schemaType : DataType → String
  | enum => "string"
  | t => t.knownName

/-- The name of a type in an example, marked when the field may be absent. -/
def exampleTypeFor (t : DataType) (required : Bool) : String :=
  if required then t.exampleType else t.exampleType ++ nullable

end DataType

end ExtractionContract
