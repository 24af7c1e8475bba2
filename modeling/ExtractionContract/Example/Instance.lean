import ExtractionContract.Example.Tree

/-!
# Instances of example trees

`Json.instantiate` writes a value of the named type for every string of a document, at any
depth, and leaves everything else. Of a type that may be absent it writes a value that is
there.
-/

namespace ExtractionContract

/-- A type's name without the mark that a value may be absent. -/
def baseType (type : String) : String :=
  let cs := type.toList
  let mark := DataType.nullable.toList
  if mark.isSuffixOf cs then String.ofList (cs.take (cs.length - mark.length)) else type

/-- A value of a type. -/
def sampleValue (type : String) : Json :=
  let base := baseType type
  if base = "integer" || base = "number" then .ofNat 0
  else if base = "boolean" then .bool false
  else if base = "date" then .str "2024-01-01"
  else if base = "datetime" then .str "2024-01-01T00:00:00Z"
  else if base = "object" then .obj []
  else if base = "array" then .arr []
  else if base = DataType.enumExample then .str "pass"
  else .str "text"

namespace Json

mutual

/-- A document with a value of the named type for every string. -/
def instantiate : Json → Json
  | str type => sampleValue type
  | arr items => arr (instantiateItems items)
  | obj members => obj (instantiateMembers members)
  | v => v

/-- `Json.instantiate` on every item. -/
def instantiateItems : List Json → List Json
  | [] => []
  | v :: rest => instantiate v :: instantiateItems rest

/-- `Json.instantiate` on every member's value. -/
def instantiateMembers : List (String × Json) → List (String × Json)
  | [] => []
  | (k, v) :: rest => (k, instantiate v) :: instantiateMembers rest

end

end Json

end ExtractionContract
