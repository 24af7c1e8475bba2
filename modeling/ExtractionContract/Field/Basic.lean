import ExtractionContract.Decimal.Binary64
import ExtractionContract.Field.DataType

/-!
# Fields

A field is one entry of an extraction contract: a key, a type, and what a model and a person
need to know about it. Fields name their parents by identifier, so a list of them is a forest.
-/

namespace ExtractionContract

/-- One field of a contract. -/
structure Field where
  /-- What other fields name this one by. -/
  id : String
  /-- The symbolic key. A dot in it suggests a nesting. -/
  key : String
  /-- The label shown to people. -/
  name : Option String := none
  /-- The key under which extracted data holds the field, when not the key itself. -/
  outputName : Option String := none
  type : DataType := .string
  /-- Whether a model must always produce the field. -/
  required : Bool := false
  description : Option String := none
  /-- A value the field may have. -/
  sample : Option String := none
  /-- The rule an extracted value is checked by. -/
  validation : Option String := none
  /-- The rule an extracted value is normalized by. -/
  normalization : Option String := none
  /-- What a prompt's author should know. -/
  hint : Option String := none
  /-- The confidence below which a value is not accepted. -/
  threshold : Option Binary64 := none
  /-- The position among siblings. -/
  order : Int := 0
  /-- The identifier of the owning field, absent for roots. -/
  parent : Option String := none
deriving DecidableEq

namespace Field

/-- Whether a field has no parent. -/
def isRoot (f : Field) : Bool :=
  f.parent.isNone

/-- The key of a field inside an item object. -/
def outputKey (f : Field) : String :=
  f.outputName.getD f.key

/-- Whether a field names the given parent. -/
def isChildOf (f : Field) (id : String) : Bool :=
  f.parent == some id

end Field

end ExtractionContract
