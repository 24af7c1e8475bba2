import ExtractionContract.Proofs.Example.Types
import ExtractionContract.Sample.Inference
import Mathlib.Tactic.SplitIfs

/-!
# What values of types suggest

An instance holds a value for each type of an example. Read as a sample, such a value suggests
a type again: the one it was made for, unless several types share their values
(`inferType_sampleValue`). A type that was suggested by some value comes back as it is
(`suggested_inferType`), and below a value of a type there is nothing to be found.
-/

namespace ExtractionContract

/-- The type that values of a type suggest. -/
def DataType.suggested : DataType → DataType
  | integer => number
  | datetime | enum | other _ => string
  | t => t

/-- **A value of a type suggests** that type, or the one it shares its values with. A mark in
the type's name plays no part. -/
theorem inferType_sampleValue (t : DataType) (required : Bool) :
    inferType (sampleValue (t.exampleTypeFor required)) = t.suggested := by
  unfold sampleValue
  rw [DataType.baseType_exampleTypeFor]
  cases t with
  | other name =>
    change inferType (sampleValue "string") = .string
    decide
  | _ => decide

/-- Only a value of the array type suggests an array. -/
theorem DataType.suggested_isArray (t : DataType) : t.suggested.isArray = t.isArray := by
  cases t <;> rfl

theorem DataType.suggested_inferType (v : Json) : (inferType v).suggested = inferType v := by
  cases v with
  | str s =>
    rw [inferType]
    split <;> rfl
  | null | bool | num | arr | obj => rfl

/-- **Nothing is found below a value of a type.** -/
theorem findBelow_sampleValue (key : String) (inItem : Bool) (place : Nat) (type : String) :
    findBelow key inItem place (sampleValue type) = [] := by
  unfold sampleValue
  dsimp only
  split_ifs <;> rfl

end ExtractionContract
