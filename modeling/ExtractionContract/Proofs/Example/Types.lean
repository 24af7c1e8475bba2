import ExtractionContract.Example.Instance

/-!
# Types in examples and schemas

An example names the type of a field, with a mark when the field may be absent. The mark can be
taken off again (`baseType_exampleTypeFor`) and is never part of a type's own name
(`marked_exampleTypeFor`). But for the mark, an example and a schema name the same type; only
an enumeration shows its values in the one and is a string in the other (`schemaType_eq`).
-/

namespace ExtractionContract

/-- Whether a type's name carries the mark of a value that may be absent. -/
def Marked (type : String) : Prop :=
  DataType.nullable.toList <:+ type.toList

instance (type : String) : Decidable (Marked type) :=
  inferInstanceAs (Decidable (DataType.nullable.toList <:+ type.toList))

/-- The mark comes off. -/
theorem baseType_append_nullable (type : String) :
    baseType (type ++ DataType.nullable) = type := by
  unfold baseType
  have hsuffix : DataType.nullable.toList <:+ (type ++ DataType.nullable).toList := by
    rw [String.toList_append]
    exact List.suffix_append _ _
  simp only [List.isSuffixOf_iff_suffix.mpr hsuffix, if_true]
  rw [String.toList_append, List.length_append, Nat.add_sub_cancel, List.take_left',
    String.ofList_toList]
  rfl

theorem baseType_of_not_marked {type : String} (h : ¬Marked type) : baseType type = type := by
  unfold baseType
  exact if_neg fun hsuffix => h (List.isSuffixOf_iff_suffix.mp hsuffix)

namespace DataType

theorem not_marked_exampleType (t : DataType) : ¬Marked t.exampleType := by
  cases t with
  | other name =>
    change ¬Marked "string"
    decide
  | _ => decide

/-- **The name of a type in an example, without the mark.** -/
theorem baseType_exampleTypeFor (t : DataType) (required : Bool) :
    baseType (t.exampleTypeFor required) = t.exampleType := by
  cases required with
  | false => exact baseType_append_nullable t.exampleType
  | true => exact baseType_of_not_marked t.not_marked_exampleType

/-- **The mark stands exactly on the types of fields that may be absent.** -/
theorem marked_exampleTypeFor (t : DataType) (required : Bool) :
    Marked (t.exampleTypeFor required) ↔ required = false := by
  cases required with
  | false =>
    refine iff_of_true ?_ rfl
    rw [Marked, exampleTypeFor, if_neg Bool.false_ne_true, String.toList_append]
    exact List.suffix_append _ _
  | true => exact iff_of_false t.not_marked_exampleType (by decide)

/-- **A schema names the type that an example names**, but an enumeration is a string. -/
theorem schemaType_eq (t : DataType) :
    t.schemaType = if t.exampleType = enumExample then "string" else t.exampleType := by
  cases t with
  | other name =>
    change "string" = if "string" = enumExample then "string" else "string"
    decide
  | _ => decide

/-- Only the array type has its name in a schema. -/
theorem schemaType_eq_array_iff (t : DataType) : t.schemaType = "array" ↔ t.isArray := by
  cases t with
  | other name =>
    change "string" = "array" ↔ false = true
    decide
  | _ => decide

end DataType

end ExtractionContract
