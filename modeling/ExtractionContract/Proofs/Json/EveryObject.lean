import ExtractionContract.Json.Basic

/-!
# What is true of the keys of every object

`Json.EveryObject P` says that the keys of every object of a value, at any depth, have the property
`P`. Of an array it says the same of its items, and of an object that its own keys have the property
and that the same is said of each member's value (`everyMember_iff`).
-/

namespace ExtractionContract

namespace Json

mutual

/-- The keys of every object, in order, have a property. -/
def EveryObject (P : List String → Prop) : Json → Prop
  | arr items => EveryItem P items
  | obj members => P (Members.keys members) ∧ EveryMember P members
  | _ => True

/-- `Json.EveryObject` of every item. -/
def EveryItem (P : List String → Prop) : List Json → Prop
  | [] => True
  | v :: rest => EveryObject P v ∧ EveryItem P rest

/-- `Json.EveryObject` of every member's value. -/
def EveryMember (P : List String → Prop) : List (String × Json) → Prop
  | [] => True
  | (_, v) :: rest => EveryObject P v ∧ EveryMember P rest

end

variable {P : List String → Prop}

theorem everyMember_iff (ms : List (String × Json)) :
    EveryMember P ms ↔ ∀ m ∈ ms, m.2.EveryObject P := by
  induction ms with
  | nil => exact iff_of_true trivial (List.forall_mem_nil _)
  | cons m rest ih => rw [EveryMember, ih, List.forall_mem_cons]

end Json

end ExtractionContract
