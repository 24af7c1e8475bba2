import ExtractionContract.Json.Shape

/-!
# Policies for repeated keys

What an import does with a key that a field already has.
-/

namespace ExtractionContract

/-- What to do with a key that is already taken. -/
inductive DuplicatePolicy where
  /-- Refuse the whole import. -/
  | reject
  /-- Update the field that has the key, where it stands. -/
  | overwrite
  /-- Keep both fields. -/
  | coexist
deriving DecidableEq

namespace DuplicatePolicy

instance : Inhabited DuplicatePolicy := ⟨.coexist⟩

/-- The policies by name. -/
def names : List (String × DuplicatePolicy) :=
  [("reject", reject), ("overwrite", overwrite), ("coexist", coexist)]

/-- The name of a policy. -/
def name : DuplicatePolicy → String
  | reject => "reject"
  | overwrite => "overwrite"
  | coexist => "coexist"

/-- The name of a policy in messages. -/
def title : DuplicatePolicy → String
  | reject => "Reject"
  | overwrite => "Overwrite"
  | coexist => "Coexist"

/-- Reads a policy from its name. -/
def ofJson (v : Json) : Shaped DuplicatePolicy :=
  v.asName names

end DuplicatePolicy

end ExtractionContract
