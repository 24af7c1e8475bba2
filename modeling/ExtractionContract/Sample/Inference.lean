import ExtractionContract.Event
import ExtractionContract.Graph.Basic
import ExtractionContract.Sample.Labels
import ExtractionContract.Text.DecimalDigit

/-!
# Fields from a sample document

A sample of the data shows which fields it has. The fields of objects are found at any depth;
an array shows the fields of its first item when that is an object, but not inside an item of
another array, where arrays stay as they are.

The sample is first laid out as a list of *findings*, depth first, in which a finding names its
parent by place (`findings`). Then each finding gets an identifier: its key, with a number
where an earlier one has that identifier (`identify`). Orders are counted level by level, each
level from where it begins (`orders`), in whole numbers of sixty-four bits that wrap around, as
sums do that are not checked for overflow.

* `inferType`: the type a value suggests.
* `Inferrer.infer`: the fields of a sample.
-/

namespace ExtractionContract

open Text

/-! ### Types -/

/-- Whether a text has the form of a date: four, two and two digits between hyphens. -/
def isDate (s : String) : Bool :=
  match s.toList with
  | [y₁, y₂, y₃, y₄, h₁, m₁, m₂, h₂, d₁, d₂] =>
    [y₁, y₂, y₃, y₄, m₁, m₂, d₁, d₂].all isDecimalDigit && h₁ == '-' && h₂ == '-'
  | _ => false

/-- The type that a value suggests. A text of digits is a string. -/
def inferType : Json → DataType
  | .null => .string
  | .bool _ => .boolean
  | .num _ => .number
  | .str s => if isDate s then .date else .string
  | .arr _ => .array
  | .obj _ => .object

/-! ### Findings -/

/-- A field found in a sample. -/
structure Finding where
  key : String
  /-- The key in the object where it was found. -/
  memberKey : Option String
  type : DataType
  /-- The value to show as an example. -/
  shown : Option Json
  /-- The place of the parent in the list of findings. -/
  parent : Option Nat

/-- The key of a member, after its parent's key and a dot unless that key is empty. -/
def joinKey (parentKey key : String) : String :=
  if parentKey = "" then key else parentKey ++ "." ++ key

/-- Whether the members of a value are looked into, rather than the value shown. -/
def opens (inItem : Bool) : Json → Bool
  | .obj _ => true
  | .arr (.obj _ :: _) => !inItem
  | _ => false

/-- What is found of a member of an object. -/
def findMember (parentKey : String) (inItem : Bool) (parent : Option Nat) (key : String)
    (v : Json) : Finding where
  key := joinKey parentKey key
  memberKey := some key
  type := inferType v
  shown := if opens inItem v then none else some v
  parent := parent

mutual

/-- The findings in the members of an object, from a place of the list on. -/
def findMembers (parentKey : String) (inItem : Bool) (parent : Option Nat) (place : Nat) :
    List (String × Json) → List Finding
  | [] => []
  | (key, v) :: rest =>
    let below := findBelow (joinKey parentKey key) inItem place v
    findMember parentKey inItem parent key v :: below ++
      findMembers parentKey inItem parent (place + 1 + below.length) rest

/-- The findings below a value whose own finding stands at a place. -/
def findBelow (key : String) (inItem : Bool) (place : Nat) : Json → List Finding
  | .obj members => findMembers key inItem (some place) (place + 1) members
  | .arr (.obj members :: _) =>
    if inItem then [] else findMembers key true (some place) (place + 1) members
  | _ => []

end

/-- The key of a sample that is no object. -/
def rootKey (parentKey : String) : String :=
  if parentKey = "" then "root" else parentKey

/-- The findings in a sample. A sample that is no object is itself a finding. -/
def findings (parentKey : String) : Json → List Finding
  | .obj members => findMembers parentKey false none 0 members
  | v =>
    { key := rootKey parentKey, memberKey := none, type := inferType v
      shown := if opens false v then none else some v, parent := none } ::
      findBelow (rootKey parentKey) false 0 v

/-! ### Identifiers -/

/-- A key with a number. -/
def numberedKey (key : String) (n : Nat) : String :=
  s!"{key}#{n}"

/-- The identifier for a key: the key, or with the first number from two on that makes it
different from those taken. One more number than there are identifiers taken is enough. -/
def freeId (taken : List String) (key : String) : String :=
  if key ∈ taken then
    match (List.range (taken.length + 1)).find? fun i => numberedKey key (i + 2) ∉ taken with
    | some i => numberedKey key (i + 2)
    | none => numberedKey key (taken.length + 2)
  else key

/-- The identifiers for keys, after those taken. -/
def identify (taken : List String) : List String → List String
  | [] => taken
  | key :: rest => identify (taken ++ [freeId taken key]) rest

/-! ### Orders -/

mutual

/-- The orders of the findings in the members of an object. Their level is counted from a start,
and some findings of it stand before them. -/
def memberOrders (inItem : Bool) (start : Int64) (before : Nat) :
    List (String × Json) → List Int64
  | [] => []
  | (_, v) :: rest =>
    let below := ordersBelow inItem (start + .ofNat (before + 1)) v
    (start + .ofNat before) :: below ++
      memberOrders inItem start (before + 1 + below.length) rest

/-- The orders of the findings below a value, which make a level of their own. -/
def ordersBelow (inItem : Bool) (start : Int64) : Json → List Int64
  | .obj members => memberOrders inItem start 0 members
  | .arr (.obj members :: _) => if inItem then [] else memberOrders true start 0 members
  | _ => []

end

/-- The orders of the findings in a sample. -/
def orders (start : Int64) : Json → List Int64
  | .obj members => memberOrders false start 0 members
  | v => start :: ordersBelow false (start + .ofNat 1) v

/-! ### Fields -/

/-- How samples are read: the labels of keys, and how much of a value is kept as an example. -/
structure Inferrer where
  labels : Labels
  maxLength : Nat

namespace Inferrer

/-- The length of an example, when nothing else is asked for. -/
def defaultMaxLength : Nat := 200

/-- The reading of samples with the built-in labels. -/
def builtIn : Inferrer := ⟨.builtIn, defaultMaxLength⟩

variable (inferrer : Inferrer)

/-- A value as an example: a string as it is, any other value as text, and none for `null`. -/
def exampleOf (v : Json) : Option String :=
  let keep (cs : List Char) := some (String.ofList (cs.take inferrer.maxLength))
  match v with
  | .null => none
  | .str s => keep s.toList
  | v => keep v.chars

/-- The field of a finding at a place, given the identifiers and the orders of all findings. -/
def fieldOf (ids : List String) (parentRef : Option String) (orders : List Int64) (place : Nat)
    (d : Finding) : Field where
  id := ids.getD place d.key
  key := d.key
  name := some (inferrer.labels.humanize d.key)
  outputName := d.memberKey
  type := d.type
  sample := d.shown.bind inferrer.exampleOf
  order := (orders.getD place 0).toInt
  parent := match d.parent with
    | some p => ids[p]?
    | none => parentRef

/-- The fields of a sample that stands under a key and a parent, numbered from a start. -/
def infer (v : Json) (parentKey : String) (parentRef : Option String) (start : Int64) :
    List Field :=
  let ds := findings parentKey v
  let ids := identify [] (ds.map Finding.key)
  ds.mapIdx (inferrer.fieldOf ids parentRef (orders start v))

/-- The fields of a sample, with a report. -/
def inferLogged (v : Json) (parentKey : String) (parentRef : Option String) (start : Int64) :
    Logged (List Field) :=
  let fields := inferrer.infer v parentKey parentRef start
  ⟨fields, [.fieldsInferred fields.length]⟩

/-- The fields of a whole sample document. -/
def inferDocument (v : Json) : List Field :=
  inferrer.infer v "" none 0

end Inferrer

end ExtractionContract
