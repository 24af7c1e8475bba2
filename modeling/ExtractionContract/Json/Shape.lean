import ExtractionContract.Json.Text

/-!
# Values of an expected shape

Turning a JSON value into a typed one can fail, and a `ShapeError` says how: a value of the
wrong kind, a value out of range, an unknown name, a missing member.

* `Json.asString`, `Json.asBool`, …: the values of the basic kinds.
* `RecordShape`: a record's members in their declared order, with how each is read. A record
  is read from an object, where members of other names are passed over, or from an array of
  its members in order. Members are read in the order of the text and the first bad one is
  reported; a missing member only when all present ones are good.
-/

namespace ExtractionContract

/-- How a value fails to have an expected shape. -/
inductive ShapeError where
  | wrongKind (found expected : String)
  | wrongValue (found expected : String)
  | unknownName (name : String) (known : List String)
  | missingMember (key : String)
  | wrongLength (length : Nat) (expected : String)
  | refused (reason : String)
deriving DecidableEq

namespace ShapeError

/-- A name as it stands in a message. -/
def ticked (name : String) : String :=
  s!"`{name}`"

/-- How a value fails to have an expected shape, in words. -/
def message : ShapeError → String
  | wrongKind found expected => s!"invalid type: {found}, expected {expected}"
  | wrongValue found expected => s!"invalid value: {found}, expected {expected}"
  | unknownName name known =>
    let names := String.intercalate ", " (known.map ticked)
    s!"unknown variant `{name}`, expected one of {names}"
  | missingMember key => s!"missing field `{key}`"
  | wrongLength length expected => s!"invalid length {length}, expected {expected}"
  | refused reason => reason

end ShapeError

/-- The outcome of reading a value of an expected shape. -/
abbrev Shaped (α : Type) := Except ShapeError α

namespace Json

/-! ### Basic kinds -/

/-- A value as it stands in a message. -/
def described : Json → String
  | null => "null"
  | bool b => s!"boolean `{b}`"
  | num (.int i) => s!"integer `{i}`"
  | num (.real x) =>
    let digits := String.ofList (realChars x)
    s!"floating point `{digits}`"
  | str s => "string " ++ Text.quoted s
  | arr _ => "sequence"
  | obj _ => "map"

/-- The error that a value is of the wrong kind. -/
def notOfKind {α : Type} (v : Json) (expected : String) : Shaped α :=
  .error (.wrongKind v.described expected)

/-- The string that a value is. -/
def asString : Json → Shaped String
  | str s => .ok s
  | v => v.notOfKind "a string"

/-- The truth value that a value is. -/
def asBool : Json → Shaped Bool
  | bool b => .ok b
  | v => v.notOfKind "a boolean"

/-- The whole number between two bounds that a value is. -/
def asIntBetween (low high : Int) (expected : String) : Json → Shaped Int
  | num (.int i) =>
    if low ≤ i && i ≤ high then .ok i else .error (.wrongValue (num (.int i)).described expected)
  | v => v.notOfKind expected

/-- The binary64 number nearest to the number that a value is. -/
def asReal : Json → Shaped Binary64
  | num n => .ok n.toBinary64
  | v => v.notOfKind "f64"

/-- The value that may be absent, `null` standing for its absence. -/
def asOption {α : Type} (read : Json → Shaped α) : Json → Shaped (Option α)
  | null => .ok none
  | v => (read v).map some

/-- The items of an array, each of one shape. -/
def asList {α : Type} (read : Json → Shaped α) : Json → Shaped (List α)
  | arr items => items.mapM read
  | v => v.notOfKind "a sequence"

/-- The members of an object, keys and values each of one shape. -/
def asPairs {κ α : Type} (readKey : String → Shaped κ) (read : Json → Shaped α) :
    Json → Shaped (List (κ × α))
  | obj members => members.mapM fun m => do
      let k ← readKey m.1
      let v ← read m.2
      return (k, v)
  | v => v.notOfKind "a map"

/-- One of several names. A name may also stand as the only key of an object whose value is
`null`. -/
def asName {α : Type} (names : List (String × α)) : Json → Shaped α
  | str s => ofName s
  | obj [(k, v)] => do
    let a ← ofName k
    match v with
    | null => return a
    | v => v.notOfKind "unit"
  | obj _ => .error (.wrongValue "map" "map with a single key")
  | v => v.notOfKind "string or map"
where
  /-- What a name stands for. -/
  ofName (s : String) : Shaped α :=
    match names.lookup s with
    | some a => .ok a
    | none => .error (.unknownName s (names.map Prod.fst))

/-! ### Records -/

/-- When a member of a record must be given. -/
inductive Need where
  /-- In every form. -/
  | always
  /-- In the form of an array only. -/
  | inArray
  /-- In no form. -/
  | never
deriving DecidableEq

/-- One member of a record: its key, when it must be given, and how it is read into the record
under construction. -/
structure Slot (α : Type) where
  key : String
  need : Need
  read : Json → Shaped (α → α)

/-- A member read by a reader of its value and put into the record by an update. -/
def Slot.of {α β : Type} (key : String) (need : Need) (read : Json → Shaped β)
    (put : β → α → α) : Slot α :=
  ⟨key, need, fun v => (read v).map put⟩

/-- The shape of a record: its name, its members in their declared order, and the record that
has none of them. -/
structure RecordShape (α : Type) where
  name : String
  slots : List (Slot α)
  blank : α

namespace RecordShape

variable {α : Type} (shape : RecordShape α)

/-- The slot of a key. -/
def slot? (key : String) : Option (Slot α) :=
  shape.slots.find? fun s => s.key == key

/-- Reads members in order into a record. -/
def readMembers : α → List (String × Json) → Shaped α
  | a, [] => .ok a
  | a, (k, v) :: rest =>
    match shape.slot? k with
    | none => readMembers a rest
    | some s =>
      match s.read v with
      | .ok update => readMembers (update a) rest
      | .error e => .error e

/-- Reads items in order into a record, each by the slot at its place. -/
def readItems : α → List (Slot α) → List Json → Shaped α
  | a, s :: slots, v :: rest =>
    match s.read v with
    | .ok update => readItems (update a) slots rest
    | .error e => .error e
  | a, _, _ => .ok a

/-- Reads a record from an object or from an array of its members. -/
def read : Json → Shaped α
  | obj members =>
    match shape.readMembers shape.blank members with
    | .error e => .error e
    | .ok a =>
      match shape.slots.find? fun s => s.need == .always && (members.lookup s.key).isNone with
      | some s => .error (.missingMember s.key)
      | none => .ok a
  | arr items =>
    match readItems shape.blank shape.slots items with
    | .error e => .error e
    | .ok a =>
      match (shape.slots.drop items.length).findIdx? fun s => s.need != .never with
      | some i =>
        let expected := s!"struct {shape.name} with {shape.slots.length} elements"
        .error (.wrongLength (items.length + i) expected)
      | none =>
        if shape.slots.length < items.length then
          .error (.wrongLength items.length "fewer elements in array")
        else .ok a
  | v => v.notOfKind s!"struct {shape.name}"

end RecordShape

end Json

end ExtractionContract
