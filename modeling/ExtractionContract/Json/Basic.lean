import ExtractionContract.Decimal.Binary64
import ExtractionContract.Json.Members

/-!
# JSON values

A document is a value: `null`, a truth value, a number, a string, an array or an object.
Objects keep their members in the order of the text. Numbers keep the distinction between a
whole number that fits sixty-four bits and any other number.

* `Json.collapse`: a value in which every object has each key once.
* `Json.canonical`: a value in which every object has its keys in ascending order.
-/

namespace ExtractionContract

/-- A number of a document. -/
inductive Number where
  /-- A whole number between `-2^63` and `2^64 - 1`. -/
  | int (i : Int)
  /-- Any other number, and every number written with a point or an exponent. -/
  | real (x : Binary64)
deriving DecidableEq

namespace Number

/-- The binary64 number nearest to a number. -/
def toBinary64 : Number → Binary64
  | .int i => Binary64.ofInt i
  | .real x => x

/-- Whether a number is zero, of either sign. -/
def isZero : Number → Bool
  | .int i => i == 0
  | .real x => x.isZero

end Number

/-- A JSON value. -/
inductive Json where
  | null
  | bool (b : Bool)
  | num (n : Number)
  | str (s : String)
  | arr (items : List Json)
  | obj (members : List (String × Json))

namespace Json

instance : Inhabited Json := ⟨.null⟩

/-- The kinds of value. -/
inductive Kind where
  | null | bool | num | str | arr | obj
deriving DecidableEq

/-- The kind of a value. -/
def kind : Json → Kind
  | null => .null
  | bool _ => .bool
  | num _ => .num
  | str _ => .str
  | arr _ => .arr
  | obj _ => .obj

/-- Whether a value is an object. -/
def isObject (v : Json) : Bool :=
  v.kind == .obj

/-- A whole number as a value. -/
def ofInt (i : Int) : Json :=
  num (.int i)

/-- A natural number as a value. -/
def ofNat (n : Nat) : Json :=
  num (.int n)

/-- A list of strings as a value. -/
def ofStrings (ss : List String) : Json :=
  arr (ss.map str)

/-- An optional string as a value, `null` when absent. -/
def ofOption : Option String → Json
  | some s => str s
  | none => null

/-- The value of a member of an object. -/
def member? (v : Json) (key : String) : Option Json :=
  match v with
  | obj ms => ms.lookup key
  | _ => none

/-! ### Repeated keys -/

mutual

/-- The value in which every object has each key once: in its first place, with its last
value. -/
def collapse : Json → Json
  | arr items => arr (collapseItems items)
  | obj members => obj (Members.collapse (collapseMembers members))
  | v => v

/-- `Json.collapse` on every item. -/
def collapseItems : List Json → List Json
  | [] => []
  | v :: rest => collapse v :: collapseItems rest

/-- `Json.collapse` on every member's value. -/
def collapseMembers : List (String × Json) → List (String × Json)
  | [] => []
  | (k, v) :: rest => (k, collapse v) :: collapseMembers rest

end

/-! ### Canonical order -/

/-- The order of members by key. Keys are compared by code point. -/
def keyLe (a b : String × Json) : Bool :=
  a.1 ≤ b.1

mutual

/-- The value in which every object has its members in ascending order of their keys. -/
def canonical : Json → Json
  | arr items => arr (canonicalItems items)
  | obj members => obj ((canonicalMembers members).mergeSort keyLe)
  | v => v

/-- `Json.canonical` on every item. -/
def canonicalItems : List Json → List Json
  | [] => []
  | v :: rest => canonical v :: canonicalItems rest

/-- `Json.canonical` on every member's value. -/
def canonicalMembers : List (String × Json) → List (String × Json)
  | [] => []
  | (k, v) :: rest => (k, canonical v) :: canonicalMembers rest

end

end Json

end ExtractionContract
