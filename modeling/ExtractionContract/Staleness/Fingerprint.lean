import ExtractionContract.Digest.Sha256
import ExtractionContract.Event
import ExtractionContract.Graph.Basic
import ExtractionContract.Json.Reader

/-!
# Fingerprints of contracts

The fingerprint of a contract is a digest of what a prompt made from it depends on: some
properties of each field, and the schema. Identifiers, parents, samples and rules do not count,
nor does the order of members in the schema's text.

* `contractDocument`: what a fingerprint depends on, as a value. Fields stand in the order of
  their orders and then of their keys. A schema that is no JSON counts as none.
* `canonicalText`: its text, with the members of all objects in ascending order.
* `FieldGraph.digest`: the digest of that text.
* `FieldGraph.isStale`: whether a stored digest is another one.
-/

namespace ExtractionContract

/-- The order of fields in a fingerprint. -/
def fingerprintLe (a b : Field) : Bool :=
  a.order < b.order || (a.order == b.order && a.key ≤ b.key)

/-- What a prompt depends on of a field. -/
def Field.essence (f : Field) : Json :=
  .obj [
    ("fieldKey", .str f.key),
    ("fieldName", .ofOption f.name),
    ("dataType", .str f.type.name),
    ("isRequired", .bool f.required),
    ("description", .ofOption f.description),
    ("sortOrder", .ofInt f.order)]

/-- The value of a schema's text, `null` when there is none to be read. -/
def schemaValue (schema : Option String) : Json :=
  match schema with
  | none => .null
  | some s =>
    match Json.parse s with
    | .ok v => v
    | .error _ => .null

/-- What a prompt depends on of a contract. -/
def contractDocument (g : FieldGraph) (schema : Option String) : Json :=
  .obj [
    ("fields", .arr ((g.fields.mergeSort fingerprintLe).map Field.essence)),
    ("schema", schemaValue schema)]

/-- The text that a fingerprint is taken of. -/
def canonicalText (g : FieldGraph) (schema : Option String) : String :=
  (contractDocument g schema).canonical.text

/-- The bytes that a fingerprint is taken of. -/
def canonicalBytes (g : FieldGraph) (schema : Option String) : List UInt8 :=
  (canonicalText g schema).toUTF8.toList

namespace FieldGraph

variable (g : FieldGraph)

/-- The fingerprint of a contract. -/
def digest (schema : Option String) : String :=
  Sha256.hex (canonicalBytes g schema)

/-- The fingerprint of a contract, with a report. -/
def digestLogged (schema : Option String) : Logged String :=
  let d := g.digest schema
  ⟨d, [.digestComputed d g.size]⟩

/-- Whether a stored fingerprint differs from the contract's. Without one nothing is stale. -/
def isStale (stored : Option String) (schema : Option String) : Bool :=
  match stored with
  | none => false
  | some s => g.digest schema != s

/-- Whether a stored fingerprint differs from the contract's, with a report. -/
def isStaleLogged (stored : Option String) (schema : Option String) : Logged Bool :=
  match stored with
  | none => pure false
  | some s => do
    let d ← g.digestLogged schema
    return d != s

end FieldGraph

end ExtractionContract
