import ExtractionContract.Failure
import ExtractionContract.Staleness.Fingerprint
import ExtractionContract.Time.Instant

/-!
# Snapshots

A snapshot keeps the contract that a prompt was made from, with its fingerprint, so that it can
be told later whether the prompt still fits.

* `Snapshot.capture`: the snapshot of a contract.
* `Snapshot.isStale`: whether a contract has another fingerprint than the snapshot's.
* `makeArtifact`: a prompt together with the snapshot of what it was made from.
-/

namespace ExtractionContract

/-- A contract with its fingerprint, as it was at an instant. -/
structure Snapshot where
  digest : String
  fields : FieldGraph
  schema : Option String
  takenAt : Instant
deriving DecidableEq

namespace Snapshot

/-- The snapshot of a contract. -/
def capture (g : FieldGraph) (schema : Option String) (now : Instant) : Snapshot :=
  ⟨g.digest schema, g, schema, now⟩

/-- The snapshot of a contract, with a report. -/
def captureLogged (g : FieldGraph) (schema : Option String) (now : Instant) :
    Logged Snapshot := do
  let d ← g.digestLogged schema
  return ⟨d, g, schema, now⟩

/-- Whether a contract has another fingerprint than the snapshot's. -/
def isStale (s : Snapshot) (g : FieldGraph) (schema : Option String) : Bool :=
  g.isStale (some s.digest) schema

/-- Whether a contract has another fingerprint than the snapshot's, with a report. -/
def isStaleLogged (s : Snapshot) (g : FieldGraph) (schema : Option String) : Logged Bool :=
  g.isStaleLogged (some s.digest) schema

/-! ### Snapshots as JSON -/

/-- The members of a snapshot that do not depend on when it was taken. -/
def members (s : Snapshot) : List (String × Json) :=
  [("digest", .str s.digest), ("sourceFields", s.fields.toJson),
    ("sourceSchema", .ofOption s.schema)]

/-- A snapshot as an object. -/
def toJson (s : Snapshot) : Json :=
  .obj (s.members ++ [("generatedAt", .str s.takenAt.text)])

/-- Reads an instant. -/
def asInstant : Json → Shaped Instant
  | .str s => (Instant.parse s).mapError fun e => .refused e.message
  | v => v.notOfKind "an RFC 3339 formatted date and time string"

/-- The shape of a stored snapshot. -/
def shape : Json.RecordShape Snapshot where
  name := "DriftRecord"
  blank := ⟨"", ⟨[]⟩, none, .epoch⟩
  slots := [
    .of "digest" .always Json.asString fun v s => { s with digest := v },
    .of "sourceFields" .always FieldGraph.ofJson fun v s => { s with fields := v },
    .of "sourceSchema" .inArray (Json.asOption Json.asString) fun v s => { s with schema := v },
    .of "generatedAt" .always asInstant fun v s => { s with takenAt := v }]

/-- Reads a stored snapshot. -/
def ofJson (v : Json) : Shaped Snapshot :=
  shape.read v

end Snapshot

/-! ### Artifacts -/

/-- What writes prompts: from a graph and a schema a prompt, or the reason why there is none. -/
abbrev PromptAuthor := FieldGraph → Option String → Except Failure String

/-- A prompt with the snapshot of what it was made from. -/
structure Artifact where
  prompt : String
  source : Snapshot

/-- Takes a snapshot and has a prompt written. -/
def makeArtifact (author : PromptAuthor) (g : FieldGraph) (schema : Option String)
    (now : Instant) : Attempt Artifact :=
  (Attempt.lift (Snapshot.captureLogged g schema now)).andThen fun source =>
    match author g schema with
    | .error e => Attempt.fail e
    | .ok prompt =>
      ⟨.ok ⟨prompt, source⟩, [.promptGenerated prompt.utf8ByteSize source.digest]⟩

end ExtractionContract
