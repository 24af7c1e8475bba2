import ExtractionContract.Event
import ExtractionContract.Json.Reader

/-!
# Failures

Why an operation gave no result. `Failure.message` says it in words; `Attempt` is an
operation that may fail and reports events either way.
-/

namespace ExtractionContract

/-- Why an operation gave no result. -/
inductive Failure where
  /-- A text that no repair made readable, with the fault after the last repair. -/
  | unrepairable (stage : Lenient.Stage) (error : Json.ReadError)
  /-- Keys that an import would have repeated. -/
  | repeatedKeys (keys : List String)
  /-- A table without a column that every row needs. -/
  | missingColumn (key : String)
  | importRefused (reason : String)
  | configRefused (reason : String)
  /-- A configuration of the wrong shape. -/
  | configMisshapen (error : ShapeError)
  /-- A text that is no JSON. -/
  | unreadable (error : Json.ReadError)
  /-- A value of the wrong shape. -/
  | misshapen (error : ShapeError)
  /-- A request that names no operation, or lacks an argument. -/
  | badRequest (reason : String)

namespace Failure

/-- Why an operation gave no result, in words. -/
def message : Failure → String
  | unrepairable stage error => s!"Malformed JSON after {stage.name} stage: {error.message}"
  | repeatedKeys keys => "Duplicate field keys in import: " ++ String.intercalate ", " keys
  | missingColumn key => s!"Header row has no column for {key}"
  | importRefused reason => s!"Invalid import: {reason}"
  | configRefused reason => s!"Invalid configuration: {reason}"
  | configMisshapen error => s!"Serialization error: {error.message}"
  | unreadable error => error.message
  | misshapen error => error.message
  | badRequest reason => reason

end Failure

/-- An operation that may fail and reports events either way. -/
abbrev Attempt (α : Type) := Logged (Except Failure α)

namespace Attempt

variable {α β : Type}

/-- The operation that gives a value and reports nothing. -/
def ok (a : α) : Attempt α :=
  ⟨.ok a, []⟩

/-- The operation that fails and reports nothing. -/
def fail (e : Failure) : Attempt α :=
  ⟨.error e, []⟩

/-- One operation, and another on its value unless it failed. -/
def andThen (x : Attempt α) (f : α → Attempt β) : Attempt β :=
  match x.value with
  | .ok a => ⟨(f a).value, x.events ++ (f a).events⟩
  | .error e => ⟨.error e, x.events⟩

/-- An operation that cannot fail. -/
def lift (x : Logged α) : Attempt α :=
  ⟨.ok x.value, x.events⟩

/-- A value of an expected shape, or the failure to have it. -/
def ofShaped (x : Shaped α) : Attempt α :=
  match x with
  | .ok a => ok a
  | .error e => fail (.misshapen e)

/-- The value of a text, or the failure to read it. -/
def parse (text : String) : Attempt Json :=
  match Json.parse text with
  | .ok v => ok v
  | .error e => fail (.unreadable e)

end Attempt

end ExtractionContract
