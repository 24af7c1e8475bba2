import ExtractionContract.Import.Policy
import ExtractionContract.Json.Fault
import ExtractionContract.Lenient.Stage

/-!
# Events

What the library reports while it works. An operation that reports anything returns its value
together with the events, in the order in which they occurred.

* `Event.level`, `Event.message`: how urgent an event is, and its text.
* `Logged`: a value with the events on the way to it, and `Logged.note`, a single event.
-/

namespace ExtractionContract

/-- How urgent an event is. -/
inductive Level where
  | error
  | warn
  | info
  | debug
deriving DecidableEq

/-- The name of a level. -/
def Level.name : Level → String
  | error => "ERROR"
  | warn => "WARN"
  | info => "INFO"
  | debug => "DEBUG"

/-- Something worth reporting. -/
inductive Event where
  /-- A chain of parents that does not end. -/
  | endlessChain (key : String) (hops : Nat)
  /-- A reading of a text that failed. -/
  | readingFailed (stage : Lenient.Stage) (error : Json.ReadError)
  /-- A text that could be read after a repair. -/
  | readAfterRepair (stage : Lenient.Stage)
  | treeBuilt (roots : Nat)
  | schemaBuilt (properties required : Nat)
  | contractRegenerated (fields : Nat)
  | fieldsInferred (fields : Nat)
  | keyIgnored (key : String)
  | thresholdIgnored (text : String)
  | rowSkipped (line : Nat)
  | rowsRead (records rows : Nat)
  | entrySkipped (index : Nat)
  | importStarted (records : Nat) (policy : DuplicatePolicy)
  | parentNotFound (parent key : String)
  | importDone (added overwritten skipped unresolved : Nat)
  | digestComputed (digest : String) (fields : Nat)
  | digestFailed (reason : String)
  | promptGenerated (bytes : Nat) (digest : String)
  | configLoaded (labels : Nat) (policy : DuplicatePolicy)

namespace Event

/-- How urgent an event is. -/
def level : Event → Level
  | endlessChain _ _ => .error
  | readAfterRepair _ => .warn
  | thresholdIgnored _ => .warn
  | rowSkipped _ => .warn
  | entrySkipped _ => .warn
  | digestFailed _ => .warn
  | importStarted _ _ => .info
  | importDone _ _ _ _ => .info
  | _ => .debug

/-- The text of an event. -/
def message : Event → String
  | endlessChain key hops =>
    s!"Parent chain of field '{key}' exceeds {hops} hops; the graph contains a cycle"
  | readingFailed stage error => s!"JSON {stage.name} parse failed: {error.message}"
  | readAfterRepair stage => s!"JSON parsed only after {stage.name} repair"
  | treeBuilt roots => s!"Built example tree with {roots} root entries"
  | schemaBuilt properties required =>
    s!"Built schema document with {properties} properties ({required} required)"
  | contractRegenerated fields => s!"Regenerating contract for {fields} fields"
  | fieldsInferred fields => s!"Inferred {fields} fields from sample"
  | keyIgnored key => s!"Ignoring unrecognized record key '{key}'"
  | thresholdIgnored text => s!"Ignoring non-numeric confidence threshold '{text}'"
  | rowSkipped line => s!"Skipping row {line} without a field key"
  | rowsRead records rows => s!"Read {records} records from {rows} tabular rows"
  | entrySkipped index => s!"Skipping non-object entry #{index} in field import"
  | importStarted records policy =>
    s!"Importing {records} records with {policy.title} duplicate policy"
  | parentNotFound parent key =>
    s!"Parent '{parent}' of '{key}' not found in batch, importing as root"
  | importDone added overwritten skipped unresolved =>
    s!"Imported {added} fields ({overwritten} overwritten, {skipped} skipped, {unresolved} " ++
      "unresolved parents)"
  | digestComputed digest fields => s!"Computed digest {digest} over {fields} fields"
  | digestFailed reason => s!"Digest computation failed, keeping stale flag: {reason}"
  | promptGenerated bytes digest => s!"Generated prompt of {bytes} chars with digest {digest}"
  | configLoaded labels policy =>
    s!"Loaded compiler config ({labels} labels, duplicate policy {policy.title})"

end Event

/-- A value with the events on the way to it. -/
structure Logged (α : Type) where
  value : α
  events : List Event

namespace Logged

instance : Monad Logged where
  pure a := ⟨a, []⟩
  bind x f := ⟨(f x.value).value, x.events ++ (f x.value).events⟩

/-- A single event. -/
def note (e : Event) : Logged Unit :=
  ⟨(), [e]⟩

variable {α β : Type}

@[simp] theorem value_pure (a : α) : (pure a : Logged α).value = a := rfl

@[simp] theorem events_pure (a : α) : (pure a : Logged α).events = [] := rfl

@[simp] theorem value_bind (x : Logged α) (f : α → Logged β) :
    (x >>= f).value = (f x.value).value := rfl

@[simp] theorem events_bind (x : Logged α) (f : α → Logged β) :
    (x >>= f).events = x.events ++ (f x.value).events := rfl

@[simp] theorem events_note (e : Event) : (note e).events = [e] := rfl

end Logged

end ExtractionContract
