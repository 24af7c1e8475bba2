import ExtractionContract.Compiler.Basic
import ExtractionContract.Graph.Naming
import ExtractionContract.Schema.Descriptions
import ExtractionContract.Staleness.Monitor

/-!
# Sessions

A session is the work on one contract: a compiler, the graph, and what was remembered of the
contract on the way. A command answers with a reply or a failure; a failure leaves the session
as it was.

* `Session`: the state of the work.
* `Reply`: what a command answers.
* `SchemaArgument`: where the schema that a command needs comes from.
-/

namespace ExtractionContract

/-- The state of the work on a contract. -/
structure Session where
  compiler : Compiler := .standard
  graph : FieldGraph := ⟨[]⟩
  /-- How many new fields were given names. -/
  named : Nat := 0
  /-- The last fingerprint asked for. -/
  lastDigest : Option String := none
  /-- The last snapshot taken. -/
  snapshot : Option Snapshot := none
  monitor : Monitor := .empty

/-- What a command answers. -/
inductive Reply where
  | nothing
  | flag (b : Bool)
  | number (n : Nat)
  | text (s : String)
  | field (f : Field)
  | summary (s : ImportSummary)
  | tree (t : ExampleTree)
  | schema (d : SchemaDocument) (items : List (String × ItemSchema))
  | contract (t : ExampleTree) (d : SchemaDocument)
  | display (d : Display)
  | displays (ds : List Display)
  | snapshot (s : Snapshot)
  | artifact (a : Artifact)
  /-- The monitor, with the flag that it returned if it was asked to look. -/
  | monitor (returned : Option Bool) (m : Monitor)

/-- An optional reply, `nothing` when absent. -/
def Reply.ofOption {α : Type} (reply : α → Reply) : Option α → Reply
  | some a => reply a
  | none => .nothing

/-- The reply to a command, and the session after it. -/
structure Outcome where
  reply : Except Failure Reply
  session : Session

/-- Where the schema that a command needs comes from. -/
inductive SchemaArgument where
  | absent
  | given (text : String)
  /-- The schema document of the graph as it stands. -/
  | ofGraph

namespace Session

variable (s : Session)

/-- The outcome that leaves the session as it is. -/
def answer (r : Reply) : Outcome :=
  ⟨.ok r, s⟩

/-- The outcome that a command failed. -/
def refuse (e : Failure) : Outcome :=
  ⟨.error e, s⟩

/-- The schema that a command needs. -/
def schemaText : SchemaArgument → Logged (Option String)
  | .absent => pure none
  | .given text => pure (some text)
  | .ofGraph => do
    let d ← s.graph.schemaDocumentLogged
    return some d.text

end Session

end ExtractionContract
