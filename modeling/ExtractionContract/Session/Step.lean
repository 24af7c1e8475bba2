import ExtractionContract.Session.Edit
import ExtractionContract.Session.Query
import ExtractionContract.Session.Watch

/-!
# Steps of a session

A command is an edit, a query or one that watches the contract. A session is a fold of its
commands: `Session.run` gives the outcomes one after the other.
-/

namespace ExtractionContract

/-- A command of a session. -/
inductive Command where
  | edit (e : Edit)
  | query (q : Query)
  | watch (w : Watch)

/-- What is asked of a session: a command, or the reason why none could be read, with the
schema it is given and the time it is given at. -/
structure Request where
  command : Except Failure Command
  schema : SchemaArgument := .absent
  time : Instant := .epoch

namespace Session

/-- Carries out a command, given its schema. -/
def perform (s : Session) (c : Command) (schema : Option String) (now : Instant) :
    Logged Outcome :=
  match c with
  | .edit e => s.edit e
  | .query q => do
    let r ← s.query q
    return s.answer r
  | .watch w => s.watch schema now w

/-- Carries out a request. The schema is made ready first. -/
def step (s : Session) (r : Request) : Logged Outcome := do
  let schema ← s.schemaText r.schema
  match r.command with
  | .ok c => s.perform c schema r.time
  | .error e => return s.refuse e

/-- Carries out requests, one after the other. -/
def run (s : Session) : List Request → Logged (List Outcome)
  | [] => pure []
  | r :: rest => do
    let outcome ← s.step r
    let outcomes ← outcome.session.run rest
    return outcome :: outcomes

end Session

end ExtractionContract
