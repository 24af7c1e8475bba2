import ExtractionContract.Field.Identifier
import ExtractionContract.Session.Basic

/-!
# Edits of a session's graph

The commands that change the graph. Fields that an import or the creation of a field adds get
numbered names; the numbers go on through the session.

* `Edit`: the commands.
* `Session.edit`: carries one out.
-/

namespace ExtractionContract

/-- A command that changes the graph. -/
inductive Edit where
  /-- Adds a field as it is. -/
  | push (f : Field)
  /-- Adds a new field with a key and the name of a type. -/
  | create (key type : String)
  | extend (fields : List Field)
  | remove (id : String)
  /-- Gives members of a stored field other values. -/
  | set (id : String) (values : List (String × Json))
  | sort
  /-- Takes the fields of a sample in place of the graph. -/
  | infer (sample : Json)
  | importRows (rows : List (List String))
  | importText (text : String)
  | importRecords (records : List Record)

namespace Session

variable (s : Session)

/-- The session with another graph. -/
def withGraph (g : FieldGraph) : Session :=
  { s with graph := g }

/-- The session with a graph in which the fields it has gained get their names. -/
def withGained (g : FieldGraph) : Session :=
  { s with
    graph := g.nameGained s.graph s.named
    named := s.named + (g.gained s.graph).length }

/-- Identifiers for new fields. -/
def freshId : Nat → String :=
  Identifier.supply s.graph.usedIds

/-- The outcome of an import. -/
def importOutcome (result : MergeResult) : Outcome :=
  ⟨result.summary.map Reply.summary, s.withGained result.graph⟩

/-- A field with some members of its stored form replaced. -/
def overwriteMembers (f : Field) (values : List (String × Json)) : Shaped Field :=
  match f.toJson with
  | .obj members => Field.ofJson (.obj (Members.putAll members values))
  | v => Field.ofJson v

/-- The outcome of giving members of a field other values. -/
def setOutcome (id : String) (values : List (String × Json)) : Outcome :=
  match s.graph.get? id with
  | none => s.answer (.flag false)
  | some f =>
    match overwriteMembers f values with
    | .ok f' => (s.withGraph (s.graph.replace id f')).answer (.flag true)
    | .error e => s.refuse (.misshapen e)

/-- The outcome of removing a field. -/
def removeOutcome (id : String) : Outcome :=
  match s.graph.remove id with
  | some (f, g) => (s.withGraph g).answer (.field f)
  | none => s.answer .nothing

/-- Carries out an edit. -/
def edit : Edit → Logged Outcome
  | .push f => pure ((s.withGraph (s.graph.append [f])).answer .nothing)
  | .create key type =>
    let f : Field := { id := s.freshId 0, key, type := DataType.parse type }
    pure ((s.withGained (s.graph.append [f])).answer .nothing)
  | .extend fields => pure ((s.withGraph (s.graph.append fields)).answer .nothing)
  | .remove id => pure (s.removeOutcome id)
  | .set id values => pure (s.setOutcome id values)
  | .sort => do
    let g ← s.graph.sortedLogged
    return (s.withGraph g).answer .nothing
  | .infer sample => do
    let fields ← s.compiler.inferFieldsLogged sample
    return (s.withGraph ⟨fields⟩).answer .nothing
  | .importRows rows => do
    let result ← s.compiler.importRows s.freshId s.graph rows
    return s.importOutcome result
  | .importText text => do
    let result ← s.compiler.importText s.freshId s.graph text
    return s.importOutcome result
  | .importRecords records => do
    let result ← s.compiler.importRecords s.freshId s.graph records
    return s.importOutcome result

end Session

end ExtractionContract
