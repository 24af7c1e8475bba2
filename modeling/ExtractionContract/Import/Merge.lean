import ExtractionContract.Failure
import ExtractionContract.Graph.Basic
import ExtractionContract.Import.Record

/-!
# Merging records into a graph

A merge makes a field of every record that has a key, links the fields of the batch, and puts
them into the graph as the policy for repeated keys says.

* A new field's order continues after the number of fields there are.
* A record's parent is looked for in the batch only: the first record that goes by the name.
  A record is not its own parent. A parent that is not found leaves the field a root.
* Under `reject` a key that would be repeated fails the merge, and the graph stays as it is.
* Under `overwrite` a field whose key the graph has updates the first field with that key, and
  references to the one become references to the other. A field without a new parent keeps its
  old one. The orders of the fields left over are counted again.
* Under `coexist` all fields are added.

Identifiers of new fields are given by a function of their place in the batch, which ought to
give distinct identifiers that are not in use.
-/

namespace ExtractionContract

/-- What a merge did. -/
structure ImportSummary where
  added : Nat
  overwritten : Nat
  skipped : Nat
  /-- The names of the parents that were not found, in order. -/
  unresolvedParents : List String
deriving DecidableEq

namespace Merge

/-- A record with its key. -/
structure Keyed where
  key : String
  record : Record

/-- The records that have a key. -/
def keyed (records : List Record) : List Keyed :=
  records.filterMap fun r => r.key.map fun k => ⟨k, r⟩

/-- The number of records that have no key. -/
def keyless (records : List Record) : Nat :=
  (records.filter fun r => r.key.isNone).length

/-! ### Repeated keys -/

/-- The keys that stand a second time, given those seen before. -/
def repeats (seen : List String) : List String → List String
  | [] => []
  | k :: rest => if k ∈ seen then k :: repeats seen rest else repeats (k :: seen) rest

/-- The keys that a batch would repeat, each once, in ascending order. -/
def repeatedKeys (g : FieldGraph) (batch : List Keyed) : List String :=
  ((repeats (g.fields.map Field.key) (batch.map Keyed.key)).eraseDups).mergeSort (· ≤ ·)

/-! ### New fields -/

/-- The field of a record, still without a parent. -/
def fieldOf (fresh : Nat → String) (base : Nat) (place : Nat) (k : Keyed) : Field where
  id := fresh place
  key := k.key
  name := k.record.name
  outputName := k.record.outputName
  type := (k.record.type.map DataType.parse).getD .string
  required := k.record.required.getD false
  description := k.record.description
  sample := k.record.sample
  validation := k.record.validation
  normalization := k.record.normalization
  hint := k.record.hint
  threshold := k.record.threshold
  order := (base : Int) + place
  parent := none

/-- What the records of a batch go by, with the identifiers of their fields. The first of
several with one name counts. -/
def references (fresh : Nat → String) (batch : List Keyed) : List (String × String) :=
  batch.mapIdx fun place k => (k.record.reference k.key, fresh place)

/-- The parent of a field, looked up by the name its record gives. -/
def parentOf (refs : List (String × String)) (id : String) (parentKey : Option String) :
    Option String :=
  (parentKey.bind fun name => refs.lookup name).filter fun p => p ≠ id

/-- The fields of a batch, linked. -/
def linked (fresh : Nat → String) (base : Nat) (batch : List Keyed) : List Field :=
  let refs := references fresh batch
  batch.mapIdx fun place k =>
    { fieldOf fresh base place k with
      parent := parentOf refs (fresh place) k.record.parentKey }

/-- The parents that were not found, each with the key of the field that named it. -/
def unresolved (fresh : Nat → String) (batch : List Keyed) : List (String × String) :=
  let refs := references fresh batch
  (batch.mapIdx fun place k =>
    match k.record.parentKey with
    | none => none
    | some name =>
      if (parentOf refs (fresh place) (some name)).isNone then some (name, k.key) else none
  ).filterMap id

/-! ### Overwriting -/

/-- A field with everything of another but its identifier, its key and its order. It keeps its
parent when the other has none. -/
def overwriteField (old new : Field) : Field :=
  { new with
    id := old.id
    key := old.key
    order := old.order
    parent := new.parent.or old.parent }

/-- Overwrites the first field that has the key of another. -/
def overwriteFirst (new : Field) : List Field → List Field
  | [] => []
  | f :: rest => if f.key == new.key then overwriteField f new :: rest
      else f :: overwriteFirst new rest

/-- Whether a graph has a field's key. -/
def isTaken (g : FieldGraph) (f : Field) : Bool :=
  g.fields.any fun h => h.key == f.key

/-- The identifiers of folded fields, with those of the fields that they are folded into. -/
def redirects (g : FieldGraph) (folded : List Field) : List (String × String) :=
  folded.filterMap fun f =>
    (g.fields.find? fun h => h.key == f.key).map fun h => (f.id, h.id)

/-- A field with its reference redirected. -/
def redirect (names : List (String × String)) (f : Field) : Field :=
  { f with parent := f.parent.map fun p => (names.lookup p).getD p }

/-- Fields with their orders counted from a base on. -/
def renumber (base : Nat) (fields : List Field) : List Field :=
  fields.mapIdx fun place f => { f with order := (base : Int) + place }

/-- What a merge makes of a graph. -/
structure Merged where
  graph : FieldGraph
  added : Nat
  overwritten : Nat

/-- Adds all fields. -/
def addAll (g : FieldGraph) (fields : List Field) : Merged :=
  ⟨g.append fields, fields.length, 0⟩

/-- Folds the fields whose keys are taken into the graph, and adds the others. -/
def foldIn (g : FieldGraph) (fields : List Field) : Merged :=
  let folded := fields.filter (isTaken g)
  let others := fields.filter fun f => !isTaken g f
  let names := redirects g folded
  -- Of several records with one taken key the last one counts.
  let kept := folded.foldl (fun fs f => overwriteFirst f fs) g.fields
  ⟨⟨kept.map (redirect names) ++ renumber g.size (others.map (redirect names))⟩,
    others.length, folded.length⟩

/-- Puts linked fields into a graph. -/
def place (policy : DuplicatePolicy) (g : FieldGraph) (fields : List Field) : Merged :=
  match policy with
  | .overwrite => foldIn g fields
  | _ => addAll g fields

end Merge

/-! ### The merge -/

/-- What a merge gives: the summary, or why there is none, and the graph after it. -/
structure MergeResult where
  summary : Except Failure ImportSummary
  graph : FieldGraph

namespace FieldGraph

open Merge

/-- The batch is merged, no key being in the way. -/
def mergeBatch (g : FieldGraph) (policy : DuplicatePolicy) (fresh : Nat → String)
    (records : List Record) : ImportSummary × FieldGraph :=
  let batch := keyed records
  let merged := place policy g (linked fresh g.size batch)
  (⟨merged.added, merged.overwritten, keyless records,
    (unresolved fresh batch).map Prod.fst⟩, merged.graph)

/-- Merges records into a graph under a policy for repeated keys. -/
def merge (g : FieldGraph) (policy : DuplicatePolicy) (fresh : Nat → String)
    (records : List Record) : MergeResult :=
  let repeated := repeatedKeys g (keyed records)
  if policy = .reject ∧ repeated ≠ [] then ⟨.error (.repeatedKeys repeated), g⟩
  else
    let (summary, g') := g.mergeBatch policy fresh records
    ⟨.ok summary, g'⟩

/-- Merges records into a graph, with a report of the parents not found and of the result. -/
def mergeLogged (g : FieldGraph) (policy : DuplicatePolicy) (fresh : Nat → String)
    (records : List Record) : Logged MergeResult :=
  let result := g.merge policy fresh records
  match result.summary with
  | .error _ => ⟨result, []⟩
  | .ok s =>
    ⟨result,
      ((unresolved fresh (keyed records)).map fun u => .parentNotFound u.1 u.2) ++
        [.importDone s.added s.overwritten s.skipped s.unresolvedParents.length]⟩

end FieldGraph

/-- A summary as an object. -/
def ImportSummary.toJson (s : ImportSummary) : Json :=
  .obj [("added", .ofNat s.added), ("overwritten", .ofNat s.overwritten),
    ("skipped", .ofNat s.skipped), ("unresolvedParents", .ofStrings s.unresolvedParents)]

end ExtractionContract
