import ExtractionContract.Field.Codec

/-!
# Field graphs

A graph is a list of fields in which parents are named by identifier. Nothing forces
identifiers to be distinct, parents to exist or chains of parents to end; a look-up takes the
first field with an identifier.

* `FieldGraph.get?`, `roots`, `childrenOf`: the fields by identifier and by parent.
* `FieldGraph.childrenIndex`: for each parent the places of its children, in one pass.
* `FieldGraph.remove`: removes a field and makes its children roots.
* `FieldGraph.rename`: renames identifiers and the references to them.
-/

namespace ExtractionContract

/-- A list of fields, linked by their parents' identifiers. -/
structure FieldGraph where
  fields : List Field
deriving DecidableEq

namespace FieldGraph

instance : Inhabited FieldGraph := ⟨⟨[]⟩⟩

variable (g : FieldGraph)

/-- The number of fields. -/
def size : Nat :=
  g.fields.length

/-- The first field with an identifier. -/
def get? (id : String) : Option Field :=
  g.fields.find? fun f => f.id == id

/-- The fields without a parent, in order. -/
def roots : List Field :=
  g.fields.filter Field.isRoot

/-- The fields that name a parent, in order. -/
def childrenOf (id : String) : List Field :=
  g.fields.filter fun f => f.isChildOf id

/-- The graph with further fields at its end. -/
def append (fs : List Field) : FieldGraph :=
  ⟨g.fields ++ fs⟩

/-- The identifiers in use, as names of fields or of parents. -/
def usedIds : List String :=
  g.fields.map Field.id ++ g.fields.filterMap Field.parent

/-! ### The index of children -/

/-- Adds a place to those of a parent. -/
def addPlace (id : String) (place : Nat) (index : List (String × List Nat)) :
    List (String × List Nat) :=
  Members.put id ((index.lookup id).getD [] ++ [place]) index

/-- Adds the places of fields that stand from a place on. -/
def indexFrom (place : Nat) (index : List (String × List Nat)) :
    List Field → List (String × List Nat)
  | [] => index
  | f :: rest =>
    indexFrom (place + 1)
      (match f.parent with
        | some id => addPlace id place index
        | none => index) rest

/-- For each parent the places of its children, in order. -/
def childrenIndex : List (String × List Nat) :=
  indexFrom 0 [] g.fields

/-- The children of a parent, by the index. -/
def indexedChildren (index : List (String × List Nat)) (id : String) : List Field :=
  ((index.lookup id).getD []).filterMap fun place => g.fields[place]?

/-! ### Changes -/

/-- A field without its parent, if that is the one given. -/
def detach (id : String) (f : Field) : Field :=
  if f.isChildOf id then { f with parent := none } else f

/-- Removes the first field with an identifier and makes all fields that name it as their
parent roots. -/
def remove (id : String) : Option (Field × FieldGraph) :=
  (g.get? id).map fun f =>
    (f, ⟨(g.fields.eraseP fun f => f.id == id).map (detach id)⟩)

/-- Replaces the first field of a list with an identifier. -/
def replaceIn (id : String) (f : Field) : List Field → List Field
  | [] => []
  | h :: rest => if h.id == id then f :: rest else h :: replaceIn id f rest

/-- Replaces the first field with an identifier. -/
def replace (id : String) (f : Field) : FieldGraph :=
  ⟨replaceIn id f g.fields⟩

/-- A field with its identifier and its reference renamed. -/
def renameField (names : List (String × String)) (f : Field) : Field :=
  { f with
    id := (names.lookup f.id).getD f.id
    parent := f.parent.map fun p => (names.lookup p).getD p }

/-- The graph with identifiers, and the references to them, renamed. -/
def rename (names : List (String × String)) : FieldGraph :=
  ⟨g.fields.map (renameField names)⟩

/-! ### The graph as JSON -/

/-- A graph as an array of its fields. -/
def toJson : Json :=
  .arr (g.fields.map Field.toJson)

/-- Reads a stored graph. -/
def ofJson (v : Json) : Shaped FieldGraph :=
  (v.asList Field.ofJson).map FieldGraph.mk

end FieldGraph

end ExtractionContract
