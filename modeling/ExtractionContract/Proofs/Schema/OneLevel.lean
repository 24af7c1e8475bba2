import ExtractionContract.Graph.Naming
import ExtractionContract.Proofs.Schema.Agreement

/-!
# One level of items

The schema document and the example tree of a graph look up the children of its arrays in an index,
and this finds what a scan of the graph finds (`indexesChildren_childrenIndex`). So a document says
of each root what the root and a scan for its children say, and both descriptions are made from
nothing but the roots and the direct children of arrays among them (`schemaDocument_congr`,
`exampleTree_congr`). All other fields are hidden: deeper ones, those below a root that is no array,
and those whose chain of parents dangles or goes round in a circle. The places in the index are
others when hidden fields are left out, and the descriptions are the same.

* `isShown`: the fields that descriptions are made from.
* `descriptions_show_one_level`: the index and the scan agree, and what follows for descriptions.
-/

namespace ExtractionContract

namespace FieldGraph

/-- Whether a field is a root, or a direct child of a root of type array. -/
def isShown (g : FieldGraph) (f : Field) : Bool :=
  f.isRoot || g.roots.any fun r => r.type.isArray && f.isChildOf r.id

/-- The graph without the fields that its descriptions do not show. -/
def shown (g : FieldGraph) : FieldGraph :=
  ⟨g.fields.filter g.isShown⟩

variable {g g' : FieldGraph}

/-! ### What descriptions are made from -/

/-- **A document is made from the roots and the children of arrays.** -/
theorem schemaDocument_congr (hroots : g'.roots = g.roots)
    (hchildren : ∀ r ∈ g.roots, r.type.isArray → g'.childrenOf r.id = g.childrenOf r.id) :
    g'.schemaDocument = g.schemaDocument := by
  have hproperties : ∀ r ∈ g.roots,
      g'.propertySchema g'.childrenIndex r = g.propertySchema g.childrenIndex r := by
    intro r hr
    rw [propertySchema_childrenIndex, propertySchema_childrenIndex]
    split
    · next harray => rw [itemSchema, itemSchema, hchildren r hr harray]
    · rfl
  simp only [schemaDocument, hroots]
  rw [List.map_congr_left fun r hr => congrArg (Prod.mk r.key) (hproperties r hr)]

/-- **An example tree is made from the roots and the children of arrays.** -/
theorem exampleTree_congr (hroots : g'.roots = g.roots)
    (hchildren : ∀ r ∈ g.roots, r.type.isArray → g'.childrenOf r.id = g.childrenOf r.id) :
    g'.exampleTree = g.exampleTree := by
  have hentries : ∀ r ∈ g.roots,
      g'.exampleEntry g'.childrenIndex r = g.exampleEntry g.childrenIndex r := by
    intro r hr
    rw [exampleEntry_childrenIndex, exampleEntry_childrenIndex]
    split
    · next harray => rw [hchildren r hr harray]
    · rfl
  simp only [exampleTree, hroots]
  rw [List.map_congr_left fun r hr => congrArg (Prod.mk r.key) (hentries r hr)]

/-! ### Hidden fields -/

/-- No root is hidden. -/
theorem roots_shown (g : FieldGraph) : g.shown.roots = g.roots := by
  rw [roots, shown, roots, List.filter_filter]
  refine List.filter_congr fun f _ => ?_
  cases h : f.isRoot <;> simp [isShown, h]

/-- No direct child of an array is hidden. -/
theorem childrenOf_shown {r : Field} (hr : r ∈ g.roots) (harray : r.type.isArray) :
    g.shown.childrenOf r.id = g.childrenOf r.id := by
  rw [childrenOf, shown, childrenOf, List.filter_filter]
  refine List.filter_congr fun f _ => ?_
  cases h : f.isChildOf r.id with
  | false => rfl
  | true =>
    have hshown : g.isShown f = true := by
      rw [isShown, Bool.or_eq_true, List.any_eq_true]
      exact .inr ⟨r, hr, by rw [harray, h]; rfl⟩
    rw [hshown, Bool.and_true]

/-! ### The whole agreement -/

/-- **Descriptions show one level, whichever way children are looked up.** In any graph, with
identifiers that repeat and parents that do not exist or go round in a circle, the index lists under
each parent the places of the fields that a scan for this parent finds. Each property of the schema
document is that of the root in its place, under its key, and describes the items of an array by a
scan for its children; required are the keys of the required roots, in the order of the graph.
Without the fields that are neither roots nor direct children of an array among the roots, the
document and the example tree are the same. -/
theorem descriptions_show_one_level (g : FieldGraph) :
    g.IndexesChildren g.childrenIndex ∧
      (g.schemaDocument.properties.length = g.roots.length ∧
        ∀ (i : Nat) (r : Field), g.roots[i]? = some r → ∃ property,
          g.schemaDocument.properties[i]? = some (r.key, property) ∧
            (r.type.isArray = true → property = .array (g.itemSchema r)) ∧
            (r.type.isArray = false → property = .scalar r.scalarSchema)) ∧
      g.schemaDocument.required = (g.roots.filter Field.required).map Field.key ∧
      g.shown.schemaDocument = g.schemaDocument ∧
      g.shown.exampleTree = g.exampleTree := by
  refine ⟨g.indexesChildren_childrenIndex, ⟨List.length_map _, fun i r hr => ?_⟩, rfl,
    schemaDocument_congr g.roots_shown fun _ => childrenOf_shown,
    exampleTree_congr g.roots_shown fun _ => childrenOf_shown⟩
  refine ⟨g.propertySchema g.childrenIndex r, ?_, ?_⟩
  · rw [schemaDocument, List.getElem?_map, hr, Option.map_some]
  · rw [propertySchema_childrenIndex]
    cases r.type.isArray <;> simp

/-- Two arrays of one identifier, a root that is no array with a child, a child of a child, two
fields that go round in a circle and one whose parent does not exist. Six fields are left in other
places. -/
theorem descriptions_show_one_level_of_namesakes :
    let lines : Field := { id := "1", key := "lines", type := .array, required := true }
    let g : FieldGraph := ⟨[
      { id := "2", key := "unit", parent := some "3" },
      { id := "3", key := "qty", type := .array, required := true, parent := some "1" },
      lines,
      { id := "4", key := "total", type := .number },
      { id := "5", key := "net", parent := some "4" },
      { id := "6", key := "ring", parent := some "7" },
      { id := "7", key := "ring", parent := some "6" },
      { id := "1", key := "notes", type := .array },
      { id := "8", key := "text", parent := some "1" },
      { id := "9", key := "lost", parent := some "0" }]⟩
    g.childrenIndex = [("3", [0]), ("1", [1, 8]), ("4", [4]), ("7", [5]), ("6", [6]), ("0", [9])] ∧
      g.shown.ids = ["3", "1", "4", "1", "8"] ∧ g.shown.childrenIndex = [("1", [0, 4])] ∧
      g.roots[0]? = some lines ∧
      g.schemaDocument.properties[0]? = some ("lines", .array (g.itemSchema lines)) ∧
      (g.itemSchema lines).required = ["qty"] ∧
      g.shown.schemaDocument = g.schemaDocument ∧ g.shown.exampleTree = g.exampleTree := by
  intro lines g
  have hroot : g.roots[0]? = some lines := rfl
  obtain ⟨-, ⟨-, hproperties⟩, -, hdocument, htree⟩ := g.descriptions_show_one_level
  obtain ⟨property, hproperty, harray, -⟩ := hproperties 0 lines hroot
  rw [harray rfl] at hproperty
  exact ⟨by decide, by decide, by decide, hroot, hproperty, by decide, hdocument, htree⟩

end FieldGraph

end ExtractionContract
