import ExtractionContract.Graph.Basic
import ExtractionContract.Proofs.Json.Members
import Mathlib.Data.List.Nodup

/-!
# The index of children

The index lists, for each parent, the places of its children. It is built in one pass, which
adds each place to those already there; so the places under an identifier are those of the
fields that name it, in order (`lookup_childrenIndex`), and going through them gives the same
fields as going through the graph (`indexedChildren_childrenIndex`). Neither needs identifiers
to be distinct or parents to exist.

* `IndexesChildren`: what it is to be an index of the children of a graph, said by going through
  the graph. There is one index with these properties, up to the order of its entries.
-/

namespace ExtractionContract

theorem Field.isChildOf_iff {f : Field} {id : String} : f.isChildOf id ↔ f.parent = some id :=
  beq_iff_eq

namespace FieldGraph

theorem lookup_addPlace (id id' : String) (place : Nat) (index : List (String × List Nat)) :
    ((addPlace id place index).lookup id').getD [] =
      (index.lookup id').getD [] ++ if id' = id then [place] else [] := by
  unfold addPlace
  rw [Members.lookup_put]
  split
  · next h => rw [h, Option.getD_some]
  · rw [List.append_nil]

/-- The places that one pass adds under an identifier are those of the fields that name it. -/
theorem lookup_indexFrom (id : String) (place : Nat) (index : List (String × List Nat))
    (fs : List Field) :
    ((indexFrom place index fs).lookup id).getD [] =
      (index.lookup id).getD [] ++ fs.findIdxs (fun f => f.isChildOf id) place := by
  induction fs generalizing place index with
  | nil => rw [indexFrom, List.findIdxs_nil, List.append_nil]
  | cons f rest ih =>
    rw [indexFrom, ih, List.findIdxs_cons]
    cases hp : f.parent with
    | none =>
      have hf : ¬f.isChildOf id := by
        rw [Field.isChildOf_iff, hp]
        exact (Option.some_ne_none id).symm
      rw [if_neg hf]
    | some parent =>
      -- The place goes under `id` exactly when this is the parent that `f` names.
      rw [lookup_addPlace, List.append_assoc]
      by_cases h : id = parent
      · have hf : f.isChildOf id := by rw [Field.isChildOf_iff, hp, h]
        rw [if_pos h, if_pos hf, List.singleton_append]
      · have hf : ¬f.isChildOf id := by
          rw [Field.isChildOf_iff, hp, Option.some_inj]
          exact fun e => h e.symm
        rw [if_neg h, if_neg hf, List.nil_append]

/-- **The places under an identifier** are those of the fields that name it as their parent. -/
theorem lookup_childrenIndex (g : FieldGraph) (id : String) :
    (g.childrenIndex.lookup id).getD [] = g.fields.findIdxs fun f => f.isChildOf id :=
  lookup_indexFrom id 0 [] g.fields

/-- At the places of the fields that a test picks stand these fields. The places are counted from
those of a list that stands in front. -/
theorem map_findIdxs (p : Field → Bool) (front fs : List Field) :
    (fs.findIdxs p front.length).map (fun place => (front ++ fs)[place]?) =
      (fs.filter p).map some := by
  induction fs generalizing front with
  | nil => rfl
  | cons f rest ih =>
    have hrest := ih (front ++ [f])
    rw [List.length_append, List.length_singleton, List.append_assoc,
      List.singleton_append] at hrest
    rw [List.findIdxs_cons, List.filter_cons]
    split
    · rw [List.map_cons, hrest, List.map_cons]
      simp
    · exact hrest

/-- **Children by the index are children by the scan.** -/
theorem indexedChildren_childrenIndex (g : FieldGraph) (id : String) :
    g.indexedChildren g.childrenIndex id = g.childrenOf id := by
  have hchildren := map_findIdxs (fun f => f.isChildOf id) [] g.fields
  unfold indexedChildren
  rw [lookup_childrenIndex]
  -- Every place of the index is the place of a field.
  calc (g.fields.findIdxs fun f => f.isChildOf id).filterMap (fun place => g.fields[place]?)
    _ = ((g.fields.findIdxs fun f => f.isChildOf id).map fun place =>
          g.fields[place]?).filterMap (fun f => f) := by rw [List.filterMap_map]; rfl
    _ = ((g.childrenOf id).map some).filterMap (fun f => f) :=
        congrArg (List.filterMap fun f => f) hchildren
    _ = g.childrenOf id := by rw [List.filterMap_map]; exact List.filterMap_some

/-! ### The entries of the index -/

/-- An index of the children of a graph. -/
structure IndexesChildren (g : FieldGraph) (index : List (String × List Nat)) : Prop where
  /-- A parent has one entry at most. -/
  nodup : (Members.keys index).Nodup
  /-- A parent has an entry just when some field names it. -/
  mem_keys_iff : ∀ id, id ∈ Members.keys index ↔ g.childrenOf id ≠ []
  /-- The places of an entry stand in order. -/
  ascending : ∀ e ∈ index, e.2.Pairwise (· < ·)
  /-- They are the places of the fields that name the parent. -/
  mem_iff : ∀ e ∈ index, ∀ place, place ∈ e.2 ↔
    ∃ f, g.fields[place]? = some f ∧ f.parent = some e.1
  /-- The fields at these places are those that a scan for the parent finds. -/
  children_eq : ∀ e ∈ index, e.2.map (fun place => g.fields[place]?) =
    (g.childrenOf e.1).map some
  /-- The place of a field that is no root stands in one entry. -/
  one_entry : ∀ place f, g.fields[place]? = some f → f.isRoot = false →
    ∃! e, e ∈ index ∧ place ∈ e.2

theorem nodup_keys_indexFrom {index : List (String × List Nat)} (h : (Members.keys index).Nodup)
    (place : Nat) (fs : List Field) : (Members.keys (indexFrom place index fs)).Nodup := by
  induction fs generalizing place index with
  | nil => exact h
  | cons f rest ih =>
    rw [indexFrom]
    refine ih ?_ (place + 1)
    split
    · exact Members.nodup_keys_put _ _ _ h
    · exact h

/-- A parent has an entry once a field has named it. -/
theorem mem_keys_indexFrom (id : String) (place : Nat) (index : List (String × List Nat))
    (fs : List Field) : id ∈ Members.keys (indexFrom place index fs) ↔
      id ∈ Members.keys index ∨ ∃ f ∈ fs, f.parent = some id := by
  induction fs generalizing place index with
  | nil => simp [indexFrom]
  | cons f rest ih =>
    rw [indexFrom, ih]
    cases hp : f.parent with
    | none => simp [hp]
    | some parent =>
      -- Adding a place keeps the entries that are there, and makes the parent's if there is none.
      have hput : id ∈ Members.keys (addPlace parent place index) ↔
          id ∈ Members.keys index ∨ parent = id := by
        rw [addPlace, Members.keys_put]
        split
        · next hmem => exact ⟨.inl, fun h => h.elim (·) (fun heq => heq ▸ hmem)⟩
        · simp [eq_comm]
      simp [hput, hp, or_assoc]

variable {g : FieldGraph} {e : String × List Nat}

theorem nodup_keys_childrenIndex (g : FieldGraph) : (Members.keys g.childrenIndex).Nodup := by
  have hnil : (Members.keys ([] : List (String × List Nat))).Nodup := List.nodup_nil
  exact nodup_keys_indexFrom hnil 0 g.fields

theorem mem_keys_childrenIndex {id : String} :
    id ∈ Members.keys g.childrenIndex ↔ ∃ f ∈ g.fields, f.parent = some id :=
  (mem_keys_indexFrom id 0 [] g.fields).trans (or_iff_right List.not_mem_nil)

/-- **An entry holds the places of the fields that name its parent.** -/
theorem places_of_mem_childrenIndex (he : e ∈ g.childrenIndex) :
    e.2 = g.fields.findIdxs fun f => f.isChildOf e.1 := by
  have hlookup := (Members.lookup_eq_some_iff_mem g.nodup_keys_childrenIndex).mpr he
  rw [← lookup_childrenIndex, hlookup, Option.getD_some]

theorem mem_places_iff (he : e ∈ g.childrenIndex) {place : Nat} :
    place ∈ e.2 ↔ ∃ f, g.fields[place]? = some f ∧ f.parent = some e.1 := by
  rw [places_of_mem_childrenIndex he, List.mem_findIdxs_iff_exists_getElem_pos]
  constructor
  · rintro ⟨hlt, hchild⟩
    exact ⟨_, List.getElem?_eq_getElem hlt, Field.isChildOf_iff.mp hchild⟩
  · rintro ⟨f, hf, hparent⟩
    obtain ⟨hlt, rfl⟩ := List.getElem?_eq_some_iff.mp hf
    exact ⟨hlt, Field.isChildOf_iff.mpr hparent⟩

/-- **A field that is no root is indexed once**, under the parent that it names. -/
theorem existsUnique_entry {place : Nat} {f : Field} (hf : g.fields[place]? = some f)
    (hroot : f.isRoot = false) : ∃! e, e ∈ g.childrenIndex ∧ place ∈ e.2 := by
  obtain ⟨id, hparent⟩ : ∃ id, f.parent = some id := by
    cases h : f.parent with
    | none => simp [Field.isRoot, h] at hroot
    | some id => exact ⟨id, rfl⟩
  have hkey : id ∈ Members.keys g.childrenIndex :=
    mem_keys_childrenIndex.mpr ⟨f, List.mem_of_getElem? hf, hparent⟩
  obtain ⟨e, he, rfl⟩ := List.mem_map.mp hkey
  refine ⟨e, ⟨he, (mem_places_iff he).mpr ⟨f, hf, hparent⟩⟩, ?_⟩
  rintro e' ⟨he', hplace⟩
  obtain ⟨f', hf', hparent'⟩ := (mem_places_iff he').mp hplace
  -- The place is that of one field, which names one parent, and a parent has one entry.
  obtain rfl : f = f' := Option.some.inj (hf.symm.trans hf')
  have hsame : e'.1 = e.1 := Option.some.inj (hparent'.symm.trans hparent)
  exact List.inj_on_of_nodup_map g.nodup_keys_childrenIndex he' he hsame

/-- **The index indexes the children.** -/
theorem indexesChildren_childrenIndex (g : FieldGraph) : g.IndexesChildren g.childrenIndex where
  nodup := g.nodup_keys_childrenIndex
  mem_keys_iff id := by
    rw [mem_keys_childrenIndex, childrenOf, Ne, List.filter_eq_nil_iff, not_forall]
    simp [Field.isChildOf_iff]
  ascending e he := by
    rw [places_of_mem_childrenIndex he]
    exact List.pairwise_findIdxs
  mem_iff e he _ := mem_places_iff he
  children_eq e he := by
    rw [places_of_mem_childrenIndex he]
    exact map_findIdxs (fun f => f.isChildOf e.1) [] g.fields
  one_entry _ _ := existsUnique_entry

end FieldGraph

end ExtractionContract
