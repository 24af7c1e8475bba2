import ExtractionContract.Proofs.Import.Integrity
import ExtractionContract.Proofs.Sample.Forest

/-!
# Graphs that come about

A graph comes about from the empty one by changes: merges of records, removals, sorting, and
the fields of a sample in its place. `Change.apply` is one change; `Reachable` holds of the
graphs that a finite sequence of changes leads to, where every merge, also one that fails, is
given fresh identifiers.

Each change makes a linked graph out of a linked graph (`Linked.apply`), so every reachable
graph is linked (`Reachable.linked`): no sequence of changes, in any order, leaves a field
whose parent does not exist or two fields with one identifier.
-/

namespace ExtractionContract

/-- A change of a graph. -/
inductive Change where
  /-- Merges records, with a supply of identifiers for new fields. -/
  | merge (policy : DuplicatePolicy) (fresh : Nat → String) (records : List Record)
  | remove (id : String)
  /-- Puts the fields into display order. -/
  | sort
  /-- Takes the fields of a sample in place of the graph. -/
  | infer (inferrer : Inferrer) (sample : Json) (parentKey : String) (start : Int64)

namespace Change

/-- The graph after a change. A merge that fails and the removal of a field that does not exist
leave it as it is. -/
def apply (g : FieldGraph) : Change → FieldGraph
  | merge policy fresh records => (g.merge policy fresh records).graph
  | remove id =>
    match g.remove id with
    | some (_, g') => g'
    | none => g
  | sort => g.sorted
  | infer inferrer sample parentKey start => ⟨inferrer.infer sample parentKey none start⟩

/-- What a change relies on: a merge is given an identifier for each record that has a key, and
these are fresh. -/
def Supplied (g : FieldGraph) : Change → Prop
  | merge _ fresh records => g.Supplied fresh (Merge.keyed records).length
  | _ => True

end Change

namespace FieldGraph

/-! ### One change -/

theorem linked_infer (inferrer : Inferrer) (sample : Json) (parentKey : String) (start : Int64) :
    Linked ⟨inferrer.infer sample parentKey none start⟩ where
  nodup_ids := inferrer.nodup_ids_infer sample parentKey start
  parent_mem := fun _ hf _ hid => inferrer.parent_mem_infer sample parentKey start hf hid

/-- **Every change keeps a graph linked.** -/
theorem Linked.apply {g : FieldGraph} (h : g.Linked) {c : Change} (hc : c.Supplied g) :
    (c.apply g).Linked := by
  cases c with
  | merge policy fresh records => exact h.merge policy hc
  | remove id =>
    rw [Change.apply]
    split
    · next hremove => exact h.remove hremove
    · exact h
  | sort => exact h.sorted
  | infer inferrer sample parentKey start => exact linked_infer inferrer sample parentKey start

/-! ### Sequences of changes -/

/-- The graphs that changes make of the empty one. -/
inductive Reachable : FieldGraph → Prop where
  | empty : Reachable ⟨[]⟩
  | apply {g : FieldGraph} (h : Reachable g) (c : Change) (hc : c.Supplied g) :
    Reachable (c.apply g)

/-- By induction on the changes. -/
theorem Reachable.linked {g : FieldGraph} (h : g.Reachable) : g.Linked := by
  induction h with
  | empty => exact Linked.empty
  | apply _ c hc ih => exact ih.apply hc

/-- **Referential integrity.** In every reachable graph identifiers are pairwise distinct, and
every parent that a field names is a field of the graph. -/
theorem Reachable.referential_integrity {g : FieldGraph} (h : g.Reachable) :
    g.ids.Nodup ∧
      ∀ f ∈ g.fields, ∀ id, f.parent = some id → ∃ owner ∈ g.fields, owner.id = id :=
  ⟨h.linked.nodup_ids, fun f hf id hid => List.mem_map.mp (h.linked.parent_mem f hf id hid)⟩

/-- The fields of a sample, a merge that folds two of three fields into them and hangs the
third between these, a removal, and sorting. -/
theorem referential_integrity_after_folding :
    let sample := Json.obj [("items", .arr [.obj [("name", .str "nut")]])]
    let records := [Record.ofKey "items", { key := some "qty", parentKey := some "items" },
      { key := some "items.name", parentKey := some "qty" }]
    let inferred := (Change.infer .builtIn sample "" 0).apply ⟨[]⟩
    let merged := (Change.merge .overwrite (["a", "b", "c"].getD · "") records).apply inferred
    let g := Change.sort.apply ((Change.remove "items.name").apply merged)
    merged.fields.map (fun f => (f.id, f.parent)) =
        [("items", none), ("items.name", some "b"), ("b", some "items")] ∧
      g.Reachable ∧ g.ids.Nodup ∧
        ∀ f ∈ g.fields, ∀ id, f.parent = some id → ∃ owner ∈ g.fields, owner.id = id := by
  intro sample records inferred merged g
  have hinferred : inferred.Reachable :=
    Reachable.empty.apply (.infer .builtIn sample "" 0) trivial
  have hmerged : merged.Reachable :=
    hinferred.apply (.merge .overwrite (["a", "b", "c"].getD · "") records)
      ⟨by decide +kernel, by decide +kernel⟩
  have h : g.Reachable := (hmerged.apply (.remove "items.name") trivial).apply .sort trivial
  exact ⟨by decide +kernel, h, Reachable.referential_integrity h⟩

end FieldGraph

end ExtractionContract
