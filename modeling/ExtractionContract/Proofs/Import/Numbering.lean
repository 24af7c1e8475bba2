import ExtractionContract.Proofs.Graph.DisplayOrder
import ExtractionContract.Proofs.Graph.Links
import ExtractionContract.Proofs.Import.Overwrite
import ExtractionContract.Proofs.Import.Policies

/-!
# The orders of imported fields

An import numbers the fields it adds on from the number of fields there are. `GoesOn` says what it
leaves, under whichever policy: in front the fields there were, with their identifiers, keys and
orders, and behind them a field for each record that is not folded into one of these, with orders
counted from the size of the graph (`goesOn_merge`).

The orders of the fields there were lie below the size of the graph as long as fields are only
imported; then they are the numbers from zero on (`Edited.map_order`). A removal makes the graph
smaller and leaves the orders as they are, so that after some removals no more is left than that no
order exceeds the size by as many (`Edited.order_lt`). An import goes on above all orders exactly if
they do lie below the size (`GoesOn.order_lt_iff`). In that case distinct orders stay distinct, and
display order shows the new fields last, in the order of their records (`GoesOn.sorted`).
-/

namespace ExtractionContract

/-- What an import keeps of a field: its identifier, its key and its order. -/
def Field.standing (f : Field) : String × String × Int :=
  (f.id, f.key, f.order)

namespace Merge

/-- The identifiers and keys of the records that a merge adds fields for, in the order of the
records: all that have a key, but under `overwrite` not those whose key the graph has. -/
def gains (policy : DuplicatePolicy) (g : FieldGraph) (fresh : Nat → String)
    (batch : List Keyed) : List (String × String) :=
  (batch.mapIdx fun place k => (fresh place, k.key)).filter fun x =>
    policy ≠ .overwrite ∨ x.2 ∉ g.fields.map Field.key

/-- So many orders, counted from a base on. -/
def countedFrom (base count : Nat) : List Int :=
  (List.range count).map fun i : Nat => (base : Int) + i

end Merge

namespace FieldGraph

open Merge

/-- A graph goes on from another with further fields, numbered on from the size of the other. -/
structure GoesOn (g after : FieldGraph) (gained : List (String × String)) : Prop where
  /-- In front stand the fields there were. -/
  front : (after.fields.take g.size).map Field.standing = g.fields.map Field.standing
  /-- Behind them stand the fields gained. -/
  back : (after.fields.drop g.size).map (fun f => (f.id, f.key)) = gained
  order : (after.fields.drop g.size).map Field.order = countedFrom g.size gained.length

/-- A graph that imports under any policies, whether they succeed or fail, and removals make of the
empty one, with the number of the fields removed. -/
inductive Edited : Nat → FieldGraph → Prop where
  | empty : Edited 0 ⟨[]⟩
  | merge {removed : Nat} {g : FieldGraph} (h : Edited removed g) (policy : DuplicatePolicy)
    (fresh : Nat → String) (records : List Record) :
    Edited removed (g.merge policy fresh records).graph
  | remove {removed : Nat} {g g' : FieldGraph} {f : Field} {id : String} (h : Edited removed g)
    (hremove : g.remove id = some (f, g')) : Edited (removed + 1) g'

end FieldGraph

namespace Merge

/-! ### Counted orders -/

theorem mem_countedFrom {base count : Nat} {x : Int} :
    x ∈ countedFrom base count ↔ (base : Int) ≤ x ∧ x < base + count := by
  rw [countedFrom, List.mem_map]
  constructor
  · rintro ⟨i, hi, rfl⟩
    have hlt := List.mem_range.mp hi
    omega
  · rintro ⟨hle, hlt⟩
    exact ⟨(x - base).toNat, List.mem_range.mpr (by omega), by omega⟩

theorem pairwise_countedFrom (base count : Nat) : (countedFrom base count).Pairwise (· < ·) := by
  refine List.pairwise_map.mpr (List.pairwise_lt_range.imp fun {i j} hlt => ?_)
  omega

theorem nodup_countedFrom (base count : Nat) : (countedFrom base count).Nodup :=
  (pairwise_countedFrom base count).imp ne_of_lt

theorem length_countedFrom (base count : Nat) : (countedFrom base count).length = count := by
  rw [countedFrom, List.length_map, List.length_range]

/-- Counting can be interrupted. -/
theorem countedFrom_append (base count count' : Nat) :
    countedFrom base count ++ countedFrom (base + count) count' =
      countedFrom base (count + count') := by
  rw [countedFrom, countedFrom, countedFrom, List.range_add, List.map_append, List.map_map]
  congr 2
  funext i
  change ((base + count : Nat) : Int) + i = base + ((count + i : Nat) : Int)
  omega

/-! ### The fields of a batch -/

/-- Fields that are numbered have counted orders. -/
theorem map_order_renumber (base : Nat) (fs : List Field) :
    (renumber base fs).map Field.order = countedFrom base fs.length := by
  rw [renumber, List.mapIdx_eq_zipIdx_map, List.map_map]
  change fs.zipIdx.map ((fun i : Nat => (base : Int) + i) ∘ Prod.snd) = _
  rw [← List.map_map, List.zipIdx_map_snd, countedFrom, List.range_eq_range']

/-- So have the fields of a batch, which are numbered as they are made. -/
theorem map_order_linked (fresh : Nat → String) (base : Nat) (batch : List Keyed) :
    (linked fresh base batch).map Field.order = countedFrom base batch.length := by
  rw [← renumber_linked, map_order_renumber, length_linked]

theorem map_id_key_linked (fresh : Nat → String) (base : Nat) (batch : List Keyed) :
    (linked fresh base batch).map (fun f => (f.id, f.key)) =
      batch.mapIdx fun place k => (fresh place, k.key) := by
  rw [linked, List.mapIdx_eq_zipIdx_map, List.map_map, List.mapIdx_eq_zipIdx_map]
  rfl

theorem place_of_ne {policy : DuplicatePolicy} (hpolicy : policy ≠ .overwrite) (g : FieldGraph)
    (fields : List Field) : place policy g fields = addAll g fields := by
  cases policy with
  | reject => rfl
  | overwrite => exact absurd rfl hpolicy
  | coexist => rfl

/-- Unless fields are folded in, all of a batch are gained. -/
theorem gains_of_ne {policy : DuplicatePolicy} (hpolicy : policy ≠ .overwrite) (g : FieldGraph)
    (fresh : Nat → String) (batch : List Keyed) :
    gains policy g fresh batch =
      (linked fresh g.size batch).map fun f => (f.id, f.key) := by
  rw [map_id_key_linked, gains, List.filter_eq_self]
  intro x _
  exact decide_eq_true (.inl hpolicy)

/-- Otherwise those that are left over. -/
theorem gains_overwrite (g : FieldGraph) (fresh : Nat → String) (batch : List Keyed) :
    gains .overwrite g fresh batch =
      ((linked fresh g.size batch).filter fun f => !isTaken g f).map fun f => (f.id, f.key) := by
  have hnew : (fun f : Field => !isTaken g f) =
      (fun x : String × String =>
        decide (DuplicatePolicy.overwrite ≠ .overwrite ∨ x.2 ∉ g.fields.map Field.key)) ∘
          fun f => (f.id, f.key) := by
    funext f
    rw [Bool.eq_iff_iff]
    simp [isTaken]
  rw [hnew, ← List.filter_map, map_id_key_linked]
  rfl

end Merge

namespace FieldGraph

open Merge

/-! ### One import -/

/-- It is enough to know two parts of a graph: what was kept, and what was added. -/
theorem GoesOn.of_append {g : FieldGraph} {kept added : List Field}
    {gained : List (String × String)}
    (hkept : kept.map Field.standing = g.fields.map Field.standing)
    (hgained : added.map (fun f => (f.id, f.key)) = gained)
    (horder : added.map Field.order = countedFrom g.size added.length) :
    g.GoesOn ⟨kept ++ added⟩ gained := by
  have hsize : g.size = kept.length := by
    have hlength := congrArg List.length hkept
    rw [List.length_map, List.length_map] at hlength
    exact hlength.symm
  have hcount : gained.length = added.length := by rw [← hgained, List.length_map]
  -- The size of the graph is where the second part begins.
  constructor
  · rw [List.take_left' hsize.symm, hkept]
  · rw [List.drop_left' hsize.symm, hgained]
  · rw [List.drop_left' hsize.symm, horder, hcount]

theorem goesOn_addAll {policy : DuplicatePolicy} (hpolicy : policy ≠ .overwrite) (g : FieldGraph)
    (fresh : Nat → String) (batch : List Keyed) :
    g.GoesOn (addAll g (linked fresh g.size batch)).graph (gains policy g fresh batch) := by
  refine GoesOn.of_append rfl (gains_of_ne hpolicy g fresh batch).symm ?_
  rw [map_order_linked, length_linked]

theorem goesOn_foldIn (g : FieldGraph) (fresh : Nat → String) (batch : List Keyed) :
    g.GoesOn (foldIn g (linked fresh g.size batch)).graph (gains .overwrite g fresh batch) := by
  refine GoesOn.of_append ?_ ?_ ?_
  · -- Neither overwriting nor redirection touches an identifier, a key or an order.
    rw [List.map_map]
    exact map_foldl_overwriteFirst (fun _ _ => rfl) _ _
  · rw [map_renumber fun _ _ => rfl, List.map_map, gains_overwrite]
    rfl
  · -- The fields left over had gaps between their orders, and are numbered once more.
    rw [map_order_renumber, renumber, List.length_mapIdx]

/-- **Placing a batch** goes on from the graph, whether or not fields are folded in, and what is
reported as added is what is gained. -/
theorem goesOn_place (policy : DuplicatePolicy) (g : FieldGraph) (fresh : Nat → String)
    (batch : List Keyed) :
    g.GoesOn (place policy g (linked fresh g.size batch)).graph (gains policy g fresh batch) ∧
      (place policy g (linked fresh g.size batch)).added =
        (gains policy g fresh batch).length := by
  by_cases hpolicy : policy = .overwrite
  · subst hpolicy
    refine ⟨goesOn_foldIn g fresh batch, ?_⟩
    rw [gains_overwrite, List.length_map]
    rfl
  · rw [place_of_ne hpolicy]
    refine ⟨goesOn_addAll hpolicy g fresh batch, ?_⟩
    rw [gains_of_ne hpolicy, List.length_map]
    rfl

/-- **A successful import goes on from the graph**, under every policy. -/
theorem goesOn_merge {g : FieldGraph} {policy : DuplicatePolicy} {fresh : Nat → String}
    {records : List Record} {s : ImportSummary}
    (hs : (g.merge policy fresh records).summary = .ok s) :
    g.GoesOn (g.merge policy fresh records).graph (gains policy g fresh (keyed records)) ∧
      s.added = (gains policy g fresh (keyed records)).length := by
  rw [merge_eq] at hs ⊢
  split at hs
  · exact absurd hs nofun
  · next hpasses =>
    rw [if_neg hpasses, ← Except.ok.inj hs]
    exact goesOn_place policy g fresh (keyed records)

section

variable {g after : FieldGraph} {gained : List (String × String)} (h : g.GoesOn after gained)

include h

theorem GoesOn.map_order_front :
    (after.fields.take g.size).map Field.order = g.fields.map Field.order := by
  have horders := congrArg (List.map fun x : String × String × Int => x.2.2) h.front
  rwa [List.map_map, List.map_map] at horders

theorem GoesOn.map_order :
    after.fields.map Field.order =
      g.fields.map Field.order ++ countedFrom g.size gained.length := by
  rw [← h.map_order_front, ← h.order, ← List.map_append, List.take_append_drop]

theorem GoesOn.size_eq : after.size = g.size + gained.length := by
  have hlength := congrArg List.length h.map_order
  rwa [List.length_map, List.length_append, List.length_map, length_countedFrom] at hlength

/-- An order is one there was, or one that is counted. -/
theorem GoesOn.forall_order_iff {P : Int → Prop} : (∀ f ∈ after.fields, P f.order) ↔
    (∀ f ∈ g.fields, P f.order) ∧ ∀ x ∈ countedFrom g.size gained.length, P x := by
  rw [← List.forall_mem_map, h.map_order, List.forall_mem_append, List.forall_mem_map]

/-- **New orders are above all others** exactly if the others lie below the size of the graph. -/
theorem GoesOn.order_lt_iff :
    (∀ f ∈ after.fields.drop g.size, ∀ old ∈ g.fields, old.order < f.order) ↔
      gained.length = 0 ∨ ∀ old ∈ g.fields, old.order < g.size := by
  rw [← List.forall_mem_map (f := Field.order) (P := fun x => ∀ old ∈ g.fields, old.order < x),
    h.order]
  constructor
  · intro hall
    refine or_iff_not_imp_left.mpr fun hpos => hall g.size ?_
    -- The first of the new orders is the size of the graph.
    exact mem_countedFrom.mpr ⟨le_refl _, by omega⟩
  · rintro (hnone | hlt) x hx old hold
    · have hcounted := mem_countedFrom.mp hx
      omega
    · exact lt_of_lt_of_le (hlt old hold) (mem_countedFrom.mp hx).1

/-- **Orders stay distinct** exactly if none of them is about to be counted. -/
theorem GoesOn.nodup_order_iff :
    (after.fields.map Field.order).Nodup ↔ (g.fields.map Field.order).Nodup ∧
      ∀ old ∈ g.fields, old.order < g.size ∨ (g.size : Int) + gained.length ≤ old.order := by
  rw [h.map_order, List.nodup_append', List.disjoint_left, List.forall_mem_map]
  simp only [nodup_countedFrom, true_and, mem_countedFrom, not_and_or, not_le, not_lt]

/-- **Display order shows the new fields last**, as they were added, where the orders of the others
lie below the size of the graph. -/
theorem GoesOn.sorted (hlt : ∀ old ∈ g.fields, old.order < g.size) :
    ∃ earlier, earlier.Perm (after.fields.take g.size) ∧
      after.sorted.fields = earlier ++ after.fields.drop g.size := by
  have hfront : ∀ f ∈ after.fields.take g.size, f.order < g.size := by
    rw [← List.forall_mem_map (f := Field.order) (P := fun x => x < (g.size : Int)),
      h.map_order_front, List.forall_mem_map]
    exact hlt
  have hback : ∀ f ∈ after.fields.drop g.size, (g.size : Int) ≤ f.order := by
    rw [← List.forall_mem_map (f := Field.order) (P := fun x => (g.size : Int) ≤ x), h.order]
    exact fun x hx => (mem_countedFrom.mp hx).1
  have hcounted : (after.fields.drop g.size).Pairwise fun f f' => f.order < f'.order := by
    rw [← List.pairwise_map, h.order]
    exact pairwise_countedFrom _ _
  -- Orders come first in display order: the parts are sorted for themselves, and the second is.
  refine ⟨(after.fields.take g.size).mergeSort after.showsBefore, List.mergeSort_perm _ _, ?_⟩
  calc after.sorted.fields
      = (after.fields.take g.size ++ after.fields.drop g.size).mergeSort after.showsBefore := by
        rw [fields_sorted, List.take_append_drop]
    _ = (after.fields.take g.size).mergeSort after.showsBefore ++
          (after.fields.drop g.size).mergeSort after.showsBefore := by
        refine after.showsBefore_sortsBy.mergeSort_append fun f hf f' hf' => ?_
        exact (displayPlaceOf_lt (lt_of_lt_of_le (hfront f hf) (hback f' hf'))).le
    _ = _ := by
        congr 1
        refine List.mergeSort_of_pairwise (hcounted.imp fun {f f'} hlt => ?_)
        exact (after.showsBefore_sortsBy f f').mpr (displayPlaceOf_lt hlt).le

end

/-! ### Runs of imports and removals -/

/-- A removal gives no field another order. -/
theorem exists_order_of_remove {g g' : FieldGraph} {id : String} {f f' : Field}
    (hremove : g.remove id = some (f, g')) (hf' : f' ∈ g'.fields) :
    ∃ old ∈ g.fields, old.order = f'.order := by
  rw [fields_of_remove hremove] at hf'
  obtain ⟨old, hold, rfl⟩ := List.mem_map.mp hf'
  exact ⟨old, List.mem_of_mem_eraseP hold, (order_detach id old).symm⟩

/-- **One import** keeps a bound on the orders that goes along with the size. -/
theorem order_lt_merge {g : FieldGraph} {removed : Nat} (policy : DuplicatePolicy)
    (fresh : Nat → String) (records : List Record)
    (hlt : ∀ f ∈ g.fields, f.order < g.size + removed) :
    ∀ f ∈ (g.merge policy fresh records).graph.fields,
      f.order < (g.merge policy fresh records).graph.size + removed := by
  rcases graph_merge g policy fresh records with hgraph | hgraph <;> rw [hgraph]
  · exact hlt
  · have hgoes := (goesOn_place policy g fresh (keyed records)).1
    rw [hgoes.forall_order_iff (P := fun x => x < (_ : Nat) + (removed : Int)), hgoes.size_eq]
    refine ⟨fun old hold => ?_, fun x hx => ?_⟩
    · -- The size does not get smaller.
      have hbound := hlt old hold
      omega
    · have hcounted := mem_countedFrom.mp hx
      omega

/-- **No order exceeds the size of the graph by more than was removed.** -/
theorem Edited.order_lt {removed : Nat} {g : FieldGraph} (h : Edited removed g) :
    ∀ f ∈ g.fields, f.order < g.size + removed := by
  induction h with
  | empty => exact fun _ hf => absurd hf List.not_mem_nil
  | merge _ policy fresh records ih => exact order_lt_merge policy fresh records ih
  | remove _ hremove ih =>
    intro f hf
    obtain ⟨old, hold, horder⟩ := exists_order_of_remove hremove hf
    -- There is one field fewer and one removal more, so the bound is what it was.
    have hsize := size_remove hremove
    have hlt := ih old hold
    omega

/-- **Imports alone** number the fields from zero on. -/
theorem Edited.map_order {g : FieldGraph} (h : Edited 0 g) :
    g.fields.map Field.order = countedFrom 0 g.size := by
  generalize hremoved : 0 = removed at h
  induction h with
  | empty => rfl
  | @merge removed g _ policy fresh records ih =>
    subst hremoved
    rcases graph_merge g policy fresh records with hgraph | hgraph <;> rw [hgraph]
    · exact ih rfl
    · -- The size is where counting stopped.
      have hgoes := (goesOn_place policy g fresh (keyed records)).1
      rw [hgoes.map_order, ih rfl, hgoes.size_eq, ← countedFrom_append, Nat.zero_add]
  | remove _ _ _ => exact absurd hremoved (Nat.succ_ne_zero _).symm

/-- **Where imported fields go.** In a graph made by imports and removals no order exceeds the size
by more than was removed. A further import under any policy that succeeds leaves the fields there
were in front, and adds one for each record that is not folded into one of these, in the order of
the records, with the orders counted from the size on.

These are above all orders there were if and only if nothing is added or the others lie below the
size, and distinct orders stay distinct if and only if none of them is one that is counted. Where
the orders lie below the size, display order shows the new fields last, as they were added. So they
do as long as nothing was removed, and then the orders are the numbers from zero on. -/
theorem Edited.orders_of_merge {removed : Nat} {g : FieldGraph} (h : Edited removed g)
    {policy : DuplicatePolicy} {fresh : Nat → String} {records : List Record} {s : ImportSummary}
    (hs : (g.merge policy fresh records).summary = .ok s) :
    let after := (g.merge policy fresh records).graph
    (∀ old ∈ g.fields, old.order < g.size + removed) ∧
      g.GoesOn after (gains policy g fresh (keyed records)) ∧
      s.added = (gains policy g fresh (keyed records)).length ∧
      ((∀ f ∈ after.fields.drop g.size, ∀ old ∈ g.fields, old.order < f.order) ↔
        s.added = 0 ∨ ∀ old ∈ g.fields, old.order < g.size) ∧
      ((after.fields.map Field.order).Nodup ↔ (g.fields.map Field.order).Nodup ∧
        ∀ old ∈ g.fields, old.order < g.size ∨ (g.size : Int) + s.added ≤ old.order) ∧
      ((∀ old ∈ g.fields, old.order < g.size) →
        ∃ earlier, earlier.Perm (after.fields.take g.size) ∧
          after.sorted.fields = earlier ++ after.fields.drop g.size) ∧
      (removed = 0 → (∀ old ∈ g.fields, old.order < g.size) ∧
        after.fields.map Field.order = countedFrom 0 after.size) := by
  intro after
  obtain ⟨hgoes, hadded⟩ := goesOn_merge hs
  refine ⟨h.order_lt, hgoes, hadded, hadded ▸ hgoes.order_lt_iff, hadded ▸ hgoes.nodup_order_iff,
    hgoes.sorted, ?_⟩
  rintro rfl
  refine ⟨fun old hold => ?_, (h.merge policy fresh records).map_order⟩
  have hlt := h.order_lt old hold
  omega

/-- Of three fields the last one is removed, so the orders of the others still lie below the size.
The next import overwrites one of them and goes on with two. -/
theorem orders_of_merge_after_last_removed :
    let imported := (merge ⟨[]⟩ .coexist (["a", "b", "c"].getD · "")
      [Record.ofKey "order", Record.ofKey "sku", Record.ofKey "qty"]).graph
    let g : FieldGraph := ⟨[{ id := "a", key := "order", order := 0 },
      { id := "b", key := "sku", order := 1 }]⟩
    let records : List Record := [
      { key := some "line" },
      { key := some "sku", parentKey := some "line" },
      { batchRef := some "keyless" },
      { key := some "note" }]
    let result := g.merge .overwrite (["d", "e", "f"].getD · "") records
    (∃ f, imported.remove "c" = some (f, g)) ∧ result.summary = .ok ⟨2, 1, 1, []⟩ ∧
      g.GoesOn result.graph [("d", "line"), ("f", "note")] ∧
      (∀ f ∈ result.graph.fields.drop g.size, ∀ old ∈ g.fields, old.order < f.order) ∧
      (result.graph.fields.map Field.order).Nodup ∧
      ∃ earlier, earlier.Perm (result.graph.fields.take g.size) ∧
        result.graph.sorted.fields = earlier ++ result.graph.fields.drop g.size := by
  intro imported g records result
  have hremove : imported.remove "c" = some ({ id := "c", key := "qty", order := 2 }, g) := by
    decide +kernel
  have hedited : Edited 1 g := (Edited.empty.merge .coexist _ _).remove hremove
  have hsummary : result.summary = .ok ⟨2, 1, 1, []⟩ :=
    (congrArg MergeResult.summary (g.merge_overwrite_eq _ records)).trans
      (congrArg Except.ok (by decide +kernel))
  have hlt : ∀ old ∈ g.fields, old.order < g.size := by decide
  obtain ⟨-, hgoes, -, habove, hdistinct, hlast, -⟩ := hedited.orders_of_merge hsummary
  exact ⟨⟨_, hremove⟩, hsummary, hgoes, habove.mpr (.inr hlt),
    hdistinct.mpr ⟨by decide, fun old hold => .inl (hlt old hold)⟩, hlast hlt⟩

/-- After the removal of a field that is not the last one, the next import counts an order that is
in use: the new field has the order of the one there was, and is shown before it. -/
theorem order_repeats_after_removal :
    let imported := (merge ⟨[]⟩ .coexist (["a", "b"].getD · "")
      [Record.ofKey "invoice_no", Record.ofKey "total"]).graph
    let g : FieldGraph := ⟨[{ id := "b", key := "total", order := 1 }]⟩
    let after : FieldGraph := ⟨[{ id := "b", key := "total", order := 1 },
      { id := "c", key := "buyer", order := 1 }]⟩
    let result := g.merge .coexist (["c"].getD · "") [Record.ofKey "buyer"]
    (∃ f, imported.remove "a" = some (f, g)) ∧ Edited 1 g ∧
      result.summary = .ok ⟨1, 0, 0, []⟩ ∧ result.graph = after ∧
      ¬(∀ f ∈ after.fields.drop g.size, ∀ old ∈ g.fields, old.order < f.order) ∧
      ¬(after.fields.map Field.order).Nodup ∧
      after.sorted.fields.map Field.key = ["buyer", "total"] := by
  intro imported g after result
  have hremove : imported.remove "a" = some ({ id := "a", key := "invoice_no" }, g) := by
    decide +kernel
  have hedited : Edited 1 g := (Edited.empty.merge .coexist _ _).remove hremove
  have hmerge : result = _ := g.merge_coexist _ _
  -- The two fields stand in display order the other way round.
  have hsorted : after.sorted.fields = after.fields.reverse :=
    fields_sorted_eq (List.reverse_perm _).symm (by decide) (by decide)
  refine ⟨⟨_, hremove⟩, hedited, ?_, ?_, by decide, by decide, by rw [hsorted]; rfl⟩
  · exact (congrArg MergeResult.summary hmerge).trans (congrArg Except.ok (by decide +kernel))
  · exact (congrArg MergeResult.graph hmerge).trans (by decide +kernel)

end FieldGraph

end ExtractionContract
