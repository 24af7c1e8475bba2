import ExtractionContract.Proofs.Import.Overwrite
import Mathlib.Data.List.Duplicate
import Mathlib.Data.List.Sort
import Mathlib.Data.String.Basic

/-!
# Policies without repeated keys

The three policies run different code, and give the same where no key is repeated. `IsRepeated`
says which keys are: those that a record shares with the graph, or with another record.

* Under `reject` a merge fails exactly if a key is repeated. It names all such keys, each once
  and in ascending order (`mem_repeatedKeys_iff`, `pairwise_repeatedKeys`), and leaves the graph
  as it is. If it does not fail, it does what `coexist` does.
* Under `overwrite` keys that are repeated within the batch do not count: a merge does what
  `coexist` does if the graph has none of them (`foldIn_eq_addAll`).
* Along a run of imports under `reject` distinct keys stay distinct.
-/

namespace ExtractionContract

namespace Merge

/-! ### Repeated keys -/

/-- A record has a key that the graph has too, or two records have it. -/
def IsRepeated (g : FieldGraph) (batch : List Keyed) (key : String) : Prop :=
  (key ∈ batch.map Keyed.key ∧ key ∈ g.fields.map Field.key) ∨
    (batch.map Keyed.key).Duplicate key

/-- **The keys met a second time** are those seen before that come again, and those that come
twice. -/
theorem mem_repeats_iff {key : String} (keys seen : List String) :
    key ∈ repeats seen keys ↔ (key ∈ keys ∧ key ∈ seen) ∨ keys.Duplicate key := by
  induction keys generalizing seen with
  | nil => simp [repeats]
  | cons k rest ih =>
    rw [repeats, List.duplicate_cons_iff, List.mem_cons]
    split
    · -- `k` was seen before, so coming again in the rest makes no difference for it.
      next hk =>
      rw [List.mem_cons, ih]
      constructor
      · rintro (rfl | ⟨hrest, hseen⟩ | hdup)
        · exact .inl ⟨.inl rfl, hk⟩
        · exact .inl ⟨.inr hrest, hseen⟩
        · exact .inr (.inr hdup)
      · rintro (⟨rfl | hrest, hseen⟩ | ⟨rfl, -⟩ | hdup)
        · exact .inl rfl
        · exact .inr (.inl ⟨hrest, hseen⟩)
        · exact .inl rfl
        · exact .inr (.inr hdup)
    · -- `k` is new, so it is met a second time if the rest has it.
      next hk =>
      rw [ih, List.mem_cons]
      constructor
      · rintro (⟨hrest, rfl | hseen⟩ | hdup)
        · exact .inr (.inl ⟨rfl, hrest⟩)
        · exact .inl ⟨.inr hrest, hseen⟩
        · exact .inr (.inr hdup)
      · rintro (⟨rfl | hrest, hseen⟩ | ⟨rfl, hrest⟩ | hdup)
        · exact absurd hseen hk
        · exact .inl ⟨hrest, .inr hseen⟩
        · exact .inl ⟨hrest, .inl rfl⟩
        · exact .inr hdup

theorem nodup_eraseDups : ∀ keys : List String, keys.eraseDups.Nodup
  | [] => List.nodup_nil
  | k :: rest => by
    rw [List.eraseDups_cons, List.nodup_cons, List.mem_eraseDups, List.mem_filter]
    refine ⟨fun ⟨_, hne⟩ => ?_, nodup_eraseDups (rest.filter fun key => !key == k)⟩
    rw [beq_self_eq_true] at hne
    exact Bool.false_ne_true hne
  termination_by keys => keys.length
  decreasing_by exact Nat.lt_succ_of_le (List.length_filter_le _ _)

variable (g : FieldGraph) (batch : List Keyed)

/-- **The keys reported are those that are repeated.** -/
theorem mem_repeatedKeys_iff {key : String} :
    key ∈ repeatedKeys g batch ↔ IsRepeated g batch key := by
  rw [repeatedKeys, List.mem_mergeSort, List.mem_eraseDups, mem_repeats_iff]
  rfl

/-- **They are reported once each**, in ascending order. -/
theorem pairwise_repeatedKeys : (repeatedKeys g batch).Pairwise (· < ·) := by
  have hsorted : (repeatedKeys g batch).Pairwise (· ≤ ·) := List.pairwise_mergeSort' (· ≤ ·) _
  have hnodup : (repeatedKeys g batch).Nodup :=
    (List.mergeSort_perm _ _).nodup_iff.mpr (nodup_eraseDups _)
  exact (hsorted.and hnodup).imp fun h => lt_of_le_of_ne h.1 h.2

variable {g batch}

theorem repeatedKeys_eq_nil_iff :
    repeatedKeys g batch = [] ↔ ∀ key, ¬IsRepeated g batch key := by
  rw [List.eq_nil_iff_forall_not_mem]
  exact forall_congr' fun key => not_congr (mem_repeatedKeys_iff g batch)

/-! ### Folding nothing in -/

theorem renumber_linked (fresh : Nat → String) (base : Nat) (batch : List Keyed) :
    renumber base (linked fresh base batch) = linked fresh base batch := by
  refine List.ext_getElem? ?_
  intro i
  rw [renumber, List.getElem?_mapIdx, linked, List.getElem?_mapIdx, Option.map_map]
  rfl

theorem redirect_nil (f : Field) : redirect [] f = f := by
  have hparent : (f.parent.map fun p => (([] : List (String × String)).lookup p).getD p) =
      f.parent := Option.map_id'
  rw [redirect, hparent]

/-- **Where the graph has none of the keys**, nothing is folded in and all is added. -/
theorem foldIn_eq_addAll (fresh : Nat → String)
    (h : ∀ k ∈ batch, k.key ∉ g.fields.map Field.key) :
    foldIn g (linked fresh g.size batch) = addAll g (linked fresh g.size batch) := by
  have hfree : ∀ f ∈ linked fresh g.size batch, isTaken g f = false := by
    intro f hf
    have hkey := List.mem_map_of_mem (f := Field.key) hf
    rw [map_key_linked] at hkey
    obtain ⟨k, hk, hkey⟩ := List.mem_map.mp hkey
    rw [isTaken, List.any_eq_false]
    intro old hold hsame
    exact h k hk (hkey ▸ beq_iff_eq.mp hsame ▸ List.mem_map_of_mem hold)
  have hfolded : (linked fresh g.size batch).filter (isTaken g) = [] := by
    rw [List.filter_eq_nil_iff]
    intro f hf
    rw [hfree f hf]
    exact Bool.false_ne_true
  have hothers : (linked fresh g.size batch).filter (fun f => !isTaken g f) =
      linked fresh g.size batch := by
    rw [List.filter_eq_self]
    intro f hf
    rw [hfree f hf]
    rfl
  -- Nothing is folded in, so no identifier is redirected and the orders stay as they are.
  have hredirect : redirect [] = id := funext redirect_nil
  unfold foldIn addAll
  simp only [hfolded, hothers]
  change Merged.mk ⟨g.fields.map (redirect []) ++
    renumber g.size ((linked fresh g.size batch).map (redirect []))⟩ _ 0 = _
  rw [hredirect, List.map_id, List.map_id, renumber_linked]
  rfl

end Merge

namespace FieldGraph

open Merge

variable {g : FieldGraph} {fresh : Nat → String} {records : List Record}

/-! ### Merges under `reject` -/

theorem merge_reject_of_exists (fresh : Nat → String)
    (h : ∃ key, IsRepeated g (keyed records) key) :
    g.merge .reject fresh records =
      ⟨.error (.repeatedKeys (repeatedKeys g (keyed records))), g⟩ := by
  have hne : repeatedKeys g (keyed records) ≠ [] := by
    intro hnil
    obtain ⟨key, hkey⟩ := h
    exact repeatedKeys_eq_nil_iff.mp hnil key hkey
  rw [merge_eq, if_pos ⟨rfl, hne⟩]

theorem merge_reject_of_forall_not (fresh : Nat → String)
    (h : ∀ key, ¬IsRepeated g (keyed records) key) :
    g.merge .reject fresh records = g.merge .coexist fresh records := by
  have hnil : repeatedKeys g (keyed records) = [] := repeatedKeys_eq_nil_iff.mpr h
  rw [merge_coexist, merge_eq, if_neg fun hreject => hreject.2 hnil]
  rfl

/-- **A merge under `reject`** is refused for its repeated keys, or it adds all fields. -/
theorem merge_reject_cases (g : FieldGraph) (fresh : Nat → String) (records : List Record) :
    ((∃ key, IsRepeated g (keyed records) key) ∧ g.merge .reject fresh records =
        ⟨.error (.repeatedKeys (repeatedKeys g (keyed records))), g⟩) ∨
      ((∀ key, ¬IsRepeated g (keyed records) key) ∧
        g.merge .reject fresh records = g.merge .coexist fresh records) := by
  by_cases h : ∃ key, IsRepeated g (keyed records) key
  · exact .inl ⟨h, merge_reject_of_exists fresh h⟩
  · rw [not_exists] at h
    exact .inr ⟨h, merge_reject_of_forall_not fresh h⟩

/-- **One import under `reject`** keeps distinct keys distinct. -/
theorem nodup_keys_merge_reject (fresh : Nat → String) (records : List Record)
    (hkeys : (g.fields.map Field.key).Nodup) :
    ((g.merge .reject fresh records).graph.fields.map Field.key).Nodup := by
  rcases merge_reject_cases g fresh records with ⟨-, hrefused⟩ | ⟨hnone, hpasses⟩
  · rw [hrefused]
    exact hkeys
  · rw [hpasses, merge_coexist]
    change ((g.fields ++ linked fresh g.size (keyed records)).map Field.key).Nodup
    rw [List.map_append, map_key_linked, List.nodup_append]
    refine ⟨hkeys, ?_, ?_⟩
    · by_contra hdup
      obtain ⟨key, hkey⟩ := List.exists_duplicate_iff_not_nodup.mpr hdup
      exact hnone key (.inr hkey)
    · rintro key hold _ hnew rfl
      exact hnone key (.inl ⟨hnew, hold⟩)

/-- The graph after a run of imports under one policy, each with its own supply of
identifiers. -/
def mergeAll (g : FieldGraph) (policy : DuplicatePolicy)
    (imports : List ((Nat → String) × List Record)) : FieldGraph :=
  imports.foldl (fun g i => (g.merge policy i.1 i.2).graph) g

/-- **A run of imports under `reject`** keeps distinct keys distinct. -/
theorem nodup_keys_mergeAll_reject (hkeys : (g.fields.map Field.key).Nodup)
    (imports : List ((Nat → String) × List Record)) :
    ((g.mergeAll .reject imports).fields.map Field.key).Nodup := by
  induction imports generalizing g with
  | nil => exact hkeys
  | cons i rest ih =>
    have hstep := nodup_keys_merge_reject i.1 i.2 hkeys
    exact ih hstep

/-- **Overwriting what is not there** is adding it. -/
theorem merge_overwrite_of_forall_notMem (fresh : Nat → String)
    (h : ∀ k ∈ keyed records, k.key ∉ g.fields.map Field.key) :
    g.merge .overwrite fresh records = g.merge .coexist fresh records := by
  rw [merge_coexist, g.merge_of_ne_reject fun hreject => DuplicatePolicy.noConfusion hreject]
  change MergeResult.mk (.ok ⟨(foldIn g _).added, (foldIn g _).overwritten, _, _⟩)
    (foldIn g _).graph = _
  rw [foldIn_eq_addAll fresh h]
  rfl

/-- **Policies differ on repeated keys only.** Under `reject` an import fails exactly if a key is
repeated, naming these keys in ascending order and leaving the graph as it is; otherwise it
gives what it gives under `coexist`. Under `overwrite` it gives the same as well if the graph has
none of the keys. So keys that are distinct stay so along any run of imports under `reject`. -/
theorem policies_differ_on_repeated_keys (g : FieldGraph) (fresh : Nat → String)
    (records : List Record) :
    let batch := keyed records
    let rejecting := g.merge .reject fresh records
    let coexisting := g.merge .coexist fresh records
    ((∃ e, rejecting.summary = .error e) ↔ ∃ key, IsRepeated g batch key) ∧
      (∀ e, rejecting.summary = .error e → rejecting.graph = g ∧
        ∃ keys, e = .repeatedKeys keys ∧ keys.Pairwise (· < ·) ∧
          ∀ key, key ∈ keys ↔ IsRepeated g batch key) ∧
      (∀ s, rejecting.summary = .ok s → rejecting = coexisting) ∧
      ((∀ k ∈ batch, k.key ∉ g.fields.map Field.key) →
        g.merge .overwrite fresh records = coexisting) ∧
      ∀ imports, (g.fields.map Field.key).Nodup →
        ((g.mergeAll .reject imports).fields.map Field.key).Nodup := by
  intro batch rejecting coexisting
  have hadds : ∀ e, coexisting.summary ≠ .error e := by
    intro e he
    have hsummary := congrArg MergeResult.summary (g.merge_coexist fresh records)
    exact absurd (hsummary.symm.trans he) nofun
  refine ⟨?_, ?_, ?_, merge_overwrite_of_forall_notMem fresh,
    fun imports hkeys => nodup_keys_mergeAll_reject hkeys imports⟩
  all_goals
    rcases merge_reject_cases g fresh records with ⟨hsome, hrefused⟩ | ⟨hnone, hpasses⟩
  · exact iff_of_true ⟨_, congrArg MergeResult.summary hrefused⟩ hsome
  · refine iff_of_false ?_ (not_exists.mpr hnone)
    rintro ⟨e, he⟩
    exact hadds e ((congrArg MergeResult.summary hpasses).symm.trans he)
  · intro e he
    have herror : Except.error (.repeatedKeys (repeatedKeys g batch)) = Except.error e :=
      (congrArg MergeResult.summary hrefused).symm.trans he
    refine ⟨congrArg MergeResult.graph hrefused, repeatedKeys g batch,
      (Except.error.inj herror).symm, pairwise_repeatedKeys g batch, ?_⟩
    exact fun key => mem_repeatedKeys_iff g batch
  · intro e he
    exact absurd ((congrArg MergeResult.summary hpasses).symm.trans he) (hadds e)
  · intro s hs
    exact absurd ((congrArg MergeResult.summary hrefused).symm.trans hs) nofun
  · exact fun _ _ => hpasses

/-- A batch that has a key of the graph, one key twice and one record without a key; and one
that only has a key twice. -/
theorem policies_differ_on_repeated_keys_of_two_kinds :
    let g : FieldGraph := ⟨[{ id := "1", key := "order" }]⟩
    let records : List Record := [
      { key := some "sku" },
      { key := some "order" },
      { batchRef := some "qty" },
      { key := some "qty" },
      { key := some "sku" }]
    let doubled : List Record := [
      { key := some "sku", parentKey := some "qty" },
      { key := some "qty" },
      { key := some "sku" }]
    let fresh := (["a", "b", "c", "d"].getD · "")
    (g.merge .reject fresh records).summary = .error (.repeatedKeys ["order", "sku"]) ∧
      (g.merge .reject fresh records).graph = g ∧
      g.merge .overwrite fresh doubled = g.merge .coexist fresh doubled ∧
      (g.merge .overwrite fresh doubled).graph.fields.map (fun f => (f.id, f.key, f.parent)) =
        [("1", "order", none), ("a", "sku", some "b"), ("b", "qty", none), ("c", "sku", none)] ∧
      ((g.mergeAll .reject [(fresh, records), (fresh, doubled)]).fields.map Field.key).Nodup := by
  intro g records doubled fresh
  obtain ⟨hfails, herror, -, -, hrun⟩ := g.policies_differ_on_repeated_keys fresh records
  obtain ⟨-, -, -, hoverwrite, -⟩ := g.policies_differ_on_repeated_keys fresh doubled
  obtain ⟨e, he⟩ := hfails.mpr ⟨"order", .inl (by decide)⟩
  obtain ⟨hgraph, keys, rfl, hsorted, hkeys⟩ := herror e he
  have hexpected : ["order", "sku"].Pairwise (· < ·) := by decide
  have hrepeats : repeats ["order"] ["sku", "order", "qty", "sku"] = ["order", "sku"] := by decide
  -- Two lists in ascending order with the same members are the same list.
  obtain rfl : keys = ["order", "sku"] := by
    refine hsorted.eq_of_mem_iff hexpected fun key => ?_
    calc key ∈ keys ↔ IsRepeated g (keyed records) key := hkeys key
      _ ↔ key ∈ repeats ["order"] ["sku", "order", "qty", "sku"] := (mem_repeats_iff _ _).symm
      _ ↔ key ∈ ["order", "sku"] := by rw [hrepeats]
  exact ⟨he, hgraph, hoverwrite (by decide), by decide +kernel, hrun _ (by decide)⟩

end FieldGraph

end ExtractionContract
