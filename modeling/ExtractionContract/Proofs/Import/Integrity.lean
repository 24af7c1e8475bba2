import ExtractionContract.Proofs.Import.Batch

/-!
# Merging keeps links intact

A merge under any policy, whether or not it succeeds, makes a linked graph out of a linked
graph. Where fields are only added this is because a batch links its fields among themselves.

Under `overwrite` some fields of the batch are folded into fields of the graph and their
identifiers disappear. Every reference to one of these is redirected: `redirected_mem` says
that a name of a field of the graph or of the batch, redirected, is the name of a field of the
graph or of one that is left over. It applies to all parents at once, because each parent after
the folding is one of before or one of the batch (`parent_foldl_overwriteFirst`).
-/

namespace ExtractionContract

namespace Merge

/-! ### Overwriting -/

section

variable {α : Type} {φ : Field → α} (hφ : ∀ old new, φ (overwriteField old new) = φ old)

include hφ

/-- What a field keeps when it is overwritten is the same after overwriting. -/
theorem map_overwriteFirst (new : Field) (fs : List Field) :
    (overwriteFirst new fs).map φ = fs.map φ := by
  induction fs with
  | nil => rfl
  | cons f rest ih =>
    rw [overwriteFirst]
    split
    · rw [List.map_cons, hφ, List.map_cons]
    · rw [List.map_cons, ih, List.map_cons]

theorem map_foldl_overwriteFirst (folded fs : List Field) :
    (folded.foldl (fun fs f => overwriteFirst f fs) fs).map φ = fs.map φ := by
  induction folded generalizing fs with
  | nil => rfl
  | cons f rest ih => rw [List.foldl_cons, ih, map_overwriteFirst hφ]

end

/-- A field that is overwritten takes the parent of the other, or keeps its own. -/
theorem parent_overwriteField (old new : Field) :
    (overwriteField old new).parent = new.parent ∨
      (overwriteField old new).parent = old.parent := by
  change new.parent.or old.parent = _ ∨ new.parent.or old.parent = _
  cases new.parent with
  | none => exact .inr (Option.none_or)
  | some p => exact .inl (Option.some_or)

variable {P : Option String → Prop}

theorem parent_overwriteFirst {new : Field} (hnew : P new.parent) {fs : List Field}
    (h : ∀ f ∈ fs, P f.parent) : ∀ f ∈ overwriteFirst new fs, P f.parent := by
  induction fs with
  | nil => exact h
  | cons f rest ih =>
    rw [overwriteFirst]
    rw [List.forall_mem_cons] at h
    split
    · rw [List.forall_mem_cons]
      refine ⟨?_, h.2⟩
      rcases parent_overwriteField f new with e | e <;> rw [e]
      · exact hnew
      · exact h.1
    · exact List.forall_mem_cons.mpr ⟨h.1, ih h.2⟩

/-- What holds of all parents of a graph and of the fields folded into it holds of all parents
after the folding. -/
theorem parent_foldl_overwriteFirst {folded : List Field} (hfolded : ∀ f ∈ folded, P f.parent)
    {fs : List Field} (h : ∀ f ∈ fs, P f.parent) :
    ∀ f ∈ folded.foldl (fun fs f => overwriteFirst f fs) fs, P f.parent := by
  induction folded generalizing fs with
  | nil => exact h
  | cons f rest ih =>
    rw [List.forall_mem_cons] at hfolded
    exact ih hfolded.2 (parent_overwriteFirst hfolded.1 h)

/-! ### Redirection -/

theorem map_id_map_redirect (names : List (String × String)) (fs : List Field) :
    (fs.map (redirect names)).map Field.id = fs.map Field.id := by
  rw [List.map_map]
  rfl

/-- What does not depend on orders is the same after renumbering. -/
theorem map_renumber {α : Type} {φ : Field → α} (hφ : ∀ f order, φ { f with order } = φ f)
    (base : Nat) (fs : List Field) : (renumber base fs).map φ = fs.map φ := by
  rw [renumber, List.mapIdx_eq_zipIdx_map, List.map_map]
  have hcomp : φ ∘ (fun x : Field × Nat => { x.1 with order := (base : Int) + x.2 }) =
      φ ∘ Prod.fst := funext fun _ => hφ _ _
  change fs.zipIdx.map (φ ∘ fun x : Field × Nat => { x.1 with order := (base : Int) + x.2 }) = _
  rw [hcomp, ← List.map_map, List.zipIdx_map_fst]

theorem map_id_renumber (base : Nat) (fs : List Field) :
    (renumber base fs).map Field.id = fs.map Field.id :=
  map_renumber (fun _ _ => rfl) base fs

/-- Renumbering changes nothing but orders. -/
theorem exists_of_mem_renumber {base : Nat} {fs : List Field} {f : Field}
    (hf : f ∈ renumber base fs) : ∃ f' ∈ fs, ∃ order, f = { f' with order } := by
  obtain ⟨place, hplace, rfl⟩ := List.mem_mapIdx.mp hf
  exact ⟨fs[place], List.getElem_mem hplace, _, rfl⟩

theorem isTaken_iff {g : FieldGraph} {f : Field} :
    isTaken g f ↔ ∃ target, g.fields.find? (fun h => h.key == f.key) = some target := by
  rw [isTaken, List.any_eq_true, ← Option.isSome_iff_exists, List.find?_isSome]

theorem mem_redirects {g : FieldGraph} {folded : List Field} {p q : String} :
    (p, q) ∈ redirects g folded ↔
      ∃ f ∈ folded, ∃ target, g.fields.find? (fun h => h.key == f.key) = some target ∧
        f.id = p ∧ target.id = q := by
  rw [redirects, List.mem_filterMap]
  simp only [Option.map_eq_some_iff, Prod.mk.injEq]

/-- The identifiers after a folding: those of the graph and those left over. -/
theorem ids_foldIn (g : FieldGraph) (fields : List Field) :
    (foldIn g fields).graph.ids =
      g.ids ++ (fields.filter fun f => !isTaken g f).map Field.id := by
  change (List.map Field.id (_ ++ _)) = _
  rw [List.map_append, map_id_renumber, map_id_map_redirect, map_id_map_redirect,
    map_foldl_overwriteFirst fun _ _ => rfl]
  rfl

/-- **A redirected name is the name of a field that is there after the folding.** -/
theorem redirected_mem {g : FieldGraph} {fields : List Field} {p : String}
    (hp : p ∈ g.ids ∨ p ∈ fields.map Field.id) :
    ((redirects g (fields.filter (isTaken g))).lookup p).getD p ∈
      (foldIn g fields).graph.ids := by
  rw [ids_foldIn, List.mem_append]
  cases hlookup : (redirects g (fields.filter (isTaken g))).lookup p with
  | some q =>
    -- The new name is that of the field of the graph that was overwritten.
    obtain ⟨front, back, hnames, -⟩ := List.lookup_eq_some_iff.mp hlookup
    have hmem : (p, q) ∈ redirects g (fields.filter (isTaken g)) :=
      hnames ▸ List.mem_append_right front List.mem_cons_self
    obtain ⟨f, -, target, htarget, -, rfl⟩ := mem_redirects.mp hmem
    exact .inl (List.mem_map_of_mem (List.mem_of_find?_eq_some htarget))
  | none =>
    rw [Option.getD_none]
    refine hp.imp_right fun hbatch => ?_
    obtain ⟨f, hf, rfl⟩ := List.mem_map.mp hbatch
    refine List.mem_map_of_mem (List.mem_filter.mpr ⟨hf, ?_⟩)
    -- Were the key taken, the identifier would have been redirected.
    by_contra htaken
    rw [Bool.not_eq_true, Bool.not_eq_false'] at htaken
    obtain ⟨target, htarget⟩ := isTaken_iff.mp htaken
    have hmem : (f.id, target.id) ∈ redirects g (fields.filter (isTaken g)) :=
      mem_redirects.mpr ⟨f, List.mem_filter.mpr ⟨hf, htaken⟩, target, htarget, rfl, rfl⟩
    have hne := List.lookup_eq_none_iff.mp hlookup _ hmem
    exact absurd rfl (bne_iff_ne.mp hne)

/-! ### The graph after a merge -/

/-- The parent of a redirected field is the redirected parent. -/
theorem parent_redirect {names : List (String × String)} {f : Field} {p : String}
    (h : (redirect names f).parent = some p) :
    ∃ q, f.parent = some q ∧ (names.lookup q).getD q = p :=
  Option.map_eq_some_iff.mp h

variable {g : FieldGraph} {fields : List Field} (hg : g.Linked)
  (hbatch : ∀ f ∈ fields, ∀ p, f.parent = some p → p ∈ fields.map Field.id)
  (hnew : (g.ids ++ fields.map Field.id).Nodup)

include hg hbatch hnew

/-- Adding fields that are linked among themselves. -/
theorem linked_addAll : (addAll g fields).graph.Linked := by
  have hids : (addAll g fields).graph.ids = g.ids ++ fields.map Field.id :=
    List.map_append
  refine ⟨hids ▸ hnew, ?_⟩
  intro f hf p hp
  rw [hids, List.mem_append]
  rcases List.mem_append.mp hf with hf | hf
  · exact .inl (hg.parent_mem f hf p hp)
  · exact .inr (hbatch f hf p hp)

/-- **Folding fields that are linked among themselves** into a graph. -/
theorem linked_foldIn : (foldIn g fields).graph.Linked := by
  refine ⟨?_, ?_⟩
  · rw [ids_foldIn]
    exact ((List.filter_sublist.map Field.id).append_left g.ids).nodup hnew
  · intro f hf p hp
    -- Every parent is that of a field of the graph or of the batch, redirected.
    have hsource : ∃ q, (q ∈ g.ids ∨ q ∈ fields.map Field.id) ∧
        ((redirects g (fields.filter (isTaken g))).lookup q).getD q = p := by
      rcases List.mem_append.mp hf with hf | hf
      · obtain ⟨f', hf', rfl⟩ := List.mem_map.mp hf
        obtain ⟨q, hq, hqp⟩ := parent_redirect hp
        refine ⟨q, ?_, hqp⟩
        refine parent_foldl_overwriteFirst
          (P := fun o => ∀ q, o = some q → q ∈ g.ids ∨ q ∈ fields.map Field.id)
          ?_ ?_ f' hf' q hq
        · exact fun f hf q hq => .inr (hbatch f (List.mem_of_mem_filter hf) q hq)
        · exact fun f hf q hq => .inl (hg.parent_mem f hf q hq)
      · obtain ⟨_, hmem, order, rfl⟩ := exists_of_mem_renumber hf
        obtain ⟨f', hf', rfl⟩ := List.mem_map.mp hmem
        obtain ⟨q, hq, hqp⟩ := parent_redirect (f := f') hp
        exact ⟨q, .inr (hbatch f' (List.mem_of_mem_filter hf') q hq), hqp⟩
    obtain ⟨q, hq, rfl⟩ := hsource
    exact redirected_mem hq

end Merge

namespace FieldGraph

open Merge

/-- A merge leaves the graph as it is, or puts the fields of the batch into it. -/
theorem graph_merge (g : FieldGraph) (policy : DuplicatePolicy) (fresh : Nat → String)
    (records : List Record) :
    (g.merge policy fresh records).graph = g ∨
      (g.merge policy fresh records).graph =
        (place policy g (linked fresh g.size (keyed records))).graph := by
  by_cases h : policy = .reject ∧ repeatedKeys g (keyed records) ≠ []
  · exact .inl (congrArg MergeResult.graph (if_pos h))
  · exact .inr (congrArg MergeResult.graph (if_neg h))

/-- **A merge keeps a graph linked**, under every policy and whether or not it succeeds. -/
theorem Linked.merge {g : FieldGraph} (hg : g.Linked) (policy : DuplicatePolicy)
    {fresh : Nat → String} {records : List Record}
    (hfresh : g.Supplied fresh (keyed records).length) :
    (g.merge policy fresh records).graph.Linked := by
  have hnew : (g.ids ++ (linked fresh g.size (keyed records)).map Field.id).Nodup := by
    rw [map_id_linked]
    refine List.nodup_append.mpr ⟨hg.nodup_ids, hfresh.nodup, ?_⟩
    -- An identifier drawn is not in use in the graph.
    intro id hid id' hid'
    obtain ⟨i, hi, rfl⟩ := List.mem_map.mp hid'
    exact fun e => hfresh.notMem_ids (List.mem_range.mp hi) (e ▸ hid)
  rcases graph_merge g policy fresh records with h | h <;> rw [h]
  · exact hg
  · -- Only `overwrite` folds fields; the others add all of them.
    cases policy with
    | overwrite => exact linked_foldIn hg (fun f hf p => parent_mem_linked hf) hnew
    | reject => exact linked_addAll hg (fun f hf p => parent_mem_linked hf) hnew
    | coexist => exact linked_addAll hg (fun f hf p => parent_mem_linked hf) hnew

end FieldGraph

end ExtractionContract
