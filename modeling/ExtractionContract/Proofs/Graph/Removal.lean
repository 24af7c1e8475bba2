import ExtractionContract.Proofs.Graph.Chain
import ExtractionContract.Proofs.Graph.Cycles
import ExtractionContract.Proofs.Graph.Evolution

/-!
# Removing a field

Where identifiers are distinct, a removal takes away the one field with the identifier and the
links of its children, and leaves everything else as it is, in the order in which it stands. What
it does to the chains of parents follows from what it does to one hop: in the graph that is left a
field has the owner that it had, unless this is the field taken away (`owner?_of_remove`).

* A chain that reaches the field taken away now ends one hop before it
  (`ReachesAfter.endsAfter_of_remove`). This is a matter of the first time that it gets there: on a
  cycle it would come back again and again.
* Any other chain has the hops that it had (`above_of_remove`), so it ends where it ended, or goes
  on forever.
* The cycles left are those that the field taken away was not on
  (`transGen_hangs_of_remove_iff`).

The bound on walks shrinks with the graph, so the depth of a field on an endless chain is not what
it was. `remove_reroots_children` is the whole of it.
-/

namespace ExtractionContract

open Relation

namespace FieldGraph

/-! ### The first time that a chain reaches a field -/

/-- The chain above a field reaches another after a number of hops, and not before. -/
def ReachesAfter (g : FieldGraph) (f a : Field) (n : Nat) : Prop :=
  g.above n f = some a ∧ ∀ m < n, g.above m f ≠ some a

variable {g g' : FieldGraph} {f a removed : Field} {id : String} {n : Nat}

/-- A chain that reaches a field does so for a first time. -/
theorem exists_reachesAfter (h : g.above n f = some a) : ∃ m, g.ReachesAfter f a m := by
  induction n using Nat.strongRecOn with
  | ind n ih =>
    by_cases hbefore : ∃ m < n, g.above m f = some a
    · obtain ⟨m, hlt, hm⟩ := hbefore
      exact ih m hlt hm
    · push Not at hbefore
      exact ⟨n, h, hbefore⟩

theorem reachesAfter_zero : g.ReachesAfter f a 0 ↔ f = a := by
  constructor
  · rintro ⟨h, -⟩
    exact Option.some.inj h
  · rintro rfl
    exact ⟨rfl, fun m hm => absurd hm (Nat.not_lt_zero m)⟩

/-- A chain that has not yet reached a field goes on above the owner. -/
theorem ReachesAfter.exists_owner (h : g.ReachesAfter f a (n + 1)) :
    ∃ owner, g.owner? f = some owner ∧ g.ReachesAfter owner a n := by
  obtain ⟨hreach, hfirst⟩ := h
  cases howner : g.owner? f with
  | none =>
    rw [above, howner] at hreach
    exact absurd hreach (Option.some_ne_none a).symm
  | some owner =>
    rw [above_succ_of_owner howner] at hreach
    refine ⟨owner, rfl, hreach, ?_⟩
    intro m hm
    rw [← above_succ_of_owner howner]
    exact hfirst (m + 1) (Nat.succ_lt_succ hm)

/-! ### The fields that are left -/

theorem remove_eq_none (h : g.get? id = none) : g.remove id = none := by
  rw [remove, h, Option.map_none]

theorem get?_of_remove_eq_some (h : g.remove id = some (removed, g')) :
    g.get? id = some removed := by
  obtain ⟨f, hget, hpair⟩ := Option.map_eq_some_iff.mp h
  rw [hget, (Prod.mk.inj hpair).1]

/-- Where identifiers are distinct, the first field with one is the only one. -/
theorem eraseP_id_eq_filter {fs : List Field} (hids : (fs.map Field.id).Nodup) (id : String) :
    (fs.eraseP fun f => f.id == id) = fs.filter fun f => f.id ≠ id := by
  induction fs with
  | nil => rfl
  | cons f rest ih =>
    obtain ⟨hnew, hrest⟩ := List.nodup_cons.mp hids
    by_cases hid : f.id = id
    · -- No other field has the identifier, so the filter keeps all of them.
      have hothers : ∀ a ∈ rest, decide (a.id ≠ id) = true := by
        intro a ha
        apply decide_eq_true
        intro haid
        exact hnew (hid ▸ haid ▸ List.mem_map_of_mem ha)
      rw [List.eraseP_cons_of_pos (by simpa using hid), List.filter_cons_of_neg (by simpa using hid),
        List.filter_eq_self.mpr hothers]
    · rw [List.eraseP_cons_of_neg (by simpa using hid), List.filter_cons_of_pos (by simpa using hid),
        ih hrest]

section

variable (hids : g.ids.Nodup) (hremove : g.remove id = some (removed, g'))

include hids hremove

/-- **What is left**: the other fields, in order, without their links to the one taken away. -/
theorem fields_of_remove_eq_filter :
    g'.fields = (g.fields.filter fun f => f.id ≠ id).map (detach id) := by
  rw [fields_of_remove hremove, eraseP_id_eq_filter hids]

theorem mem_of_remove_iff : a ∈ g'.fields ↔ ∃ f ∈ g.fields, f.id ≠ id ∧ detach id f = a := by
  rw [fields_of_remove_eq_filter hids hremove]
  simp [and_assoc]

/-- The field taken away is told by its identifier. -/
theorem id_ne_iff_of_remove (hf : f ∈ g.fields) : f.id ≠ id ↔ f ≠ removed := by
  obtain ⟨hmem, hid⟩ := (get?_eq_some_iff hids).mp (get?_of_remove_eq_some hremove)
  rw [not_iff_not]
  constructor
  · intro h
    exact List.inj_on_of_nodup_map hids hf hmem (h.trans hid.symm)
  · rintro rfl
    exact hid

/-- **A look-up finds what it found**, unless this is taken away. -/
theorem get?_of_remove (p : String) :
    g'.get? p = ((g.get? p).filter fun f => f.id ≠ id).map (detach id) := by
  refine Option.ext fun a => ?_
  rw [get?_eq_some_iff (nodup_ids_of_remove hids hremove), mem_of_remove_iff hids hremove,
    Option.map_eq_some_iff]
  simp only [Option.filter_eq_some_iff, get?_eq_some_iff hids, decide_eq_true_eq]
  constructor
  · rintro ⟨⟨f, hf, hne, rfl⟩, hid⟩
    exact ⟨f, ⟨⟨hf, (id_detach id f).symm.trans hid⟩, hne⟩, rfl⟩
  · rintro ⟨f, ⟨⟨hf, hid⟩, hne⟩, rfl⟩
    exact ⟨⟨f, hf, hne, rfl⟩, (id_detach id f).trans hid⟩

theorem get?_self_of_remove : g'.get? id = none := by
  have hid : removed.id = id := id_of_get? (get?_of_remove_eq_some hremove)
  rw [get?_of_remove hids hremove, get?_of_remove_eq_some hremove,
    Option.filter_some_neg (by simpa using hid), Option.map_none]

/-! ### Hops and chains -/

/-- **A field has the owner that it had**, unless this is taken away. -/
theorem owner?_of_remove (f : Field) :
    g'.owner? (detach id f) = ((g.owner? f).filter fun a => a.id ≠ id).map (detach id) := by
  rw [owner?, owner?, parent_detach]
  cases f.parent with
  | none => rfl
  | some p =>
    -- What a look-up of the parent finds now is the right side, whether or not the link is kept.
    rw [Option.bind_some, ← get?_of_remove hids hremove]
    by_cases hp : p = id
    · rw [Option.filter_some_neg (by simpa using hp), hp, get?_self_of_remove hids hremove]
      rfl
    · rw [Option.filter_some_pos (by simpa using hp), Option.bind_some]

/-- An owner that is left is the owner that there was. -/
theorem owner?_of_remove_of_ne {owner : Field} (howner : g.owner? f = some owner)
    (hne : owner ≠ removed) : g'.owner? (detach id f) = some (detach id owner) := by
  have hid : owner.id ≠ id := (id_ne_iff_of_remove hids hremove (owner_mem howner)).mpr hne
  rw [owner?_of_remove hids hremove, howner, Option.filter_some_pos (by simpa using hid),
    Option.map_some]

/-- **A chain that reached the field taken away** ends one hop before it. -/
theorem ReachesAfter.endsAfter_of_remove (h : g.ReachesAfter f removed (n + 1)) :
    g'.EndsAfter (detach id f) n := by
  -- By induction on the hops, each of which but the last leads to a field that is left.
  induction n generalizing f with
  | zero =>
    obtain ⟨owner, howner, hreach⟩ := h.exists_owner
    obtain rfl : owner = removed := reachesAfter_zero.mp hreach
    have hid : owner.id = id := id_of_get? (get?_of_remove_eq_some hremove)
    rw [endsAfter_zero, owner?_of_remove hids hremove, howner,
      Option.filter_some_neg (by simpa using hid), Option.map_none]
  | succ n ih =>
    obtain ⟨owner, howner, hreach⟩ := h.exists_owner
    have hne : owner ≠ removed := by
      rintro rfl
      exact hreach.2 0 (Nat.succ_pos n) rfl
    exact endsAfter_succ.mpr
      ⟨detach id owner, owner?_of_remove_of_ne hids hremove howner hne, ih hreach⟩

/-- **A chain that never reaches the field taken away** has the hops that it had. -/
theorem above_of_remove (h : ∀ m, g.above m f ≠ some removed) (n : Nat) :
    g'.above n (detach id f) = (g.above n f).map (detach id) := by
  induction n generalizing f with
  | zero => rfl
  | succ n ih =>
    cases howner : g.owner? f with
    | none =>
      rw [above, above, owner?_of_remove hids hremove, howner]
      rfl
    | some owner =>
      have hne : owner ≠ removed := by
        rintro rfl
        exact h 1 (above_succ_of_owner howner 0)
      have habove : ∀ m, g.above m owner ≠ some removed := by
        intro m
        rw [← above_succ_of_owner howner]
        exact h (m + 1)
      rw [above_succ_of_owner howner,
        above_succ_of_owner (owner?_of_remove_of_ne hids hremove howner hne), ih habove]

theorem EndsAfter.of_remove (h : ∀ m, g.above m f ≠ some removed) (hends : g.EndsAfter f n) :
    g'.EndsAfter (detach id f) n := by
  rw [EndsAfter, above_of_remove hids hremove h, above_of_remove hids hremove h,
    Option.isSome_map, Option.map_eq_none_iff]
  exact hends

theorem Endless.of_remove (h : ∀ m, g.above m f ≠ some removed) (hendless : g.Endless f) :
    g'.Endless (detach id f) := by
  intro n
  rw [above_of_remove hids hremove h, Option.isSome_map]
  exact hendless n

/-! ### Cycles -/

theorem hangs_of_remove_iff {c d : String} :
    g'.Hangs c d ↔ g.Hangs c d ∧ c ≠ id ∧ d ≠ id := by
  rw [hangs_iff, hangs_iff, get?_of_remove hids hremove]
  cases hget : g.get? c with
  | none => simp
  | some f =>
    have hid : f.id = c := id_of_get? hget
    by_cases hc : c = id
    · rw [Option.filter_some_neg (by simpa [hid] using hc)]
      simp [hc]
    · rw [Option.filter_some_pos (by simpa [hid] using hc)]
      simp [hc, parent_detach, Option.filter_eq_some_iff]

/-- **The cycles left** are those that do not lead to the field taken away. -/
theorem transGen_hangs_of_remove_iff {c : String} :
    TransGen g'.Hangs c c ↔ TransGen g.Hangs c c ∧ ¬ReflTransGen g.Hangs c id := by
  have hstep : ∀ a b, g'.Hangs a b → g.Hangs a b :=
    fun a b h => ((hangs_of_remove_iff hids hremove).mp h).1
  constructor
  · intro hcycle
    -- There is one step up from each identifier, so a walk from the cycle stays on it.
    have hstays : ∀ a, ReflTransGen g.Hangs c a → TransGen g'.Hangs a a := by
      intro a hreach
      induction hreach with
      | refl => exact hcycle
      | tail _ hab ih =>
        obtain ⟨d, had, -⟩ := TransGen.head'_iff.mp ih
        rw [Hangs.rightUnique hab (hstep _ _ had)]
        exact transGen_of_reachable Hangs.rightUnique ih (.single had)
    refine ⟨transGen_of_forall hcycle fun a b _ => hstep a b, fun hreach => ?_⟩
    obtain ⟨d, hup, -⟩ := TransGen.head'_iff.mp (hstays id hreach)
    exact ((hangs_of_remove_iff hids hremove).mp hup).2.1 rfl
  · rintro ⟨hcycle, hreach⟩
    refine transGen_of_forall hcycle fun a b hca hab => ?_
    refine (hangs_of_remove_iff hids hremove).mpr ⟨hab, ?_, ?_⟩
    · rintro rfl
      exact hreach hca
    · rintro rfl
      exact hreach (hca.tail hab)

end

/-- **A removal makes roots of the children of the field that it takes away, and nothing else.** If
no field has the identifier, nothing is removed. Otherwise, where identifiers are distinct, the
other fields stay in order and keep everything but a link to the field taken away; no field and no
link has its identifier any more. A field whose chain reached it, for the first time after some
hops, has one hop less above it than these. Any other field has the depth that it had, if its chain
ends; and if the chain is endless, the bound on walks, which is now the size of the graph that is
left. The cycles left are those that did not lead to the field taken away. -/
theorem remove_reroots_children (hids : g.ids.Nodup) (id : String) :
    (g.get? id = none → g.remove id = none ∧ (Change.remove id).apply g = g) ∧
      ∀ removed, g.get? id = some removed →
        ∃ g', g.remove id = some (removed, g') ∧ (Change.remove id).apply g = g' ∧
          g'.fields = (g.fields.filter fun f => f.id ≠ id).map
            (fun f => { f with parent := f.parent.filter (· ≠ id) }) ∧
          (∀ f ∈ g'.fields, f.id ≠ id ∧ f.parent ≠ some id) ∧
          (∀ f ∈ g.fields, f.id ≠ id →
            let left : Field := { f with parent := f.parent.filter (· ≠ id) }
            left ∈ g'.fields ∧
              (∀ k, g.ReachesAfter f removed k → 1 ≤ k ∧ g'.depth left = k - 1) ∧
              ((∀ k, ¬g.ReachesAfter f removed k) →
                (∀ n, g.EndsAfter f n → g'.depth left = g.depth f) ∧
                (g.Endless f → g'.depth left = g'.size))) ∧
          ∀ a, TransGen g'.Hangs a a ↔ TransGen g.Hangs a a ∧ ¬ReflTransGen g.Hangs a id := by
  constructor
  · intro hget
    have hremove : g.remove id = none := remove_eq_none hget
    exact ⟨hremove, by rw [Change.apply, hremove]⟩
  · intro removed hget
    obtain ⟨g', hremove⟩ : ∃ g', g.remove id = some (removed, g') := by
      rw [remove, hget]
      exact ⟨_, rfl⟩
    refine ⟨g', hremove, by rw [Change.apply, hremove], ?_, ?_, ?_, ?_⟩
    · rw [fields_of_remove_eq_filter hids hremove]
      exact List.map_congr_left fun f _ => detach_eq id f
    · intro a ha
      obtain ⟨f, -, hne, rfl⟩ := (mem_of_remove_iff hids hremove).mp ha
      refine ⟨(id_detach id f).trans_ne hne, ?_⟩
      intro hparent
      exact (parent_of_detach hparent).2 rfl
    · intro f hf hne
      rw [← detach_eq]
      intro left
      have hleft : left ∈ g'.fields := (mem_of_remove_iff hids hremove).mpr ⟨f, hf, hne, rfl⟩
      refine ⟨hleft, ?_, ?_⟩
      · intro k hreach
        cases k with
        | zero =>
          -- The field taken away is not among those that are left.
          have hsame : f = removed := reachesAfter_zero.mp hreach
          exact absurd hsame ((id_ne_iff_of_remove hids hremove hf).mp hne)
        | succ n =>
          have hends : g'.EndsAfter left n := hreach.endsAfter_of_remove hids hremove
          exact ⟨Nat.le_add_left 1 n, hends.depth_eq hleft⟩
      · intro hnever
        have habove : ∀ m, g.above m f ≠ some removed := by
          intro m hm
          obtain ⟨k, hk⟩ := exists_reachesAfter hm
          exact hnever k hk
        constructor
        · intro n hends
          rw [(hends.of_remove hids hremove habove).depth_eq hleft, hends.depth_eq hf]
        · intro hendless
          exact (hendless.of_remove hids hremove habove).depth_eq
    · intro a
      exact transGen_hangs_of_remove_iff hids hremove

/-- The middle of a circle of three is taken away, with a field below the circle. A field that is
its own parent and a chain that dangles stay as they are. -/
theorem remove_reroots_children_of_circle :
    let removed : Field := { id := "2", key := "items", parent := some "3" }
    let below : Field := { id := "4", key := "sku", parent := some "1" }
    let lone : Field := { id := "6", key := "unit", parent := some "6" }
    let loose : Field := { id := "8", key := "note", parent := some "5" }
    let g : FieldGraph := ⟨[
      below, { id := "1", key := "line", parent := some "2" }, removed, lone,
      { id := "3", key := "order", parent := some "1" }, loose,
      { id := "5", key := "total", parent := some "0" }]⟩
    g.ids.Nodup ∧ g.get? "9" = none ∧ g.remove "9" = none ∧ g.get? "2" = some removed ∧
      g.fields.map g.depth = [7, 7, 7, 7, 7, 1, 0] ∧
      ∃ g', g.remove "2" = some (removed, g') ∧
        g'.fields.map (fun f => (f.id, f.parent)) =
          [("4", some "1"), ("1", none), ("6", some "6"), ("3", some "1"), ("8", some "5"),
            ("5", some "0")] ∧
        g.ReachesAfter below removed 2 ∧ g'.depth below = 1 ∧
        g.EndsAfter loose 1 ∧ g'.depth loose = 1 ∧
        g.Endless lone ∧ g'.depth lone = 6 ∧
        ¬TransGen g'.Hangs "1" "1" ∧ TransGen g'.Hangs "6" "6" := by
  intro removed below lone loose g
  have hids : g.ids.Nodup := by decide
  have hremoved : g.get? "2" = some removed := by decide
  have hreach : g.ReachesAfter below removed 2 := by unfold ReachesAfter; decide
  have hends : g.EndsAfter loose 1 := by unfold EndsAfter; decide
  have hloose : ∀ k, ¬g.ReachesAfter loose removed k := by
    rintro k ⟨h, -⟩
    match k with
    | 0 => exact absurd h (by decide)
    | 1 => exact absurd h (by decide)
    | k + 2 => exact absurd h (by nofun)
  have hself : ∀ k, g.above k lone = some lone := by
    intro k
    induction k with
    | zero => rfl
    | succ k ih => exact (above_succ_of_owner (by decide) k).trans ih
  have hlone : ∀ k, ¬g.ReachesAfter lone removed k := by
    rintro k ⟨h, -⟩
    rw [hself k] at h
    exact absurd h (by decide)
  have hendless : g.Endless lone := fun k => Option.isSome_of_eq_some (hself k)
  have hunknown := (remove_reroots_children hids "9").1 (by decide)
  obtain ⟨g', hremove, -, hfields, -, hdepths, hcycles⟩ :=
    (remove_reroots_children hids "2").2 removed hremoved
  have hbelow := (hdepths below (by decide) (by decide)).2.1 2 hreach
  have hdangles := ((hdepths loose (by decide) (by decide)).2.2 hloose).1 1 hends
  have hround := ((hdepths lone (by decide) (by decide)).2.2 hlone).2 hendless
  refine ⟨hids, by decide, hunknown.1, hremoved, by decide, g', hremove, ?_, hreach, hbelow.2,
    hends, hdangles.trans (by decide), hendless, hround.trans ?_, ?_, ?_⟩
  · rw [hfields]
    decide
  · rw [size, hfields]
    decide
  · -- The first field of the circle leads to the one that is taken away.
    intro hcycle
    refine ((hcycles "1").mp hcycle).2 (.single ?_)
    exact hangs_iff.mpr (by decide)
  · refine (hcycles "6").mpr ⟨.single (hangs_iff.mpr (by decide)), ?_⟩
    intro hwalk
    have hstays : ∀ a, ReflTransGen g.Hangs "6" a → a = "6" := by
      intro a hwalk
      induction hwalk with
      | refl => rfl
      | tail _ hup ih =>
        rw [ih] at hup
        exact Hangs.rightUnique hup (hangs_iff.mpr (by decide))
    exact absurd (hstays "2" hwalk) (by decide)

end FieldGraph

end ExtractionContract
