import ExtractionContract.Graph.Depth
import Mathlib.Data.List.Perm.Subperm

/-!
# Chains of parents

Above a field stands its owner, the first field with the identifier that it names as its parent;
above this one stands the next, and so on. The chain *ends* at a field without an owner: a root,
or a field whose parent does not exist. Identifiers may repeat, and a chain that does not end need
not come back to the field that it began at.

A walk up is cut off after as many hops as there are fields, and this cuts off no chain that ends.
The fields of such a chain differ in how far they are from its end, so none stands on it twice
(`EndsAfter.exists_trail`), and it has fewer hops than the graph has fields
(`EndsAfter.lt_size`). Hence the walk counts every chain that ends in full, and reports a chain
exactly if it is endless (`depthLogged_exact`).
-/

namespace ExtractionContract

namespace FieldGraph

/-! ### Chains -/

/-- The first field with the identifier that a field names as its parent. -/
def owner? (g : FieldGraph) (f : Field) : Option Field :=
  f.parent.bind g.get?

/-- The field that the chain above a field reaches after a number of hops. -/
def above (g : FieldGraph) : Nat → Field → Option Field
  | 0, f => some f
  | n + 1, f => (g.owner? f).bind (g.above n)

/-- The chain above a field has a number of hops, and no more. -/
def EndsAfter (g : FieldGraph) (f : Field) (n : Nat) : Prop :=
  (g.above n f).isSome ∧ g.above (n + 1) f = none

/-- The chain above a field goes on after any number of hops. -/
def Endless (g : FieldGraph) (f : Field) : Prop :=
  ∀ n, (g.above n f).isSome

variable {g : FieldGraph} {f owner : Field} {m n : Nat}

theorem owner?_eq_none (h : f.parent = none) : g.owner? f = none := by
  rw [owner?, h, Option.bind_none]

theorem above_succ_of_owner (h : g.owner? f = some owner) (n : Nat) :
    g.above (n + 1) f = g.above n owner := by
  rw [above, h, Option.bind_some]

theorem owner_mem (h : g.owner? f = some owner) : owner ∈ g.fields := by
  obtain ⟨id, -, hget⟩ := Option.bind_eq_some_iff.mp h
  exact List.mem_of_find?_eq_some hget

theorem endsAfter_zero : g.EndsAfter f 0 ↔ g.owner? f = none := by
  rw [EndsAfter, above, above]
  cases g.owner? f with
  | none => simp
  | some owner => simp [above]

/-- A chain with a hop goes on above the owner. -/
theorem endsAfter_succ :
    g.EndsAfter f (n + 1) ↔ ∃ owner, g.owner? f = some owner ∧ g.EndsAfter owner n := by
  constructor
  · rintro ⟨hsome, hnone⟩
    cases howner : g.owner? f with
    | none =>
      rw [above, howner] at hsome
      exact absurd hsome Bool.false_ne_true
    | some owner =>
      rw [above_succ_of_owner howner] at hsome hnone
      exact ⟨owner, rfl, hsome, hnone⟩
  · rintro ⟨owner, howner, hsome, hnone⟩
    rw [EndsAfter, above_succ_of_owner howner, above_succ_of_owner howner]
    exact ⟨hsome, hnone⟩

/-- An endless chain has a hop, and is endless above the owner. -/
theorem Endless.exists_owner (h : g.Endless f) :
    ∃ owner, g.owner? f = some owner ∧ g.Endless owner := by
  cases howner : g.owner? f with
  | none =>
    have hfirst := h 1
    rw [above, howner] at hfirst
    exact absurd hfirst Bool.false_ne_true
  | some owner => exact ⟨owner, rfl, fun n => above_succ_of_owner howner n ▸ h (n + 1)⟩

/-- A chain that does not have a number of hops has ended before. -/
theorem exists_endsAfter_of_above (h : g.above n f = none) : ∃ m, g.EndsAfter f m := by
  induction n with
  | zero => exact absurd h (Option.some_ne_none f)
  | succ n ih =>
    cases hn : g.above n f with
    | none => exact ih hn
    -- The last number of hops that the chain has.
    | some last => exact ⟨n, Option.isSome_of_eq_some hn, h⟩

/-- **A chain ends, or it is endless.** -/
theorem exists_endsAfter_or_endless (g : FieldGraph) (f : Field) :
    (∃ n, g.EndsAfter f n) ∨ g.Endless f := by
  refine or_iff_not_imp_right.mpr fun hends => ?_
  rw [Endless, not_forall] at hends
  obtain ⟨n, hn⟩ := hends
  exact exists_endsAfter_of_above (Option.not_isSome_iff_eq_none.mp hn)

/-- **A chain ends in one way only.** -/
theorem EndsAfter.unique (hm : g.EndsAfter f m) (hn : g.EndsAfter f n) : m = n := by
  -- Either neither number has a hop, or both go on from the one owner.
  induction m generalizing f n with
  | zero =>
    rw [endsAfter_zero] at hm
    cases n with
    | zero => rfl
    | succ n =>
      obtain ⟨owner, howner, -⟩ := endsAfter_succ.mp hn
      exact absurd (hm.symm.trans howner) (Option.some_ne_none owner).symm
  | succ m ih =>
    obtain ⟨owner, howner, hm⟩ := endsAfter_succ.mp hm
    cases n with
    | zero =>
      rw [endsAfter_zero] at hn
      exact absurd (hn.symm.trans howner) (Option.some_ne_none owner).symm
    | succ n =>
      obtain ⟨owner', howner', hn⟩ := endsAfter_succ.mp hn
      obtain rfl : owner = owner' := Option.some.inj (howner.symm.trans howner')
      rw [ih hm hn]

/-! ### A chain that ends has fewer hops than there are fields -/

/-- **No field stands twice on a chain that ends**, because each has its own number of hops to
the end. -/
theorem EndsAfter.exists_trail (h : g.EndsAfter f n) (hf : f ∈ g.fields) :
    ∃ trail : List Field, trail.length = n + 1 ∧ trail.Nodup ∧
      ∀ a ∈ trail, a ∈ g.fields ∧ ∃ m ≤ n, g.EndsAfter a m := by
  induction n generalizing f with
  | zero =>
    refine ⟨[f], rfl, List.pairwise_singleton _ f, ?_⟩
    intro a ha
    obtain rfl := List.mem_singleton.mp ha
    exact ⟨hf, 0, Nat.le_refl 0, h⟩
  | succ n ih =>
    obtain ⟨owner, howner, hn⟩ := endsAfter_succ.mp h
    obtain ⟨trail, hlength, hnodup, htrail⟩ := ih hn (owner_mem howner)
    -- The fields above are nearer to the end than `f`, so `f` is not among them.
    have hnew : f ∉ trail := by
      intro hmem
      obtain ⟨-, m, hm, hends⟩ := htrail f hmem
      have hsame : n + 1 = m := h.unique hends
      omega
    refine ⟨f :: trail, congrArg (· + 1) hlength, List.nodup_cons.mpr ⟨hnew, hnodup⟩, ?_⟩
    intro a ha
    rcases List.mem_cons.mp ha with rfl | ha
    · exact ⟨hf, n + 1, Nat.le_refl _, h⟩
    · obtain ⟨hmem, m, hm, hends⟩ := htrail a ha
      exact ⟨hmem, m, Nat.le_succ_of_le hm, hends⟩

theorem EndsAfter.lt_size (h : g.EndsAfter f n) (hf : f ∈ g.fields) : n < g.size := by
  obtain ⟨trail, hlength, hnodup, htrail⟩ := h.exists_trail hf
  have hle := (hnodup.subperm fun a ha => (htrail a ha).1).length_le
  rw [hlength] at hle
  exact hle

/-! ### The walk -/

/-- A walk finds the owner if there is one. -/
theorem climb_succ_of_owner (h : g.owner? f = some owner) (steps : Nat) :
    climb g.get? (steps + 1) f.parent =
      ⟨(climb g.get? steps owner.parent).hops + 1, (climb g.get? steps owner.parent).endless⟩ := by
  obtain ⟨id, hparent, hget⟩ := Option.bind_eq_some_iff.mp h
  rw [hparent, climb, hget]

/-- **A walk with steps to spare** counts the hops of a chain that ends. -/
theorem EndsAfter.climb_eq (h : g.EndsAfter f n) {steps : Nat} (hsteps : n < steps) :
    climb g.get? steps f.parent = ⟨n, false⟩ := by
  induction n generalizing f steps with
  | zero =>
    obtain ⟨steps, rfl⟩ := Nat.exists_eq_add_of_lt hsteps
    -- There is a step left to find that no owner is there.
    rw [endsAfter_zero, owner?] at h
    cases hparent : f.parent with
    | none => rw [climb]
    | some id =>
      rw [hparent, Option.bind_some] at h
      rw [climb, h]
  | succ n ih =>
    obtain ⟨owner, howner, hn⟩ := endsAfter_succ.mp h
    obtain ⟨steps, rfl⟩ := Nat.exists_eq_add_of_lt hsteps
    rw [climb_succ_of_owner howner, ih hn (by omega)]

/-- **The depth of a field** is the number of hops of its chain, if this ends. -/
theorem EndsAfter.depth_eq (h : g.EndsAfter f n) (hf : f ∈ g.fields) : g.depth f = n := by
  rw [depth, climbFrom, h.climb_eq (h.lt_size hf)]

/-- **A walk up an endless chain** is cut off, whatever number of steps it has. -/
theorem Endless.climb_eq (h : g.Endless f) (steps : Nat) :
    climb g.get? steps f.parent = ⟨steps, true⟩ := by
  induction steps generalizing f with
  | zero =>
    -- No step is left, and still a parent is named.
    obtain ⟨owner, howner, -⟩ := h.exists_owner
    obtain ⟨id, hparent, -⟩ := Option.bind_eq_some_iff.mp howner
    rw [hparent, climb]
  | succ steps ih =>
    obtain ⟨owner, howner, hendless⟩ := h.exists_owner
    rw [climb_succ_of_owner howner, ih hendless]

/-- **On an endless chain** the depth of a field is the bound on walks. -/
theorem Endless.depth_eq (h : g.Endless f) : g.depth f = g.size := by
  rw [depth, climbFrom, h.climb_eq]

/-- **The depth of a field is exact, and its report is true.** If the chain above a field of a
graph ends, its depth is the number of hops, which is less than the number of fields, and nothing
is reported. If the chain is endless, the depth is the number of fields, and one error is reported.
There is no third case, so an error is reported exactly of the endless chains. -/
theorem depthLogged_exact (hf : f ∈ g.fields) :
    (∀ n, g.EndsAfter f n → n < g.size ∧ g.depthLogged f = ⟨n, []⟩) ∧
      (g.Endless f → g.depthLogged f = ⟨g.size, [.endlessChain f.key g.size]⟩) ∧
      ((∃ n, g.EndsAfter f n) ∨ g.Endless f) ∧
      ((∃ e ∈ (g.depthLogged f).events, e.level = .error) ↔ g.Endless f) := by
  have hends : ∀ n, g.EndsAfter f n → n < g.size ∧ g.depthLogged f = ⟨n, []⟩ := by
    intro n hn
    have hlt : n < g.size := hn.lt_size hf
    refine ⟨hlt, ?_⟩
    rw [depthLogged, climbFrom, hn.climb_eq hlt]
    rfl
  have hendless : g.Endless f →
      g.depthLogged f = ⟨g.size, [.endlessChain f.key g.size]⟩ := by
    intro h
    rw [depthLogged, climbFrom, h.climb_eq g.size]
    rfl
  refine ⟨hends, hendless, g.exists_endsAfter_or_endless f, ?_⟩
  constructor
  · rintro ⟨e, he, -⟩
    rcases g.exists_endsAfter_or_endless f with ⟨n, hn⟩ | h
    · rw [(hends n hn).2] at he
      exact absurd he List.not_mem_nil
    · exact h
  · intro h
    rw [hendless h]
    exact ⟨_, List.mem_singleton_self _, rfl⟩

/-- The longest chain that four fields can have: it begins at a field whose identifier an earlier
one has too, goes through that one, and ends at a parent that does not exist. And a chain that
goes round in a circle which its first field is not on. -/
theorem depthLogged_exact_of_longest :
    let namesake : Field := { id := "1", key := "sku", parent := some "1" }
    let g : FieldGraph := ⟨[
      { id := "1", key := "line", parent := some "2" },
      { id := "2", key := "items", parent := some "3" },
      { id := "3", key := "order", parent := some "0" },
      namesake]⟩
    let outside : Field := { id := "1", key := "sku", parent := some "2" }
    let ring : FieldGraph := ⟨[
      outside,
      { id := "2", key := "line", parent := some "3" },
      { id := "3", key := "items", parent := some "2" }]⟩
    (namesake ∈ g.fields ∧ g.EndsAfter namesake 3 ∧ 3 < g.size ∧
        g.depthLogged namesake = ⟨3, []⟩) ∧
      outside ∈ ring.fields ∧ ring.Endless outside ∧
        ring.depthLogged outside = ⟨3, [.endlessChain "sku" 3]⟩ := by
  intro namesake g outside ring
  have hnamesake : namesake ∈ g.fields := by decide
  have houtside : outside ∈ ring.fields := by decide
  have hends : g.EndsAfter namesake 3 := by unfold EndsAfter; decide
  obtain ⟨hlt, hdepth⟩ := (depthLogged_exact hnamesake).1 3 hends
  obtain ⟨-, hdepthRing, -, hreport⟩ := depthLogged_exact houtside
  have hevents : (ring.depthLogged outside).events = [.endlessChain "sku" 3] := rfl
  have hendless : ring.Endless outside :=
    hreport.mp ⟨_, hevents ▸ List.mem_singleton_self _, rfl⟩
  exact ⟨⟨hnamesake, hends, hlt, hdepth⟩, houtside, hendless, hdepthRing hendless⟩

end FieldGraph

end ExtractionContract
