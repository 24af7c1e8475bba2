import ExtractionContract.Graph.Naming
import Mathlib.Data.List.Nodup
import Mathlib.Logic.Relation

/-!
# Cycles of parents

A field *hangs* below the identifier that it names as its parent. As a look-up takes the first
field with an identifier, an identifier hangs below at most one other; a graph is *acyclic* when
no walk up from parent to parent comes back to where it began. Links that dangle end a walk, so
they are on no cycle.

* `Hangs.of_mem`: where identifiers are distinct, every field hangs below its parent.
* `Acyclic.of_rank`: a graph is acyclic if its parents can be ranked below their children.
* `reflTransGen_back`, `transGen_of_forall`: what can be reached from a cycle, when there is one
  step from each place, is on the cycle; and a walk whose steps are all of a kind is one of that
  kind.
-/

namespace ExtractionContract

open Relation

/-! ### Walks -/

section

variable {α : Type} {r s : α → α → Prop} {a b : α}

/-- A walk all of whose steps are of a kind. It is enough to know this of the steps that can be
reached from its beginning. -/
theorem transGen_of_forall (h : TransGen r a b)
    (hs : ∀ c d, ReflTransGen r a c → r c d → s c d) : TransGen s a b := by
  induction h with
  | single hab => exact .single (hs _ _ .refl hab)
  | tail hac hcd ih => exact ih.tail (hs _ _ hac.to_reflTransGen hcd)

/-- Where there is one step from each place, a walk that begins on a cycle stays on it. -/
theorem reflTransGen_back (hunique : Relator.RightUnique r) (hcycle : TransGen r a a)
    (h : ReflTransGen r a b) : ReflTransGen r b a := by
  induction h with
  | refl => exact .refl
  | tail _ hbc ih =>
    -- The step taken is the first one of the walk back, or of the cycle itself.
    rcases reflTransGen_iff_eq_or_transGen.mp ih with rfl | hback
    · obtain ⟨d, had, hda⟩ := TransGen.head'_iff.mp hcycle
      rwa [hunique hbc had]
    · obtain ⟨d, hbd, hda⟩ := TransGen.head'_iff.mp hback
      rwa [hunique hbc hbd]

theorem transGen_of_reachable (hunique : Relator.RightUnique r) (hcycle : TransGen r a a)
    (h : ReflTransGen r a b) : TransGen r b b := by
  have hback : ReflTransGen r b a := reflTransGen_back hunique hcycle h
  exact (TransGen.trans_right hback hcycle).trans_left h

/-- Steps that go down in rank make no cycle. -/
theorem not_transGen_of_rank (rank : α → Nat) (h : ∀ c d, r c d → rank d < rank c) :
    ¬TransGen r a a := by
  have hdown : ∀ {c d}, TransGen r c d → rank d < rank c := by
    intro c d hcd
    induction hcd with
    | single hstep => exact h _ _ hstep
    | tail _ hstep ih => exact Nat.lt_trans (h _ _ hstep) ih
  exact fun hcycle => Nat.lt_irrefl _ (hdown hcycle)

end

/-! ### Graphs -/

namespace FieldGraph

/-- The first field with an identifier names another as its parent. -/
def Hangs (g : FieldGraph) (id parent : String) : Prop :=
  ∃ f, g.get? id = some f ∧ f.parent = some parent

/-- No walk up from parent to parent comes back to where it began. -/
def Acyclic (g : FieldGraph) : Prop :=
  ∀ id, ¬TransGen g.Hangs id id

variable {g : FieldGraph}

theorem hangs_iff {id p : String} : g.Hangs id p ↔ (g.get? id).bind Field.parent = some p :=
  Option.bind_eq_some_iff.symm

/-- **There is one step up from each identifier.** -/
theorem Hangs.rightUnique : Relator.RightUnique g.Hangs := by
  intro id p q hp hq
  rw [hangs_iff] at hp hq
  exact Option.some.inj (hp.symm.trans hq)

theorem id_of_get? {id : String} {f : Field} (h : g.get? id = some f) : f.id = id := by
  have hid := List.find?_some (p := fun f : Field => f.id == id) h
  exact beq_iff_eq.mp hid

theorem Hangs.exists_mem {id p : String} (h : g.Hangs id p) :
    ∃ f ∈ g.fields, f.id = id ∧ f.parent = some p := by
  obtain ⟨f, hf, hp⟩ := h
  exact ⟨f, List.mem_of_find?_eq_some hf, id_of_get? hf, hp⟩

/-- Where identifiers are distinct, a look-up finds the field. -/
theorem get?_of_mem (hids : g.ids.Nodup) {f : Field} (hf : f ∈ g.fields) :
    g.get? f.id = some f := by
  cases hget : g.get? f.id with
  | none =>
    have hnot := List.find?_eq_none.mp hget f hf
    exact absurd (beq_self_eq_true f.id) hnot
  | some f' =>
    have hid : f'.id = f.id := id_of_get? hget
    rw [List.inj_on_of_nodup_map hids (List.mem_of_find?_eq_some hget) hf hid]

/-- Where identifiers are distinct, a look-up finds the field that has the identifier. -/
theorem get?_eq_some_iff (hids : g.ids.Nodup) {id : String} {f : Field} :
    g.get? id = some f ↔ f ∈ g.fields ∧ f.id = id := by
  constructor
  · intro h
    exact ⟨List.mem_of_find?_eq_some h, id_of_get? h⟩
  · rintro ⟨hf, rfl⟩
    exact get?_of_mem hids hf

theorem Hangs.of_mem (hids : g.ids.Nodup) {f : Field} (hf : f ∈ g.fields) {p : String}
    (hp : f.parent = some p) : g.Hangs f.id p :=
  ⟨f, get?_of_mem hids hf, hp⟩

/-- **Parents ranked below their children** make no cycle. -/
theorem Acyclic.of_rank (rank : String → Nat)
    (h : ∀ f ∈ g.fields, ∀ p ∈ f.parent, rank p < rank f.id) : g.Acyclic := by
  intro id
  refine not_transGen_of_rank rank ?_
  intro c d hcd
  obtain ⟨f, hf, rfl, hp⟩ := hcd.exists_mem
  exact h f hf d hp

end FieldGraph

end ExtractionContract
