import ExtractionContract.Graph.Depth
import Mathlib.Data.List.Basic
import Mathlib.Data.Prod.Lex
import Mathlib.Data.String.Basic

/-!
# Stable sorting and display order

A list is sorted by the places that its elements have in a linear order. Elements at one place
keep the order in which they stood, so what a sort makes of a list is told by the elements at
each place: two lists are sorted into the same one exactly if they have the same elements, in
the same order, at every place (`SortsBy.mergeSort_eq_iff`). Sorting a part of a list gives that
part of the sorted list (`SortsBy.filter_mergeSort`), and of two lists of which one stands at
earlier places each is sorted for itself (`SortsBy.mergeSort_append`).

Display order is such a sort, by the order of fields, then their depth, then their key
(`FieldGraph.fields_sorted`). The *namesakes* of an order and a key stand in display order by
their depth alone (`FieldGraph.namesakes_sorted`).
-/

namespace ExtractionContract

/-! ### Stable sorting -/

section

variable {α β : Type} [LinearOrder β] {le : α → α → Bool} {place : α → β}

/-- Elements stand in the order of their places. -/
def SortsBy (le : α → α → Bool) (place : α → β) : Prop :=
  ∀ a b, le a b = true ↔ place a ≤ place b

namespace SortsBy

variable (h : SortsBy le place)

include h

theorem trans (a b c : α) (hab : le a b = true) (hbc : le b c = true) : le a c = true :=
  (h a c).mpr (le_trans ((h a b).mp hab) ((h b c).mp hbc))

theorem total (a b : α) : (le a b || le b a) = true := by
  rw [Bool.or_eq_true, h, h]
  exact le_total _ _

/-- **Elements at one place keep their order** when a list is sorted. -/
theorem filter_place_mergeSort (l : List α) (x : β) :
    (l.mergeSort le).filter (place · = x) = l.filter (place · = x) := by
  -- The elements at one place are in order as they stand, so they are a sublist of the sorted
  -- list; and there are as many of them there.
  have hsorted : (l.filter (place · = x)).Pairwise fun a b => le a b = true := by
    refine List.pairwise_iff_forall_sublist.mpr fun {a b} hab => (h a b).mpr ?_
    have hplace : ∀ c ∈ [a, b], place c = x := fun c hc =>
      of_decide_eq_true (List.mem_filter.mp (hab.subset hc)).2
    rw [hplace a (by simp), hplace b (by simp)]
  have hsub := (List.sublist_mergeSort h.trans h.total hsorted List.filter_sublist).filter
    (place · = x)
  have hself : (l.filter (place · = x)).filter (place · = x) = l.filter (place · = x) :=
    List.filter_eq_self.mpr fun _ ha => (List.mem_filter.mp ha).2
  have hlength := ((List.mergeSort_perm l le).filter (place · = x)).length_eq
  rw [hself] at hsub
  exact (hsub.eq_of_length hlength.symm).symm

omit h [LinearOrder β] in
/-- Lists with the same elements at every place have the same elements. -/
theorem mem_iff_of_filter_place_eq [DecidableEq β] {l l' : List α}
    (heq : ∀ x, l.filter (place · = x) = l'.filter (place · = x)) (a : α) : a ∈ l ↔ a ∈ l' := by
  have ha : a ∈ l.filter (place · = place a) ↔ a ∈ l'.filter (place · = place a) := by rw [heq]
  simpa using ha

/-- The first element of a sorted list stands at the first place. -/
theorem place_head_le {a b : α} {l : List α} (hl : (b :: l).Pairwise fun a b => le a b = true)
    (ha : a ∈ b :: l) : place b ≤ place a := by
  rcases List.mem_cons.mp ha with rfl | ha
  · exact le_refl _
  · exact (h b a).mp (List.rel_of_pairwise_cons hl ha)

/-- **Sorted lists with the same elements at every place are the same.** -/
theorem eq_of_pairwise {l l' : List α} (hl : l.Pairwise fun a b => le a b = true)
    (hl' : l'.Pairwise fun a b => le a b = true)
    (heq : ∀ x, l.filter (place · = x) = l'.filter (place · = x)) : l = l' := by
  have hmem : ∀ a, a ∈ l ↔ a ∈ l' := mem_iff_of_filter_place_eq heq
  induction l generalizing l' with
  | nil =>
    exact (List.eq_nil_iff_forall_not_mem.mpr fun a ha => by simpa using (hmem a).mpr ha).symm
  | cons a l ih =>
    cases l' with
    | nil => exact absurd ((hmem a).mp List.mem_cons_self) List.not_mem_nil
    | cons b l' =>
      -- Both heads come first, so they stand at one place, where both lists begin with them.
      have hplace : place b = place a := le_antisymm
        (h.place_head_le hl' ((hmem a).mp List.mem_cons_self))
        (h.place_head_le hl ((hmem b).mpr List.mem_cons_self))
      have hhead := heq (place a)
      rw [List.filter_cons_of_pos (by simp), List.filter_cons_of_pos (by simpa using hplace)]
        at hhead
      obtain rfl : a = b := (List.cons.inj hhead).1
      have htail : ∀ x, l.filter (place · = x) = l'.filter (place · = x) := by
        intro x
        have hx := heq x
        rw [List.filter_cons, List.filter_cons] at hx
        split at hx
        · exact (List.cons.inj hx).2
        · exact hx
      rw [ih hl.of_cons hl'.of_cons htail (mem_iff_of_filter_place_eq htail)]

/-- **A sort shows the elements at each place**, and nothing else of a list. -/
theorem mergeSort_eq_iff {l l' : List α} : l.mergeSort le = l'.mergeSort le ↔
    ∀ x, l.filter (place · = x) = l'.filter (place · = x) := by
  constructor
  · intro heq x
    rw [← h.filter_place_mergeSort l, heq, h.filter_place_mergeSort]
  · intro heq
    refine h.eq_of_pairwise (List.pairwise_mergeSort h.trans h.total l)
      (List.pairwise_mergeSort h.trans h.total l') fun x => ?_
    rw [h.filter_place_mergeSort, h.filter_place_mergeSort, heq]

/-- **Sorting a part of a list** gives that part of the sorted list. -/
theorem filter_mergeSort (p : α → Bool) (l : List α) :
    (l.mergeSort le).filter p = (l.filter p).mergeSort le := by
  refine h.eq_of_pairwise ((List.pairwise_mergeSort h.trans h.total l).filter p)
    (List.pairwise_mergeSort h.trans h.total _) fun x => ?_
  rw [List.filter_comm, h.filter_place_mergeSort, h.filter_place_mergeSort, List.filter_comm]

omit h [LinearOrder β] in
/-- Where no two elements stand at one place, the order in which they stand does not show at any
place. -/
theorem filter_place_eq_of_perm [DecidableEq β] {l l' : List α} (hperm : l.Perm l')
    (hplaces : (l.map place).Nodup) (x : β) :
    l.filter (place · = x) = l'.filter (place · = x) := by
  have hplace : ∀ a ∈ l.filter (place · = x), place a = x := fun a ha =>
    of_decide_eq_true (List.mem_filter.mp ha).2
  have hnodup : ((l.filter (place · = x)).map place).Nodup :=
    (List.filter_sublist.map place).nodup hplaces
  -- A list without repeats has one place at most once.
  have hlength : (l.filter (place · = x)).length ≤ 1 := by
    rw [List.map_congr_left hplace, List.map_const', List.nodup_replicate] at hnodup
    exact hnodup
  have hpart : (l.filter (place · = x)).Perm (l'.filter (place · = x)) := hperm.filter _
  -- And a list of at most one element has no other order.
  cases hfilter : l.filter (place · = x) with
  | nil =>
    rw [hfilter] at hpart
    exact (List.nil_perm.mp hpart).symm
  | cons a rest =>
    rw [hfilter] at hpart hlength
    obtain rfl : rest = [] := List.length_eq_zero_iff.mp (by simpa using hlength)
    exact (List.perm_singleton.mp hpart.symm).symm

/-- **Lists of the same elements are sorted into the same one**, where no two elements stand at
one place. -/
theorem mergeSort_eq_of_perm {l l' : List α} (hperm : l.Perm l')
    (hplaces : (l.map place).Nodup) : l.mergeSort le = l'.mergeSort le :=
  h.mergeSort_eq_iff.mpr (filter_place_eq_of_perm hperm hplaces)

/-- **Two lists are sorted each for itself** if no element of the second stands at an earlier place
than one of the first. -/
theorem mergeSort_append {l l' : List α} (hle : ∀ a ∈ l, ∀ b ∈ l', place a ≤ place b) :
    (l ++ l').mergeSort le = l.mergeSort le ++ l'.mergeSort le := by
  refine h.eq_of_pairwise (List.pairwise_mergeSort h.trans h.total _) ?_ fun x => ?_
  · rw [List.pairwise_append]
    refine ⟨List.pairwise_mergeSort h.trans h.total l,
      List.pairwise_mergeSort h.trans h.total l', fun a ha b hb => (h a b).mpr ?_⟩
    exact hle a (List.mem_mergeSort.mp ha) b (List.mem_mergeSort.mp hb)
  · rw [h.filter_place_mergeSort, List.filter_append, List.filter_append,
      h.filter_place_mergeSort, h.filter_place_mergeSort]

end SortsBy

end

/-! ### Display order -/

namespace FieldGraph

/-- The place of a field with a depth: its order, then its depth, then its key. -/
def displayPlace (a : Nat × Field) : Int ×ₗ Nat ×ₗ String :=
  toLex (a.2.order, toLex (a.1, a.2.key))

theorem displayLe_sortsBy : SortsBy displayLe displayPlace := by
  intro a b
  simp [displayLe, displayPlace, Prod.Lex.toLex_le_toLex]

/-- The place of a field of a graph in display order: its order, then its depth in the graph, then
its key. -/
def displayPlaceOf (g : FieldGraph) (f : Field) : Int ×ₗ Nat ×ₗ String :=
  displayPlace (g.depth f, f)

/-- Whether a field of a graph may stand before another in display order. -/
def showsBefore (g : FieldGraph) (f f' : Field) : Bool :=
  displayLe (g.depth f, f) (g.depth f', f')

theorem showsBefore_sortsBy (g : FieldGraph) : SortsBy g.showsBefore g.displayPlaceOf :=
  fun _ _ => displayLe_sortsBy _ _

/-- Orders come first: a field of a lower order stands at an earlier place. -/
theorem displayPlaceOf_lt {g : FieldGraph} {f f' : Field} (h : f.order < f'.order) :
    g.displayPlaceOf f < g.displayPlaceOf f' :=
  Prod.Lex.toLex_lt_toLex.mpr (.inl h)

/-- **Display order sorts the fields** by their places. -/
theorem fields_sorted (g : FieldGraph) : g.sorted.fields = g.fields.mergeSort g.showsBefore := by
  have hdepths : g.withDepths.mergeSort displayLe =
      (g.fields.mergeSort g.showsBefore).map fun f => (g.depth f, f) :=
    (List.map_mergeSort (f := fun f => (g.depth f, f)) fun _ _ _ _ => rfl).symm
  rw [sorted, hdepths, List.map_map]
  exact List.map_id _

/-- **What stands in display order is the display order**, where no two fields stand at one
place. -/
theorem fields_sorted_eq {g : FieldGraph} {fs : List Field} (hperm : g.fields.Perm fs)
    (hplaces : (g.fields.map g.displayPlaceOf).Nodup)
    (hfs : fs.Pairwise fun f f' => g.showsBefore f f') : g.sorted.fields = fs := by
  rw [fields_sorted, g.showsBefore_sortsBy.mergeSort_eq_of_perm hperm hplaces]
  exact List.mergeSort_of_pairwise hfs

/-- The fields of one order and one key, as they stand in the graph. -/
def namesakes (g : FieldGraph) (order : Int) (key : String) : List Field :=
  g.fields.filter fun f => f.order == order && f.key == key

/-- Fields by their depth in a graph, where equally deep ones keep their places. -/
def byDepth (g : FieldGraph) (fs : List Field) : List Field :=
  fs.mergeSort fun f f' => g.depth f ≤ g.depth f'

/-- **In display order namesakes stand by their depth.** -/
theorem namesakes_sorted (g : FieldGraph) (order : Int) (key : String) :
    g.sorted.namesakes order key = g.byDepth (g.namesakes order key) := by
  -- Where order and key are the same, display order compares the depths.
  have hle : ∀ f ∈ g.namesakes order key, ∀ f' ∈ g.namesakes order key,
      g.showsBefore f f' = decide (g.depth f ≤ g.depth f') := by
    intro f hf f' hf'
    obtain ⟨-, hf⟩ := List.mem_filter.mp hf
    obtain ⟨-, hf'⟩ := List.mem_filter.mp hf'
    simp only [Bool.and_eq_true, beq_iff_eq] at hf hf'
    rw [Bool.eq_iff_iff, g.showsBefore_sortsBy, decide_eq_true_iff, displayPlaceOf,
      displayPlaceOf, displayPlace, displayPlace, Prod.Lex.toLex_le_toLex,
      Prod.Lex.toLex_le_toLex]
    simp [hf, hf', ← le_iff_lt_or_eq]
  have hsort := List.map_mergeSort (f := id) (s := fun f f' => decide (g.depth f ≤ g.depth f')) hle
  rw [List.map_id, List.map_id] at hsort
  rw [namesakes, fields_sorted, g.showsBefore_sortsBy.filter_mergeSort]
  exact hsort

end FieldGraph

end ExtractionContract
