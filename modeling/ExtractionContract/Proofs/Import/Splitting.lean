import ExtractionContract.Proofs.Import.Linking

/-!
# Imports in two batches

An import that adds all fields looks for parents in its batch only. Where no record of the one half
of a batch names a record of the other as its parent, the halves may be imported one after the
other, with the identifiers that the whole batch would be given: the same fields come about, with
the same links and orders (`FieldGraph.merge_coexist_append`).

Of the records of a batch that go by one name the first counts, so it has to be seen that the front
half does not stand in the way of the back half (`NamesNone.lookup_eq_none`); and that places go on
where the front half ends although records without a key have no place (`linked_append`).
-/

namespace ExtractionContract

namespace Merge

/-- No record of a batch names a record of another as its parent. -/
def NamesNone (batch others : List Keyed) : Prop :=
  ∀ k ∈ batch, ∀ other ∈ others, k.record.parentKey ≠ some (nameOf other)

theorem keyed_append (front back : List Record) :
    keyed (front ++ back) = keyed front ++ keyed back :=
  List.filterMap_append

theorem keyless_append (front back : List Record) :
    keyless (front ++ back) = keyless front + keyless back := by
  rw [keyless, List.filter_append, List.length_append]
  rfl

variable {fresh : Nat → String} {front back : List Keyed}

/-- The identifiers of a supply that are left after some have been drawn. -/
def drawn (fresh : Nat → String) (count : Nat) : Nat → String :=
  fun place => fresh (place + count)

/-! ### References -/

theorem references_append (fresh : Nat → String) (front back : List Keyed) :
    references fresh (front ++ back) =
      references fresh front ++ references (drawn fresh front.length) back :=
  List.mapIdx_append

/-- The parent that a record names is not found among records that it names none of. -/
theorem NamesNone.lookup_eq_none {batch others : List Keyed} (h : NamesNone batch others)
    {k : Keyed} (hk : k ∈ batch) {name : String} (hname : k.record.parentKey = some name)
    (fresh : Nat → String) : (references fresh others).lookup name = none := by
  have hholder : holder others name = none := by
    rw [holder_eq_none_iff]
    intro other hother e
    exact h k hk other hother (hname.trans (congrArg some e.symm))
  rw [lookup_references, hholder, Option.map_none]

/-- **A record of the front half** has the parent that it has in the front half alone. -/
theorem parentOf_append_front (h : NamesNone front back) {k : Keyed} (hk : k ∈ front)
    (id : String) :
    parentOf (references fresh (front ++ back)) id k.record.parentKey =
      parentOf (references fresh front) id k.record.parentKey := by
  rw [parentOf, parentOf]
  cases hname : k.record.parentKey with
  | none => rfl
  | some name =>
    rw [Option.bind_some, Option.bind_some, references_append, List.lookup_append,
      h.lookup_eq_none hk hname, Option.or_none]

/-- **A record of the back half** has the parent that it has in the back half alone. The front half
stands before it, but has no record that goes by the name. -/
theorem parentOf_append_back (h : NamesNone back front) {k : Keyed} (hk : k ∈ back)
    (id : String) :
    parentOf (references fresh (front ++ back)) id k.record.parentKey =
      parentOf (references (drawn fresh front.length) back) id k.record.parentKey := by
  rw [parentOf, parentOf]
  cases hname : k.record.parentKey with
  | none => rfl
  | some name =>
    rw [Option.bind_some, Option.bind_some, references_append, List.lookup_append,
      h.lookup_eq_none hk hname, Option.none_or]

/-! ### Fields and parents not found -/

section

variable (hfront : NamesNone front back) (hback : NamesNone back front)

include hfront hback

/-- **The fields of a batch** are those of its front half, and those of its back half from the place
on where the front half ends. -/
theorem linked_append (base : Nat) :
    linked fresh base (front ++ back) =
      linked fresh base front ++ linked (drawn fresh front.length) (base + front.length) back := by
  rw [linked, List.mapIdx_append]
  refine congrArg₂ (· ++ ·) ?_ ?_
  · rw [linked, List.mapIdx_eq_mapIdx_iff]
    intro place hplace
    rw [parentOf_append_front hfront (List.getElem_mem hplace)]
  · rw [linked, List.mapIdx_eq_mapIdx_iff]
    intro place hplace
    have horder : (base : Int) + ((place + front.length : Nat) : Int) =
        ((base + front.length : Nat) : Int) + place := by
      omega
    rw [parentOf_append_back hback (List.getElem_mem hplace), fieldOf, fieldOf, horder]
    rfl

/-- **The parents not found** by a batch are those that its halves do not find. -/
theorem unresolved_append :
    unresolved fresh (front ++ back) =
      unresolved fresh front ++ unresolved (drawn fresh front.length) back := by
  rw [unresolved_eq, unresolved_eq, unresolved_eq, List.mapIdx_append, List.filterMap_append]
  refine congrArg₂ (fun xs ys => List.filterMap id xs ++ List.filterMap id ys) ?_ ?_
  · rw [List.mapIdx_eq_mapIdx_iff]
    intro place hplace
    rw [parentOf_append_front hfront (List.getElem_mem hplace)]
  · rw [List.mapIdx_eq_mapIdx_iff]
    intro place hplace
    rw [parentOf_append_back hback (List.getElem_mem hplace)]
    rfl

end

end Merge

namespace FieldGraph

open Merge

/-- **An import in two batches.** Where no record of either batch names a record of the other as its
parent, importing the one batch and then the other, with the identifiers that follow, gives the
graph that importing both together gives. The numbers of fields added and of records skipped are
those of the two imports taken together, and the parents not found are those of the first import
followed by those of the second. -/
theorem merge_coexist_append (g : FieldGraph) (fresh : Nat → String) {front back : List Record}
    (hfront : NamesNone (keyed front) (keyed back)) (hback : NamesNone (keyed back) (keyed front)) :
    let first := g.merge .coexist fresh front
    let second := first.graph.merge .coexist (drawn fresh (keyed front).length) back
    ∃ s t, first.summary = .ok s ∧ second.summary = .ok t ∧
      g.merge .coexist fresh (front ++ back) =
        ⟨.ok { added := s.added + t.added
               overwritten := s.overwritten + t.overwritten
               skipped := s.skipped + t.skipped
               unresolvedParents := s.unresolvedParents ++ t.unresolvedParents },
          second.graph⟩ := by
  intro first second
  have hfirst : first = _ := g.merge_coexist fresh front
  have hsecond : second = _ := first.graph.merge_coexist (drawn fresh (keyed front).length) back
  -- The second import counts its orders from where the first one ended.
  have hsize : first.graph.size = g.size + (keyed front).length := by
    rw [hfirst, size, append, List.length_append, linked, List.length_mapIdx]
    rfl
  refine ⟨_, _, congrArg MergeResult.summary hfirst, congrArg MergeResult.summary hsecond, ?_⟩
  rw [hsecond, hsize, merge_coexist, keyed_append, keyless_append,
    linked_append hfront hback, unresolved_append hfront hback, List.length_append,
    List.map_append, hfirst, append, append, append, List.append_assoc]
  rfl

/-- Both batches have a record without a key, one that finds no parent, and one that goes by `name`.
The graph has two fields, whose orders do not tell how many there are. -/
theorem merge_coexist_append_of_namesakes :
    let g : FieldGraph := ⟨[
      { id := "1", key := "order", order := 7 }, { id := "2", key := "items", parent := some "0" }]⟩
    let front : List Record := [
      { key := some "name", parentKey := some "items" }, { batchRef := some "items" },
      { key := some "items" }, { key := some "tax", parentKey := some "gone" }]
    let back : List Record := [
      { key := some "name" }, { key := some "sku", parentKey := some "lines" },
      { name := some "Lines" }, { key := some "items", batchRef := some "lines" },
      { key := some "unit", parentKey := some "unit" }]
    let fresh := (["a", "b", "c", "d", "e", "f", "g"].getD · "")
    let first := g.merge .coexist fresh front
    let second := first.graph.merge .coexist (drawn fresh 3) back
    NamesNone (keyed front) (keyed back) ∧ NamesNone (keyed back) (keyed front) ∧
      first.summary = .ok ⟨3, 0, 1, ["gone"]⟩ ∧ second.summary = .ok ⟨4, 0, 1, ["unit"]⟩ ∧
      g.merge .coexist fresh (front ++ back) =
        ⟨.ok ⟨7, 0, 2, ["gone", "unit"]⟩, second.graph⟩ ∧
      second.graph.fields.map (fun f => (f.id, f.key, f.order, f.parent)) =
        [("1", "order", 7, none), ("2", "items", 0, some "0"), ("a", "name", 2, some "b"),
          ("b", "items", 3, none), ("c", "tax", 4, none), ("d", "name", 5, none),
          ("e", "sku", 6, some "f"), ("f", "items", 7, none), ("g", "unit", 8, none)] := by
  intro g front back fresh first second
  have hfront : NamesNone (keyed front) (keyed back) := by unfold NamesNone; decide
  have hback : NamesNone (keyed back) (keyed front) := by unfold NamesNone; decide
  have hfirst : first.summary = .ok ⟨3, 0, 1, ["gone"]⟩ := rfl
  have hsecond : second.summary = .ok ⟨4, 0, 1, ["unit"]⟩ := rfl
  obtain ⟨s, t, hs, ht, hwhole⟩ := g.merge_coexist_append fresh hfront hback
  obtain rfl : _ = s := Except.ok.inj (hfirst.symm.trans hs)
  obtain rfl : _ = t := Except.ok.inj (hsecond.symm.trans ht)
  exact ⟨hfront, hback, hfirst, hsecond, hwhole, by decide +kernel⟩

end FieldGraph

end ExtractionContract
