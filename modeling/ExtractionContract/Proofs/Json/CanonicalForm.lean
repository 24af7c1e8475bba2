import ExtractionContract.Proofs.Json.Alike
import ExtractionContract.Proofs.Json.EveryObject

/-!
# The canonical form of a value

In a value's canonical form the keys of every object ascend strictly (`Json.Ascending`). A value
of this form is its own canonical form (`canonical_eq_self`), and the canonical form of a value
that names each key once is of this form (`ascending_canonical`); so the canonical form is reached
in one step, and as values of one canonical form are alike, it is the value again but for the
order of members.

* `canonical_decides_alike`: what canonical forms say of the order of members.
-/

namespace ExtractionContract

namespace Json

/-- Keys stand in strictly ascending order. -/
def AscendingKeys (keys : List String) : Prop :=
  keys.Pairwise (· < ·)

/-- The keys of every object stand in strictly ascending order, at any depth. -/
def Ascending (v : Json) : Prop :=
  v.EveryObject AscendingKeys

/-! ### A value in ascending order -/

/-- Members in strictly ascending order of their keys are not moved. -/
theorem mergeSort_keyLe_eq_self {ms : List (String × Json)}
    (h : AscendingKeys (Members.keys ms)) : ms.mergeSort keyLe = ms := by
  refine List.mergeSort_of_pairwise ((List.pairwise_map.mp h).imp ?_)
  intro a b hab
  rw [keyLe, decide_eq_true_eq]
  exact le_of_lt hab

mutual

/-- **A value in ascending order is its own canonical form.** -/
theorem canonical_eq_self : ∀ {v : Json}, v.Ascending → v.canonical = v
  | arr _, h => by rw [canonical, canonicalItems_eq_self h]
  | obj _, h => by rw [canonical, canonicalMembers_eq_self h.2, mergeSort_keyLe_eq_self h.1]
  | null, _ | bool _, _ | num _, _ | str _, _ => rfl

theorem canonicalItems_eq_self :
    ∀ {vs : List Json}, EveryItem AscendingKeys vs → canonicalItems vs = vs
  | [], _ => rfl
  | _ :: _, h => by rw [canonicalItems, canonical_eq_self h.1, canonicalItems_eq_self h.2]

theorem canonicalMembers_eq_self :
    ∀ {ms : List (String × Json)}, EveryMember AscendingKeys ms → canonicalMembers ms = ms
  | [], _ => rfl
  | (_, _) :: _, h => by rw [canonicalMembers, canonical_eq_self h.1, canonicalMembers_eq_self h.2]

end

/-! ### The canonical form is in ascending order -/

/-- Members with distinct keys stand in strictly ascending order once they are sorted. -/
theorem ascendingKeys_mergeSort {ms : List (String × Json)} (h : (Members.keys ms).Nodup) :
    AscendingKeys (Members.keys (ms.mergeSort keyLe)) := by
  have hkeys : (Members.keys (ms.mergeSort keyLe)).Nodup :=
    ((List.mergeSort_perm ms keyLe).map Prod.fst).nodup_iff.mpr h
  have hsorted : (ms.mergeSort keyLe).Pairwise fun a b => keyLe a b = true :=
    List.pairwise_mergeSort keyLe_trans keyLe_total ms
  -- No key is that of another member, so what is not above a member is strictly below it.
  refine List.pairwise_map.mpr ((hsorted.and (List.pairwise_map.mp hkeys)).imp ?_)
  rintro a b ⟨hle, hne⟩
  rw [keyLe, decide_eq_true_eq] at hle
  exact lt_of_le_of_ne hle hne

mutual

/-- **The canonical form of a value with distinct keys is in ascending order.** -/
theorem ascending_canonical : ∀ {v : Json}, v.Distinct → v.canonical.Ascending
  | arr _, h => by
    rw [canonical, Ascending, EveryObject]
    exact ascendingItems_canonicalItems h
  | obj ms, h => by
    rw [canonical, Ascending, EveryObject, everyMember_iff]
    have hkeys : (Members.keys (canonicalMembers ms)).Nodup :=
      keys_canonicalMembers ms ▸ h.nodup_keys
    refine ⟨ascendingKeys_mergeSort hkeys, ?_⟩
    intro m hm
    -- Sorting moves members and leaves their values as they are.
    have hmembers := (everyMember_iff _).mp (ascendingMembers_canonicalMembers h.2)
    exact hmembers m (List.mem_mergeSort.mp hm)
  | null, _ | bool _, _ | num _, _ | str _, _ => trivial

theorem ascendingItems_canonicalItems :
    ∀ {vs : List Json}, DistinctItems vs → EveryItem AscendingKeys (canonicalItems vs)
  | [], _ => trivial
  | _ :: _, h => ⟨ascending_canonical h.1, ascendingItems_canonicalItems h.2⟩

theorem ascendingMembers_canonicalMembers : ∀ {ms : List (String × Json)},
    DistinctMembers ms → EveryMember AscendingKeys (canonicalMembers ms)
  | [], _ => trivial
  | (_, _) :: _, h => ⟨ascending_canonical h.1, ascendingMembers_canonicalMembers h.2⟩

end

/-- **A canonical form is its own canonical form.** -/
theorem canonical_canonical {v : Json} (h : v.Distinct) : v.canonical.canonical = v.canonical :=
  canonical_eq_self (ascending_canonical h)

/-! ### The order of members -/

/-- **The canonical form decides equality up to the order of members.** Two values whose objects
name each key once have one canonical form, the order of members included, exactly if they differ
in the order of members only, at any depth. The canonical form of a value differs from it in this
order only, its keys ascend strictly by code point, and taking it again changes nothing. -/
theorem canonical_decides_alike {v w : Json} (hv : v.Distinct) (hw : w.Distinct) :
    (v.canonical = w.canonical ↔ Alike v w) ∧ Alike v.canonical v ∧ v.canonical.Ascending ∧
      v.canonical.canonical = v.canonical := by
  have hidempotent : v.canonical.canonical = v.canonical := canonical_canonical hv
  refine ⟨(alike_iff_canonical_eq hv hw).symm, ?_, ascending_canonical hv, hidempotent⟩
  -- Both have one canonical form: that of `v`.
  exact alike_of_canonical_eq hidempotent

/-- An object in an array in an object, with its members in another order at both levels. -/
theorem canonical_decides_alike_nested :
    let v := obj [("b", arr [obj [("y", bool true), ("x", null)], str "t"]), ("a", null)]
    let w := obj [("a", null), ("b", arr [obj [("x", null), ("y", bool true)], str "t"])]
    v.Distinct ∧ w.Distinct ∧ v.canonical = w.canonical ∧ v.canonical.Ascending := by
  intro v w
  have hv : v.Distinct := by
    simp [v, Distinct, DistinctItems, DistinctMembers, Members.keys]
  have hw : w.Distinct := by
    simp [w, Distinct, DistinctItems, DistinctMembers, Members.keys]
  obtain ⟨hiff, -, hascending, -⟩ := canonical_decides_alike hv hw
  refine ⟨hv, hw, hiff.mpr ⟨_, List.Perm.swap _ _ _, ?_⟩, hascending⟩
  refine ⟨rfl, ⟨⟨_, List.Perm.swap _ _ _, ?_⟩, rfl, trivial⟩, rfl, rfl, trivial⟩
  exact ⟨rfl, rfl, rfl, rfl, trivial⟩

end Json

end ExtractionContract
