import ExtractionContract.Proofs.Sample.Forest

/-!
# Orders of findings

The orders of findings are counted level by level, and a level begins with the order after that of
the finding it lies below. So they go on from level to level without a gap (`orders_eq`). Sums of
sixty-four bits are associative whether they wrap around or not, and this is all that the argument
needs. As a whole number an order is the sum where sixty-four bits hold it (`toInt_add_ofNat`).

* `orders_eq`: the orders of a sample are counted on from the start, one for each finding.
-/

namespace ExtractionContract

/-- Numbers of sixty-four bits, counted on from a start. -/
def countedOn (start : Int64) (count : Nat) : List Int64 :=
  (List.range count).map fun k => start + .ofNat k

theorem add_ofNat_zero (start : Int64) : start + .ofNat 0 = start :=
  Int64.add_zero start

theorem add_ofNat_add (start : Int64) (m n : Nat) :
    start + .ofNat (m + n) = start + .ofNat m + .ofNat n := by
  rw [Int64.ofNat_add, Int64.add_assoc]

theorem length_countedOn (start : Int64) (count : Nat) :
    (countedOn start count).length = count := by
  rw [countedOn, List.length_map, List.length_range]

theorem countedOn_add (start : Int64) (m n : Nat) :
    countedOn start (m + n) = countedOn start m ++ countedOn (start + .ofNat m) n := by
  rw [countedOn, List.range_add, List.map_append, List.map_map]
  refine congrArg (countedOn start m ++ ·) (List.map_congr_left fun k _ => ?_)
  exact add_ofNat_add start m k

theorem countedOn_succ (start : Int64) (n : Nat) :
    countedOn start (n + 1) = start :: countedOn (start + .ofNat 1) n := by
  have hone : countedOn start 1 = [start] := by simp [countedOn]
  rw [Nat.add_comm, countedOn_add, hone, List.singleton_append]

/-- Where sixty-four bits hold it, the sum is that of whole numbers. -/
theorem toInt_add_ofNat {start : Int64} {k : Nat}
    (h : start.toInt + k ≤ Int64.maxValue.toInt) :
    (start + .ofNat k).toInt = start.toInt + k := by
  have hsum : start + .ofNat k = .ofInt (start.toInt + k) := by
    rw [Int64.ofInt_add, Int64.ofInt_toInt, Int64.ofInt_eq_ofNat]
  have hge := start.le_toInt
  rw [Int64.toInt_maxValue] at h
  rw [hsum, Int64.toInt_ofInt_of_le (by omega) (Int.lt_of_le_sub_one h)]

mutual

/-- **The members of an object** are counted on, with what is below each of them. -/
theorem memberOrders_eq (parentKey : String) (inItem : Bool) (parent : Option Nat) (place : Nat)
    (start : Int64) (before : Nat) : ∀ members : List (String × Json),
    memberOrders inItem start before members =
      countedOn (start + .ofNat before)
        (findMembers parentKey inItem parent place members).length
  | [] => rfl
  | (key, v) :: rest => by
    have hbelow := ordersBelow_eq (joinKey parentKey key) inItem place
      (start + .ofNat (before + 1)) v
    rw [memberOrders, hbelow, length_countedOn, findMembers, List.length_append, List.length_cons,
      memberOrders_eq parentKey inItem parent
        (place + 1 + (findBelow (joinKey parentKey key) inItem place v).length) start _ rest]
    generalize (findBelow (joinKey parentKey key) inItem place v).length = below
    -- The level below begins behind the member, and this level goes on behind that one.
    rw [countedOn_add, countedOn_succ, ← add_ofNat_add, ← add_ofNat_add, Nat.add_assoc before 1,
      Nat.add_comm 1]

theorem ordersBelow_eq (key : String) (inItem : Bool) (place : Nat) (start : Int64) : ∀ v : Json,
    ordersBelow inItem start v = countedOn start (findBelow key inItem place v).length
  | .obj members => by
    rw [ordersBelow, memberOrders_eq key inItem (some place) (place + 1), add_ofNat_zero,
      findBelow]
  | .arr (.obj members :: tail) => by
    rw [ordersBelow, findBelow]
    split
    · rfl
    · rw [memberOrders_eq key true (some place) (place + 1), add_ofNat_zero]
  | .null | .bool _ | .num _ | .str _ | .arr [] | .arr (.null :: _) | .arr (.bool _ :: _)
  | .arr (.num _ :: _) | .arr (.str _ :: _) | .arr (.arr _ :: _) => rfl

end

/-- **The orders of a sample** are counted on from the start, one for each finding. -/
theorem orders_eq (parentKey : String) (start : Int64) (v : Json) :
    orders start v = countedOn start (findings parentKey v).length := by
  by_cases h : ∃ members, v = .obj members
  · obtain ⟨members, rfl⟩ := h
    rw [orders, memberOrders_eq parentKey false none 0, add_ofNat_zero, findings]
  · push Not at h
    -- Any other value is itself the first finding.
    obtain ⟨d, -, -, -, hfindings⟩ := findings_of_ne_obj parentKey h
    have horders : orders start v = start :: ordersBelow false (start + .ofNat 1) v := by
      cases v with
      | obj members => exact absurd rfl (h members)
      | null | bool | num | str | arr => rfl
    rw [horders, hfindings, List.length_cons, countedOn_succ,
      ordersBelow_eq (rootKey parentKey) false 0]

/-- The order of the finding at a place. -/
theorem getD_orders (parentKey : String) (start : Int64) (v : Json) {k : Nat}
    (hk : k < (findings parentKey v).length) : (orders start v).getD k 0 = start + .ofNat k := by
  rw [orders_eq parentKey, List.getD_eq_getElem?_getD, countedOn, List.getElem?_map,
    List.getElem?_range hk]
  rfl

end ExtractionContract
