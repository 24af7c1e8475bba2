/-!
# Identifiers of new fields

A new field is named `fld_` and twelve letters and digits. There is such an identifier for each
number below `capacity`. A supply keeps a block of numbers for every new field, with one number
more than there are identifiers in use, and takes the first of the block that is free; so its
identifiers differ from each other and from those in use.

* `Identifier.ofNat`: the identifier of a number.
* `Identifier.isIdentifier`: whether a text has the shape of one.
* `Identifier.supply`: identifiers apart from those in use, with the laws `supply_notMem` and
  `supply_inj`.
-/

namespace ExtractionContract

namespace Identifier

/-- The letters and digits of identifiers, in the order of their values. -/
def alphabet : List Char :=
  "0123456789ABCDEFGHIJKLMNOPQRSTUVWXYZabcdefghijklmnopqrstuvwxyz".toList

/-- The number of letters and digits. -/
def base : Nat := 62

/-- What every identifier begins with. -/
def lead : List Char := ['f', 'l', 'd', '_']

/-- The number of places after the beginning. -/
def places : Nat := 12

/-- The letter or digit of a value. -/
def digit (d : Nat) : Char :=
  alphabet.getD d '0'

/-- A number written with a given number of places. -/
def written : Nat → Nat → List Char
  | 0, _ => []
  | n + 1, k => written n (k / base) ++ [digit (k % base)]

/-- The identifier of a number. -/
def ofNat (k : Nat) : String :=
  String.ofList (lead ++ written places k)

/-- Whether a text is `fld_` and twelve letters and digits. -/
def isIdentifier (id : String) : Bool :=
  let rest := id.toList.drop lead.length
  id.toList.take lead.length == lead && rest.length == places && rest.all alphabet.contains

/-- How many numbers can be written with a given number of places. -/
def capacityOf : Nat → Nat
  | 0 => 1
  | n + 1 => base * capacityOf n

/-- How many identifiers there are. -/
def capacity : Nat := capacityOf places

/-- The first identifier from a number on that is not in use, after a number of tries. -/
def firstFree (used : List String) : Nat → Nat → String
  | 0, k => ofNat k
  | tries + 1, k => if ofNat k ∈ used then firstFree used tries (k + 1) else ofNat k

/-- The identifiers of new fields, each the first one of its block that is not in use. -/
def supply (used : List String) (i : Nat) : String :=
  firstFree used used.length (i * (used.length + 1))

/-! ### Different numbers have different identifiers -/

theorem idxOf_digit : ∀ d < base, alphabet.idxOf (digit d) = d := by
  decide +kernel

theorem digit_inj {d e : Nat} (hd : d < base) (he : e < base) (h : digit d = digit e) :
    d = e := by
  rw [← idxOf_digit d hd, h, idxOf_digit e he]

theorem length_written (n k : Nat) : (written n k).length = n := by
  induction n generalizing k with
  | zero => rfl
  | succ n ih => simp [written, ih]

theorem mod_capacityOf_of_written {n j k : Nat} (h : written n j = written n k) :
    j % capacityOf n = k % capacityOf n := by
  induction n generalizing j k with
  | zero => simp [capacityOf, Nat.mod_one]
  | succ n ih =>
    have hlen : (written n (j / base)).length = (written n (k / base)).length := by
      simp only [length_written]
    obtain ⟨hinit, hlast⟩ := List.append_inj h hlen
    have hdigit : j % base = k % base :=
      digit_inj (Nat.mod_lt _ (by decide)) (Nat.mod_lt _ (by decide))
        (List.head_eq_of_cons_eq hlast)
    rw [capacityOf, Nat.mod_mul, Nat.mod_mul, hdigit, ih hinit]

theorem ofNat_inj {j k : Nat} (hj : j < capacity) (hk : k < capacity) (h : ofNat j = ofNat k) :
    j = k := by
  have hw : written places j = written places k :=
    List.append_cancel_left (String.ofList_injective h)
  have hmod := mod_capacityOf_of_written hw
  rwa [← capacity, Nat.mod_eq_of_lt hj, Nat.mod_eq_of_lt hk] at hmod

/-! ### A supply gives distinct identifiers that are not in use -/

/-- A search looks at no other identifiers than those of its numbers. -/
theorem firstFree_congr {used used' : List String} {tries k : Nat}
    (h : ∀ j, k ≤ j → j ≤ k + tries → (ofNat j ∈ used ↔ ofNat j ∈ used')) :
    firstFree used tries k = firstFree used' tries k := by
  induction tries generalizing k with
  | zero => rfl
  | succ tries ih =>
    simp only [firstFree, h k (Nat.le_refl k) (by omega)]
    rw [ih fun j hj hj' => h j (by omega) (by omega)]

/-- A search through more numbers than there are identifiers in use finds a free one. -/
theorem exists_firstFree_eq {used : List String} {tries k : Nat} (hused : used.length ≤ tries)
    (hk : k + tries < capacity) :
    ∃ j, k ≤ j ∧ j ≤ k + tries ∧ firstFree used tries k = ofNat j ∧ ofNat j ∉ used := by
  induction tries generalizing used k with
  | zero =>
    obtain rfl : used = [] := List.eq_nil_of_length_eq_zero (by omega)
    exact ⟨k, Nat.le_refl k, Nat.le_refl k, rfl, List.not_mem_nil⟩
  | succ tries ih =>
    by_cases hmem : ofNat k ∈ used
    · have hne : ∀ j, k + 1 ≤ j → j ≤ k + 1 + tries → ofNat j ≠ ofNat k := fun j hj hj' e => by
        have := ofNat_inj (by omega) (by omega) e
        omega
      have hlen : (used.erase (ofNat k)).length ≤ tries := by
        rw [List.length_erase_of_mem hmem]
        omega
      obtain ⟨j, hkj, hjt, heq, hfree⟩ := ih hlen (k := k + 1) (by omega)
      refine ⟨j, by omega, by omega, ?_, ?_⟩
      · rw [firstFree, if_pos hmem, ← heq]
        exact firstFree_congr fun i hi hi' => (List.mem_erase_of_ne (hne i hi hi')).symm
      · exact fun hj => hfree ((List.mem_erase_of_ne (hne j hkj hjt)).2 hj)
    · exact ⟨k, Nat.le_refl k, by omega, if_neg hmem, hmem⟩

theorem exists_supply_eq {used : List String} {i : Nat}
    (h : (i + 1) * (used.length + 1) ≤ capacity) :
    ∃ j, j / (used.length + 1) = i ∧ j < capacity ∧ supply used i = ofNat j ∧
      ofNat j ∉ used := by
  rw [Nat.succ_mul] at h
  obtain ⟨j, hij, hji, heq, hfree⟩ :=
    exists_firstFree_eq (k := i * (used.length + 1)) (Nat.le_refl used.length) (by omega)
  refine ⟨j, ?_, by omega, heq, hfree⟩
  rw [Nat.div_eq_iff (by omega)]
  omega

/-- A new identifier is not in use. -/
theorem supply_notMem {used : List String} {i : Nat}
    (h : (i + 1) * (used.length + 1) ≤ capacity) : supply used i ∉ used := by
  obtain ⟨j, -, -, heq, hfree⟩ := exists_supply_eq h
  exact heq ▸ hfree

/-- Different new fields get different identifiers. -/
theorem supply_inj {used : List String} {i i' : Nat}
    (h : (i + 1) * (used.length + 1) ≤ capacity) (h' : (i' + 1) * (used.length + 1) ≤ capacity)
    (heq : supply used i = supply used i') : i = i' := by
  obtain ⟨j, hj, hjc, hsupply, -⟩ := exists_supply_eq h
  obtain ⟨j', hj', hjc', hsupply', -⟩ := exists_supply_eq h'
  rw [← hj, ← hj', ofNat_inj hjc hjc' (by rw [← hsupply, ← hsupply', heq])]

example : supply [ofNat 0, ofNat 1] 0 = ofNat 2 := by decide +kernel
example : isIdentifier (ofNat 5000) = true := by decide +kernel

end Identifier

end ExtractionContract
