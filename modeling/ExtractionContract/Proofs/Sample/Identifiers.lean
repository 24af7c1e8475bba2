import ExtractionContract.Sample.Inference
import Mathlib.Data.List.Basic

/-!
# Identifiers of inferred fields

The identifier for a key is the key or, where an earlier finding has that identifier, the key
with a number. Of one more number than there are identifiers taken some is free, because
different numbers give different identifiers (`numberedKey_inj`); so the search ends, with the
first free one (`firstFree_freeId`). Each finding has the identifier that its key is given after
all before it (`getElem?_identify`), and these are pairwise distinct (`nodup_identify`), however
keys repeat or look like numbered ones.
-/

namespace ExtractionContract

/-- Different numbers make different identifiers of a key. -/
theorem numberedKey_inj {key : String} {m n : Nat} (h : numberedKey key m = numberedKey key n) :
    m = n := by
  have happend : key ++ "#" ++ m.repr = key ++ "#" ++ n.repr := h
  have hchars := congrArg String.toList happend
  simp only [String.toList_append] at hchars
  have hdigits := List.append_cancel_left hchars
  rw [Nat.toList_repr, Nat.toList_repr] at hdigits
  rw [← Nat.ofDigitChars_ten_toDigits (n := m), hdigits, Nat.ofDigitChars_ten_toDigits]

/-- **Of one more number than there are identifiers taken, one is free.** -/
theorem exists_numberedKey_notMem (taken : List String) (key : String) :
    ∃ i ∈ List.range (taken.length + 1), numberedKey key (i + 2) ∉ taken := by
  by_contra hnone
  push Not at hnone
  -- Were none free, all these numbered keys would be among fewer identifiers.
  have hnodup : ((List.range (taken.length + 1)).map fun i => numberedKey key (i + 2)).Nodup :=
    List.Pairwise.map _ (fun _ _ hij h => hij (by have := numberedKey_inj h; omega))
      List.nodup_range
  have hsubset :
      ((List.range (taken.length + 1)).map fun i => numberedKey key (i + 2)) ⊆ taken := by
    intro id hid
    obtain ⟨i, hi, rfl⟩ := List.mem_map.mp hid
    exact hnone i hi
  have hlength := hnodup.length_le_of_subset hsubset
  rw [List.length_map, List.length_range] at hlength
  omega

/-- **The identifier for a key is not taken.** -/
theorem freeId_notMem (taken : List String) (key : String) : freeId taken key ∉ taken := by
  unfold freeId
  split
  · split
    · next i hi => simpa using List.find?_some hi
    · next hnone =>
      obtain ⟨i, hi, hfree⟩ := exists_numberedKey_notMem taken key
      exact absurd hfree (by simpa using List.find?_eq_none.mp hnone i hi)
  · next hkey => exact hkey

/-- The identifier for a key, after those taken: the key, or where that is taken the key with the
first number from two on that is not. -/
def FirstFree (taken : List String) (key id : String) : Prop :=
  id ∉ taken ∧ (id = key ∨ key ∈ taken ∧ ∃ n, 2 ≤ n ∧ id = numberedKey key n ∧
    ∀ m, 2 ≤ m → m < n → numberedKey key m ∈ taken)

/-- **The search for a number ends with the first free one.** -/
theorem firstFree_freeId (taken : List String) (key : String) :
    FirstFree taken key (freeId taken key) := by
  refine ⟨freeId_notMem taken key, ?_⟩
  unfold freeId
  split
  · next hkey =>
    refine .inr ⟨hkey, ?_⟩
    split
    · next i hi =>
      obtain ⟨-, -, hbefore⟩ := List.find?_range_eq_some.mp hi
      refine ⟨i + 2, by omega, rfl, fun m hm hlt => ?_⟩
      have htaken := hbefore (m - 2) (by omega)
      rw [Nat.sub_add_cancel hm] at htaken
      simpa using htaken
    · next hnone =>
      obtain ⟨i, hi, hfree⟩ := exists_numberedKey_notMem taken key
      exact absurd hfree (by simpa using List.find?_eq_none.mp hnone i hi)
  · exact .inl rfl

theorem length_identify (taken keys : List String) :
    (identify taken keys).length = taken.length + keys.length := by
  induction keys generalizing taken with
  | nil => rfl
  | cons key rest ih =>
    rw [identify, ih, List.length_append, List.length_singleton, List.length_cons]
    omega

theorem prefix_identify (taken keys : List String) : taken <+: identify taken keys := by
  induction keys generalizing taken with
  | nil => exact List.prefix_refl taken
  | cons key rest ih => exact (List.prefix_append taken _).trans (ih _)

/-- **Each identifier is the one for its key**, after the identifiers before it. -/
theorem getElem?_identify (taken : List String) {keys : List String} {i : Nat} {key : String}
    (h : keys[i]? = some key) :
    (identify taken keys)[taken.length + i]? =
      some (freeId ((identify taken keys).take (taken.length + i)) key) := by
  induction keys generalizing taken i with
  | nil => simp at h
  | cons first rest ih =>
    rw [identify]
    cases i with
    | zero =>
      obtain rfl : first = key := by simpa using h
      -- The identifiers taken stay in front, and the new one comes right behind them.
      obtain ⟨later, hlater⟩ := prefix_identify (taken ++ [freeId taken first]) rest
      rw [← hlater, Nat.add_zero, List.append_assoc, List.take_left,
        List.getElem?_append_right (Nat.le_refl _), Nat.sub_self]
      rfl
    | succ i =>
      have hlength : (taken ++ [freeId taken first]).length + i = taken.length + (i + 1) := by
        rw [List.length_append, List.length_singleton]
        omega
      rw [← hlength]
      exact ih _ (by simpa using h)

/-- **Identifiers stay distinct** when the keys of a list get theirs. -/
theorem nodup_identify {taken : List String} (h : taken.Nodup) (keys : List String) :
    (identify taken keys).Nodup := by
  induction keys generalizing taken with
  | nil => exact h
  | cons key rest ih =>
    refine ih (List.nodup_append.mpr ⟨h, List.pairwise_singleton _ _, ?_⟩)
    intro a ha b hb hab
    rw [List.mem_singleton] at hb
    exact freeId_notMem taken key (hb ▸ hab ▸ ha)

example : identify [] ["a.b", "a", "a.b", "a.b#2", "a.b"] =
    ["a.b", "a", "a.b#2", "a.b#2#2", "a.b#3"] := by decide +kernel

end ExtractionContract
