import ExtractionContract.Json.Members
import Mathlib.Data.List.Forall2
import Mathlib.Data.List.Induction

/-!
# What a list of pairs amounts to

`Members.collapse` gives the pairs of a list one after the other to a list that starts empty.
Two facts about it are used wherever lists of pairs with repeated keys are compared:

* `collapse_eq_self`: a list in which each key stands once amounts to itself.
* `forall₂_collapse`: lists of pairs that agree place by place, with the same keys and related
  values, amount to lists that agree place by place. Which of several values of one key wins
  depends on the keys alone.

`lookup_put` says what a look-up finds after a key was given, and `map_collapse` that values may
as well be replaced before as after.
-/

namespace ExtractionContract

namespace Members

variable {κ α β : Type} [DecidableEq κ]

/-- Two pairs with the same key whose values are related. -/
def Alike (R : α → β → Prop) (p : κ × α) (q : κ × β) : Prop :=
  p.1 = q.1 ∧ R p.2 q.2

theorem putAll_nil (ms : List (κ × α)) : putAll ms [] = ms := rfl

theorem putAll_cons (ms : List (κ × α)) (p : κ × α) (ps : List (κ × α)) :
    putAll ms (p :: ps) = putAll (put p.1 p.2 ms) ps := rfl

/-! ### Look-ups -/

theorem lookup_put_of_ne {k k' : κ} (h : k' ≠ k) (v : α) (ms : List (κ × α)) :
    (put k v ms).lookup k' = ms.lookup k' := by
  induction ms with
  | nil => rw [put, List.lookup_cons, beq_false_of_ne h]
  | cons m rest ih =>
    obtain ⟨l, w⟩ := m
    rw [put]
    split
    · next hl =>
      have hl : l = k := hl
      rw [List.lookup_cons, List.lookup_cons, hl, beq_false_of_ne h]
    · rw [List.lookup_cons, List.lookup_cons, ih]

/-- **A look-up after a key was given** finds the value given, and for another key what was
there before. -/
theorem lookup_put (k k' : κ) (v : α) (ms : List (κ × α)) :
    (put k v ms).lookup k' = if k' = k then some v else ms.lookup k' := by
  split
  · next h => rw [h, lookup_put_self]
  · next h => rw [lookup_put_of_ne h]

/-! ### Distinct keys -/

theorem put_of_notMem {k : κ} (v : α) {ms : List (κ × α)} (h : k ∉ keys ms) :
    put k v ms = ms ++ [(k, v)] := by
  induction ms with
  | nil => rfl
  | cons m rest ih =>
    have hm : m.1 ≠ k := fun e => h (e ▸ List.mem_cons_self)
    have hrest : k ∉ keys rest := fun hk => h (List.mem_cons_of_mem m.1 hk)
    rw [put, if_neg hm, ih hrest, List.cons_append]

theorem nodup_keys_putAll {ms : List (κ × α)} (h : (keys ms).Nodup) (ps : List (κ × α)) :
    (keys (putAll ms ps)).Nodup := by
  induction ps generalizing ms with
  | nil => exact h
  | cons p ps ih => exact ih (nodup_keys_put p.1 p.2 ms h)

/-- Each key stands once in what a list of pairs amounts to. -/
theorem nodup_keys_collapse (ps : List (κ × α)) : (keys (collapse ps)).Nodup := by
  have h : (keys ([] : List (κ × α))).Nodup := List.nodup_nil
  exact nodup_keys_putAll h ps

theorem putAll_eq_append {ms ps : List (κ × α)} (h : (keys (ms ++ ps)).Nodup) :
    putAll ms ps = ms ++ ps := by
  induction ps generalizing ms with
  | nil => rw [putAll_nil, List.append_nil]
  | cons p ps ih =>
    have hsplit : ms ++ p :: ps = ms ++ [p] ++ ps := by
      rw [List.append_assoc, List.singleton_append]
    have hp : p.1 ∉ keys ms := by
      intro hmem
      rw [keys, List.map_append, List.nodup_append] at h
      exact h.2.2 p.1 hmem p.1 List.mem_cons_self rfl
    rw [putAll_cons, put_of_notMem p.2 hp, ih (hsplit ▸ h), hsplit]

/-- Where each key stands once, a look-up finds the value of every pair. -/
theorem lookup_eq_some_iff_mem {ms : List (κ × α)} (h : (keys ms).Nodup) {k : κ} {v : α} :
    ms.lookup k = some v ↔ (k, v) ∈ ms := by
  induction ms with
  | nil => simp
  | cons m rest ih =>
    obtain ⟨k', v'⟩ := m
    obtain ⟨hnew, hrest⟩ := List.nodup_cons.mp h
    rw [List.lookup_cons, List.mem_cons]
    by_cases hk : k = k'
    · subst hk
      -- No later pair has this key.
      have hlater : (k, v) ∉ rest := fun hmem => hnew (List.mem_map.mpr ⟨(k, v), hmem, rfl⟩)
      simp [hlater, eq_comm]
    · rw [beq_false_of_ne hk]
      simpa [hk] using ih hrest

/-- **A list in which each key stands once amounts to itself.** -/
theorem collapse_eq_self {ps : List (κ × α)} (h : (keys ps).Nodup) : collapse ps = ps :=
  putAll_eq_append h

/-- The pairs made of a list whose members have distinct keys. -/
theorem collapse_map_eq_self {ι : Type} {l : List ι} {key : ι → κ} (h : (l.map key).Nodup)
    (v : ι → α) : collapse (l.map fun i => (key i, v i)) = l.map fun i => (key i, v i) := by
  refine collapse_eq_self ?_
  rw [keys, List.map_map]
  exact h

theorem collapse_collapse (ps : List (κ × α)) : collapse (collapse ps) = collapse ps :=
  collapse_eq_self (nodup_keys_collapse ps)

/-! ### Repeated keys -/

/-- What is left of pairs with repeated keys: each key stands once, where it was first given, and
has the value that it was last given. -/
structure FirstPlaceLastValue (ps ms : List (κ × α)) : Prop where
  keys_eq : keys ms = (keys ps).eraseDups
  lookup_eq : ∀ k, ms.lookup k = ps.reverse.lookup k

theorem collapse_append_singleton (ps : List (κ × α)) (p : κ × α) :
    collapse (ps ++ [p]) = put p.1 p.2 (collapse ps) :=
  List.foldl_append

/-- **Pairs amount to the first place and the last value of each key.** -/
theorem firstPlaceLastValue_collapse (ps : List (κ × α)) :
    FirstPlaceLastValue ps (collapse ps) := by
  -- A pair more at the end changes the value of its key, or comes last with a new key.
  induction ps using List.reverseRecOn with
  | nil => exact ⟨rfl, fun _ => rfl⟩
  | append_singleton ps p ih =>
    obtain ⟨hkeys, hlookup⟩ := ih
    rw [collapse_append_singleton]
    refine ⟨?_, fun k => ?_⟩
    · have happend : keys (ps ++ [p]) = keys ps ++ [p.1] := List.map_append
      rw [keys_put, hkeys, happend, List.eraseDups_append]
      by_cases hp : p.1 ∈ keys ps
      · simp [hp, List.removeAll]
      · simp [hp, List.removeAll, List.eraseDups_cons]
    · obtain ⟨k', v⟩ := p
      rw [lookup_put, hlookup, List.reverse_append, List.reverse_singleton,
        List.singleton_append, List.lookup_cons]
      by_cases hk : k = k'
      · rw [if_pos hk, beq_iff_eq.mpr hk]
      · rw [if_neg hk, beq_false_of_ne hk]

/-! ### Values replaced -/

theorem map_put (φ : α → β) (k : κ) (v : α) (ms : List (κ × α)) :
    (put k v ms).map (fun m => (m.1, φ m.2)) = put k (φ v) (ms.map fun m => (m.1, φ m.2)) := by
  induction ms with
  | nil => rfl
  | cons m rest ih =>
    rw [put, List.map_cons, put]
    split
    · rfl
    · rw [List.map_cons, ih]

theorem map_putAll (φ : α → β) (ms ps : List (κ × α)) :
    (putAll ms ps).map (fun m => (m.1, φ m.2)) =
      putAll (ms.map fun m => (m.1, φ m.2)) (ps.map fun p => (p.1, φ p.2)) := by
  induction ps generalizing ms with
  | nil => rfl
  | cons p ps ih => rw [putAll_cons, ih, map_put, List.map_cons, putAll_cons]

/-- What a list of pairs with each value replaced amounts to. -/
theorem map_collapse (φ : α → β) (ps : List (κ × α)) :
    (collapse ps).map (fun m => (m.1, φ m.2)) = collapse (ps.map fun p => (p.1, φ p.2)) :=
  map_putAll φ [] ps

/-- Values that a function leaves as they are may be replaced by it and collapsed again. -/
theorem collapse_map_collapse (φ : α → α) {ps : List (κ × α)} (h : ∀ p ∈ ps, φ p.2 = p.2) :
    collapse ((collapse ps).map fun m => (m.1, φ m.2)) = collapse ps := by
  have hps : ps.map (fun p => (p.1, φ p.2)) = ps.map id := by
    refine List.map_congr_left ?_
    intro p hp
    exact Prod.ext rfl (h p hp)
  rw [map_collapse, hps, List.map_id, collapse_collapse]

/-! ### Lists that agree place by place -/

theorem forall₂_put {R : α → β → Prop} {k : κ} {v : α} {w : β} {ms : List (κ × α)}
    {ns : List (κ × β)} (hvw : R v w) (h : List.Forall₂ (Alike R) ms ns) :
    List.Forall₂ (Alike R) (put k v ms) (put k w ns) := by
  induction h with
  | nil => exact .cons ⟨rfl, hvw⟩ .nil
  | cons hmn hrest ih =>
    rw [put, put, ← hmn.1]
    split
    · exact .cons ⟨rfl, hvw⟩ hrest
    · exact .cons hmn ih

theorem forall₂_putAll {R : α → β → Prop} {ms ps : List (κ × α)} {ns qs : List (κ × β)}
    (hms : List.Forall₂ (Alike R) ms ns) (hps : List.Forall₂ (Alike R) ps qs) :
    List.Forall₂ (Alike R) (putAll ms ps) (putAll ns qs) := by
  induction hps generalizing ms ns with
  | nil => exact hms
  | cons hpq _ ih =>
    rw [putAll_cons, putAll_cons, ← hpq.1]
    exact ih (forall₂_put hpq.2 hms)

/-- **Lists of pairs that agree place by place amount to lists that do.** -/
theorem forall₂_collapse {R : α → β → Prop} {ps : List (κ × α)} {qs : List (κ × β)}
    (h : List.Forall₂ (Alike R) ps qs) :
    List.Forall₂ (Alike R) (collapse ps) (collapse qs) :=
  forall₂_putAll .nil h

end Members

end ExtractionContract
