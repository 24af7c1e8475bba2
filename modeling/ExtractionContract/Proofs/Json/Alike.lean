import ExtractionContract.Proofs.Json.Distinct
import Mathlib.Data.List.Nodup
import Mathlib.Data.List.Perm.Basic
import Mathlib.Data.String.Basic

/-!
# Values that differ in the order of members only

`Json.Alike` says that two values are equal but for the order in which the members of their
objects stand, at any depth. When every object names each key once, this is what the canonical
order decides (`alike_iff_canonical_eq`): two values are alike when their canonical forms are
the same value.
-/

namespace ExtractionContract

namespace Json

mutual

/-- Two values are equal but for the order of members, at any depth. -/
def Alike : Json → Json → Prop
  | arr vs, arr ws => AlikeItems vs ws
  | obj ms, obj ns => ∃ ns', ns'.Perm ns ∧ AlikeMembers ms ns'
  | v, w => v = w

/-- `Json.Alike` of items place by place. -/
def AlikeItems : List Json → List Json → Prop
  | [], [] => True
  | v :: vs, w :: ws => Alike v w ∧ AlikeItems vs ws
  | _, _ => False

/-- Members have the same keys and `Json.Alike` values, place by place. -/
def AlikeMembers : List (String × Json) → List (String × Json) → Prop
  | [], [] => True
  | (k, v) :: ms, (l, w) :: ns => k = l ∧ Alike v w ∧ AlikeMembers ms ns
  | _, _ => False

end

/-! ### Canonical members -/

theorem canonicalMembers_eq_map (ms : List (String × Json)) :
    canonicalMembers ms = ms.map fun m => (m.1, m.2.canonical) := by
  induction ms with
  | nil => rfl
  | cons m rest ih => rw [canonicalMembers, ih, List.map_cons]

theorem keys_canonicalMembers (ms : List (String × Json)) :
    Members.keys (canonicalMembers ms) = Members.keys ms := by
  rw [canonicalMembers_eq_map, Members.keys, Members.keys, List.map_map]
  rfl

theorem keyLe_trans (a b c : String × Json) (hab : keyLe a b = true) (hbc : keyLe b c = true) :
    keyLe a c = true := by
  simp only [keyLe, decide_eq_true_eq] at *
  exact le_trans hab hbc

theorem keyLe_total (a b : String × Json) : (keyLe a b || keyLe b a) = true := by
  simp only [keyLe, Bool.or_eq_true, decide_eq_true_eq]
  exact le_total a.1 b.1

/-- **Members with distinct keys have one canonical order.** -/
theorem mergeSort_keyLe_eq {ms ns : List (String × Json)} (hkeys : (Members.keys ms).Nodup)
    (h : ms.Perm ns) : ms.mergeSort keyLe = ns.mergeSort keyLe := by
  have hperm : (ms.mergeSort keyLe).Perm (ns.mergeSort keyLe) :=
    (List.mergeSort_perm ms keyLe).trans (h.trans (List.mergeSort_perm ns keyLe).symm)
  refine List.Perm.eq_of_pairwise ?_ (List.pairwise_mergeSort keyLe_trans keyLe_total ms)
    (List.pairwise_mergeSort keyLe_trans keyLe_total ns) hperm
  intro a b ha hb hab hba
  have ha' : a ∈ ms := List.mem_mergeSort.mp ha
  have hb' : b ∈ ms := h.mem_iff.mpr (List.mem_mergeSort.mp hb)
  simp only [keyLe, decide_eq_true_eq] at hab hba
  exact List.inj_on_of_nodup_map hkeys ha' hb' (le_antisymm hab hba)

/-! ### Alike values have one canonical form -/

mutual

theorem canonical_eq_of_alike : ∀ {v w : Json}, v.Distinct → w.Distinct → Alike v w →
    v.canonical = w.canonical
  | arr vs, arr ws, hv, hw, h => by
    rw [canonical, canonical, canonicalItems_eq_of_alike hv hw h]
  | obj ms, obj ns, hv, hw, h => by
    obtain ⟨ns', hperm, halike⟩ := h
    have hns' : DistinctMembers ns' := by
      rw [distinctMembers_iff]
      exact fun m hm => hw.member (hperm.subset hm)
    -- `ns'` are the members of `ns` in the order of `ms`, and sorting undoes the order.
    have hsame : canonicalMembers ms = canonicalMembers ns' :=
      canonicalMembers_eq_of_alike hv.2 hns' halike
    have hcanonical : (canonicalMembers ms).Perm (canonicalMembers ns) := by
      rw [hsame, canonicalMembers_eq_map, canonicalMembers_eq_map]
      exact hperm.map _
    rw [canonical, canonical, mergeSort_keyLe_eq _ hcanonical]
    rw [keys_canonicalMembers]
    exact hv.nodup_keys
  | null, _, _, _, h | bool _, _, _, _, h | num _, _, _, _, h | str _, _, _, _, h => by
    cases h
    rfl
  | arr _, null, _, _, h | arr _, bool _, _, _, h | arr _, num _, _, _, h | arr _, str _, _, _, h
  | arr _, obj _, _, _, h | obj _, null, _, _, h | obj _, bool _, _, _, h | obj _, num _, _, _, h
  | obj _, str _, _, _, h | obj _, arr _, _, _, h => by cases h

theorem canonicalItems_eq_of_alike : ∀ {vs ws : List Json}, DistinctItems vs → DistinctItems ws →
    AlikeItems vs ws → canonicalItems vs = canonicalItems ws
  | [], [], _, _, _ => rfl
  | v :: vs, w :: ws, hv, hw, h => by
    rw [canonicalItems, canonicalItems, canonical_eq_of_alike hv.1 hw.1 h.1,
      canonicalItems_eq_of_alike hv.2 hw.2 h.2]

theorem canonicalMembers_eq_of_alike : ∀ {ms ns : List (String × Json)}, DistinctMembers ms →
    DistinctMembers ns → AlikeMembers ms ns → canonicalMembers ms = canonicalMembers ns
  | [], [], _, _, _ => rfl
  | (k, v) :: ms, (l, w) :: ns, hv, hw, h => by
    rw [canonicalMembers, canonicalMembers, h.1, canonical_eq_of_alike hv.1 hw.1 h.2.1,
      canonicalMembers_eq_of_alike hv.2 hw.2 h.2.2]

end

/-! ### Values of one canonical form are alike -/

mutual

theorem alike_of_canonical_eq : ∀ {v w : Json}, v.canonical = w.canonical → Alike v w
  | arr vs, arr ws, h => alikeItems_of_canonicalItems_eq (arr.inj h)
  | obj ms, obj ns, h => by
    have hperm : (canonicalMembers ms).Perm (canonicalMembers ns) := by
      refine (List.mergeSort_perm _ keyLe).symm.trans ?_
      rw [obj.inj h]
      exact List.mergeSort_perm _ keyLe
    rw [canonicalMembers_eq_map ns] at hperm
    -- The members of the second object, in the order of the first.
    obtain ⟨ns', hns', hns⟩ := (congr_fun₂ (List.eq_map_comp_perm fun m : String × Json =>
      (m.1, m.2.canonical)) (canonicalMembers ms) ns).mpr hperm
    rw [← canonicalMembers_eq_map] at hns'
    exact ⟨ns', hns, alikeMembers_of_canonicalMembers_eq hns'⟩
  | null, null, _ => rfl
  | bool _, bool _, h => congrArg bool (bool.inj h)
  | num _, num _, h => congrArg num (num.inj h)
  | str _, str _, h => congrArg str (str.inj h)

theorem alikeItems_of_canonicalItems_eq : ∀ {vs ws : List Json},
    canonicalItems vs = canonicalItems ws → AlikeItems vs ws
  | [], [], _ => trivial
  | _ :: _, _ :: _, h =>
    ⟨alike_of_canonical_eq (List.cons.inj h).1, alikeItems_of_canonicalItems_eq (List.cons.inj h).2⟩

theorem alikeMembers_of_canonicalMembers_eq : ∀ {ms ns : List (String × Json)},
    canonicalMembers ms = canonicalMembers ns → AlikeMembers ms ns
  | [], [], _ => trivial
  | (_, _) :: _, (_, _) :: _, h =>
    ⟨(Prod.mk.inj (List.cons.inj h).1).1, alike_of_canonical_eq (Prod.mk.inj (List.cons.inj h).1).2,
      alikeMembers_of_canonicalMembers_eq (List.cons.inj h).2⟩

end

/-- **The canonical order decides** whether values with distinct keys differ in the order of
members only. -/
theorem alike_iff_canonical_eq {v w : Json} (hv : v.Distinct) (hw : w.Distinct) :
    Alike v w ↔ v.canonical = w.canonical :=
  ⟨canonical_eq_of_alike hv hw, alike_of_canonical_eq⟩

/-! ### Objects with one list of keys -/

theorem keys_eq_of_alikeMembers : ∀ {ms ns : List (String × Json)}, AlikeMembers ms ns →
    Members.keys ms = Members.keys ns
  | [], [], _ => rfl
  | (_, _) :: _, (_, _) :: _, h =>
    congrArg₂ List.cons h.1 (keys_eq_of_alikeMembers h.2.2)

/-- Members with distinct keys stand in one order once their keys do. -/
theorem eq_of_perm_of_keys_eq {ms ns : List (String × Json)} (hms : (Members.keys ms).Nodup)
    (hkeys : Members.keys ms = Members.keys ns) (h : ms.Perm ns) : ms = ns := by
  induction ms generalizing ns with
  | nil => exact (List.nil_perm.mp h).symm
  | cons m ms ih =>
    cases ns with
    | nil => exact absurd h (List.not_perm_cons_nil)
    | cons n ns =>
      obtain ⟨hkey, hrest⟩ := List.cons.inj hkeys
      have hn : n ∈ m :: ms := h.mem_iff.mpr List.mem_cons_self
      obtain rfl := List.inj_on_of_nodup_map hms List.mem_cons_self hn hkey
      rw [ih hms.of_cons hrest (List.Perm.cons_inv h)]

/-- **Objects that name the same keys in the same order** are alike when their members are. -/
theorem alike_obj_iff {ms ns : List (String × Json)} (hms : (Members.keys ms).Nodup)
    (hkeys : Members.keys ms = Members.keys ns) :
    Alike (obj ms) (obj ns) ↔ AlikeMembers ms ns := by
  refine ⟨?_, fun h => ⟨ns, .refl ns, h⟩⟩
  rintro ⟨ns', hperm, h⟩
  have hkeys' := keys_eq_of_alikeMembers h
  rwa [eq_of_perm_of_keys_eq (hkeys' ▸ hms) (hkeys'.symm.trans hkeys) hperm] at h

end Json

end ExtractionContract
