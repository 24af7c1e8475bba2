import ExtractionContract.Proofs.Decimal.Bounds
import ExtractionContract.Proofs.Json.Distinct
import ExtractionContract.Proofs.Json.Grammar

/-!
# What a document can say

Two things are true of every value that is read from a text: its objects name each key once,
and its numbers are finite. Both are properties that every reading step keeps.

* `Readings.parse`: what has been read has every property of that kind.
* `readings_finite`, `readings_distinct`: the two properties are of that kind.
* `finite_canonical`: the canonical order keeps numbers finite.
-/

namespace ExtractionContract

/-- Whether a number is neither an infinity nor no number at all. -/
def Number.isFinite : Number → Bool
  | .int _ => true
  | .real x => x.isFinite

namespace Binary64

theorem magnitude_ofMagnitude {negative : Bool} {m : Nat} (h : m < infinityMagnitude) :
    (ofMagnitude negative m).magnitude = m := by
  have hm : m < 2 ^ 63 := h.trans (by decide)
  have hsign : signWeight = 2 ^ 63 := rfl
  have hword : m + (if negative then signWeight else 0) < 2 ^ 64 := by
    rw [hsign]
    split <;> omega
  rw [ofMagnitude, magnitude, UInt64.toNat_ofNat_of_lt' hword, hsign]
  split <;> omega

theorem isFinite_ofMagnitude {negative : Bool} {m : Nat} (h : m < infinityMagnitude) :
    (ofMagnitude negative m).isFinite = true := by
  rw [isFinite, magnitude_ofMagnitude h, decide_eq_true_eq]
  exact h

end Binary64

namespace Json

open Decimal Text

/-! ### Numbers are finite -/

section

variable {negative down : Bool} {s : Scaled} {ds cs rest : List Char} {n : Number}

theorem isFinite_of_realNumber? (hs : s.significand ≤ wordLimit)
    (h : realNumber? negative s = some n) : n.isFinite = true := by
  obtain ⟨m, hm, rfl⟩ := Option.map_eq_some_iff.mp h
  exact Binary64.isFinite_ofMagnitude (Scaled.magnitude?_lt hs hm)

theorem isFinite_of_wholeNumber? (h : wholeNumber? negative ds = some n) : n.isFinite = true := by
  unfold wholeNumber? at h
  split at h
  · exact isFinite_of_realNumber? (Scaled.significand_ofDigits ds []) h
  · next hfits =>
    split at h
    · split at h
      · cases h
        refine Binary64.isFinite_ofMagnitude ?_
        exact lt_of_le_of_lt (Scaled.modest_roundRatio (Nat.le_of_not_lt hfits)) (by decide)
      · cases h
        rfl
    · cases h
      rfl

theorem isFinite_of_exponentNumber? (hs : s.significand ≤ wordLimit)
    (h : exponentNumber? negative s down ds = some n) : n.isFinite = true := by
  unfold exponentNumber? at h
  split at h
  · split at h
    · cases h
      exact Binary64.isFinite_ofMagnitude (by decide)
    · cases h
  · -- The exponent has changed, and the significand has not.
    refine isFinite_of_realNumber? ?_ h
    exact hs

theorem isFinite_of_exponentStep (hs : s.significand ≤ wordLimit)
    (h : exponentStep negative s cs = .ok (n, rest)) : n.isFinite = true := by
  obtain ⟨ds, -, -, hn⟩ := exponentStep_eq_ok.mp h
  exact isFinite_of_exponentNumber? hs hn

theorem isFinite_of_numberTail (hs : s.significand ≤ wordLimit)
    (h : numberTail negative s cs = .ok (n, rest)) : n.isFinite = true := by
  unfold numberTail at h
  split at h
  · exact isFinite_of_exponentStep hs h
  · exact isFinite_of_exponentStep hs h
  · exact isFinite_of_realNumber? hs (realStep_eq_ok.mp h).1

theorem isFinite_of_afterWhole (h : afterWhole negative ds cs = .ok (n, rest)) :
    n.isFinite = true := by
  unfold afterWhole at h
  split at h
  · split at h
    · simp [stopAtEnd] at h
    · simp [stopAt] at h
    · exact isFinite_of_numberTail (Scaled.significand_ofDigits _ _) h
  · exact isFinite_of_exponentStep (Scaled.significand_ofDigits _ _) h
  · exact isFinite_of_exponentStep (Scaled.significand_ofDigits _ _) h
  · exact isFinite_of_wholeNumber? (wholeStep_eq_ok.mp h).1

theorem isFinite_of_unsignedNumber (h : unsignedNumber negative cs = .ok (n, rest)) :
    n.isFinite = true := by
  unfold unsignedNumber at h
  split at h
  · simp [stopAtEnd] at h
  · simp [stopAt] at h
  · simp [stopAt] at h
  · exact isFinite_of_afterWhole h

/-- **A number that has been read is finite.** -/
theorem isFinite_of_number (h : number cs = .ok (n, rest)) : n.isFinite = true := by
  unfold number at h
  split at h <;> exact isFinite_of_unsignedNumber h

end

theorem ReadsAs.isFinite {w : List Char} {n : Number} (h : ReadsAs number w n) :
    n.isFinite = true :=
  isFinite_of_number (h [] rfl)

/-! ### Properties of values that are read -/

/-- A property of all values of a phrase. -/
def Phrase.Forall (P : Json → Prop) : Phrase → Prop
  | .value v => P v
  | .items vs => ∀ v ∈ vs, P v
  | .members ms => ∀ m ∈ ms, P m.2

/-- A property that every reading step keeps: it holds of words, finite numbers and strings, of
arrays of values that have it, and of objects, their keys collapsed, of values that have it. -/
structure Readings (P : Json → Prop) : Prop where
  null : P null
  bool : ∀ b, P (bool b)
  num : ∀ n, n.isFinite = true → P (num n)
  str : ∀ s, P (str s)
  arr : ∀ vs, (∀ v ∈ vs, P v) → P (arr vs)
  obj : ∀ ms, (Members.keys ms).Nodup → (∀ m ∈ ms, P m.2) → P (obj ms)

theorem Readings.says {P : Json → Prop} (hP : Readings P) {w : List Char} {v : Json}
    (h : Says w v) : P v := by
  cases h with
  | null => exact hP.null
  | truth => exact hP.bool true
  | falsity => exact hP.bool false
  | number _ hread => exact hP.num _ hread.isFinite

theorem Readings.spells {P : Json → Prop} (hP : Readings P) {d : Nat} {ts : List Token}
    {phrase : Phrase} (h : Spells d ts phrase) : phrase.Forall P := by
  induction h with
  | string _ => exact hP.str _
  | scalar hw => exact hP.says hw
  | emptyArray => exact hP.arr [] (List.forall_mem_nil _)
  | array _ ih => exact hP.arr _ ih
  | emptyObject => exact hP.obj [] List.nodup_nil (List.forall_mem_nil _)
  | object _ ih =>
    exact hP.obj _ (Members.nodup_keys_collapse _) (forall_mem_collapse ih)
  | lastItem _ ih => exact List.forall_mem_singleton.mpr ih
  | item _ _ ih ihs => exact List.forall_mem_cons.mpr ⟨ih, ihs⟩
  | lastMember _ _ ih => exact List.forall_mem_singleton.mpr ih
  | member _ _ _ ih ihs => exact List.forall_mem_cons.mpr ⟨ih, ihs⟩

/-- **What has been read has every property that reading keeps.** -/
theorem Readings.parse {P : Json → Prop} (hP : Readings P) {s : String} {v : Json}
    (h : parse s = .ok v) : P v := by
  obtain ⟨ts, hts, -⟩ := parse_eq_ok.mp h
  exact hP.spells hts

/-! ### Values with finite numbers -/

mutual

/-- The numbers of a value are finite. -/
def Finite : Json → Prop
  | num n => n.isFinite = true
  | arr items => FiniteItems items
  | obj members => FiniteMembers members
  | _ => True

/-- `Json.Finite` of every item. -/
def FiniteItems : List Json → Prop
  | [] => True
  | v :: rest => Finite v ∧ FiniteItems rest

/-- `Json.Finite` of every member's value. -/
def FiniteMembers : List (String × Json) → Prop
  | [] => True
  | (_, v) :: rest => Finite v ∧ FiniteMembers rest

end

theorem finiteItems_iff (vs : List Json) : FiniteItems vs ↔ ∀ v ∈ vs, v.Finite := by
  induction vs with
  | nil => exact iff_of_true trivial (List.forall_mem_nil _)
  | cons v rest ih => rw [FiniteItems, ih, List.forall_mem_cons]

theorem finiteMembers_iff (ms : List (String × Json)) :
    FiniteMembers ms ↔ ∀ m ∈ ms, m.2.Finite := by
  induction ms with
  | nil => exact iff_of_true trivial (List.forall_mem_nil _)
  | cons m rest ih => rw [FiniteMembers, ih, List.forall_mem_cons]

theorem readings_finite : Readings Finite where
  null := trivial
  bool _ := trivial
  num _ h := h
  str _ := trivial
  arr vs h := (finiteItems_iff vs).mpr h
  obj ms _ h := (finiteMembers_iff ms).mpr h

theorem readings_distinct : Readings Distinct where
  null := trivial
  bool _ := trivial
  num _ _ := trivial
  str _ := trivial
  arr vs h := (distinctItems_iff vs).mpr h
  obj ms hkeys h := ⟨hkeys, (distinctMembers_iff ms).mpr h⟩

/-! ### Canonical order -/

mutual

/-- **The canonical order keeps numbers finite.** -/
theorem finite_canonical : ∀ {v : Json}, v.Finite → v.canonical.Finite
  | null, h | bool _, h | num _, h | str _, h => h
  | arr items, h => by
    rw [canonical, Finite, finiteItems_iff]
    exact finite_canonicalItems h
  | obj members, h => by
    rw [canonical, Finite, finiteMembers_iff]
    exact fun m hm => finite_canonicalMembers h m (List.mem_mergeSort.mp hm)

theorem finite_canonicalItems : ∀ {vs : List Json}, FiniteItems vs →
    ∀ v ∈ canonicalItems vs, v.Finite
  | [], _ => List.forall_mem_nil _
  | v :: rest, h => by
    rw [canonicalItems, List.forall_mem_cons]
    exact ⟨finite_canonical h.1, finite_canonicalItems h.2⟩

theorem finite_canonicalMembers : ∀ {ms : List (String × Json)}, FiniteMembers ms →
    ∀ m ∈ canonicalMembers ms, m.2.Finite
  | [], _ => List.forall_mem_nil _
  | (_, v) :: rest, h => by
    rw [canonicalMembers, List.forall_mem_cons]
    exact ⟨finite_canonical h.1, finite_canonicalMembers h.2⟩

end

end Json

end ExtractionContract
