import ExtractionContract.Proofs.Json.Collapse

/-!
# Values in which keys are distinct

The objects of a document that has been read hold each key once. `Json.Distinct` says so of a
value and of everything in it; every value that `Json.collapse` makes is of this form
(`distinct_collapse`), so that asking for it excludes no document.
-/

namespace ExtractionContract

namespace Json

mutual

/-- Every object names each key once, at any depth. -/
def Distinct : Json → Prop
  | arr items => DistinctItems items
  | obj members => (Members.keys members).Nodup ∧ DistinctMembers members
  | _ => True

/-- `Json.Distinct` of every item. -/
def DistinctItems : List Json → Prop
  | [] => True
  | v :: rest => Distinct v ∧ DistinctItems rest

/-- `Json.Distinct` of every member's value. -/
def DistinctMembers : List (String × Json) → Prop
  | [] => True
  | (_, v) :: rest => Distinct v ∧ DistinctMembers rest

end

theorem distinctItems_iff (vs : List Json) : DistinctItems vs ↔ ∀ v ∈ vs, v.Distinct := by
  induction vs with
  | nil => exact iff_of_true trivial (List.forall_mem_nil _)
  | cons v rest ih => rw [DistinctItems, ih, List.forall_mem_cons]

theorem distinctMembers_iff (ms : List (String × Json)) :
    DistinctMembers ms ↔ ∀ m ∈ ms, m.2.Distinct := by
  induction ms with
  | nil => exact iff_of_true trivial (List.forall_mem_nil _)
  | cons m rest ih => rw [DistinctMembers, ih, List.forall_mem_cons]

/-! ### One level -/

theorem Distinct.nodup_keys {ms : List (String × Json)} (h : (obj ms).Distinct) :
    (Members.keys ms).Nodup :=
  h.1

theorem Distinct.member {ms : List (String × Json)} (h : (obj ms).Distinct)
    {m : String × Json} (hm : m ∈ ms) : m.2.Distinct :=
  (distinctMembers_iff ms).mp h.2 m hm

theorem Distinct.item {vs : List Json} (h : (arr vs).Distinct) {v : Json} (hv : v ∈ vs) :
    v.Distinct :=
  (distinctItems_iff vs).mp h v hv

/-! ### Collapsed values -/

/-- Values that are left when keys repeat were there before. -/
theorem forall_mem_collapse {P : Json → Prop} {ms : List (String × Json)}
    (h : ∀ m ∈ ms, P m.2) : ∀ m ∈ Members.collapse ms, P m.2 := by
  have halike : List.Forall₂ (Members.Alike fun v (_ : Json) => P v) ms ms :=
    List.forall₂_same.mpr fun m hm => ⟨rfl, h m hm⟩
  intro m hm
  obtain ⟨-, hP⟩ := List.forall₂_same.mp (Members.forall₂_collapse halike) m hm
  exact hP

mutual

/-- **A collapsed value holds each key once**, at any depth. -/
theorem distinct_collapse : ∀ v : Json, v.collapse.Distinct
  | null | bool _ | num _ | str _ => trivial
  | arr items => by
    rw [collapse, Distinct, distinctItems_iff]
    exact distinct_collapseItems items
  | obj members => by
    rw [collapse, Distinct, distinctMembers_iff]
    exact ⟨Members.nodup_keys_collapse _,
      forall_mem_collapse (distinct_collapseMembers members)⟩

theorem distinct_collapseItems : ∀ vs : List Json, ∀ v ∈ collapseItems vs, v.Distinct
  | [] => List.forall_mem_nil _
  | v :: rest => by
    rw [collapseItems, List.forall_mem_cons]
    exact ⟨distinct_collapse v, distinct_collapseItems rest⟩

theorem distinct_collapseMembers :
    ∀ ms : List (String × Json), ∀ m ∈ collapseMembers ms, m.2.Distinct
  | [] => List.forall_mem_nil _
  | (_, v) :: rest => by
    rw [collapseMembers, List.forall_mem_cons]
    exact ⟨distinct_collapse v, distinct_collapseMembers rest⟩

end

end Json

end ExtractionContract
