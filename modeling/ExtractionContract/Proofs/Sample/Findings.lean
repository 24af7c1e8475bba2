import ExtractionContract.Sample.Inference
import Mathlib.Data.List.Basic

/-!
# The layout of findings

The findings of a sample are laid out depth first, and each names its parent by place. Two
facts about the layout carry everything that is proved about inferred fields:

* `parent_findMembers`: what is found in the members of an object names the given parent or a
  place of the layout that stands before it.
* `childrenAt_findMembers`, `childrenAt_findMembers_spot`: the findings that name the given
  parent are those of the members themselves, one for each and in order; and the findings that
  name one of these are found directly below it. A `Spot` is a member with its place.

Both are by recursion on the sample. Keys play no part, so they hold whatever clashes there
are between them.
-/

namespace ExtractionContract

/-- The parent of a finding that stands at a place, given the parent of the findings at the top
and the place where the layout begins: the given one, or a place before its own. -/
def ParentBefore (parent : Option Nat) (start : Nat) (x : Finding × Nat) : Prop :=
  x.1.parent = parent ∨ ∃ p, x.1.parent = some p ∧ start ≤ p ∧ p < x.2

theorem ParentBefore.mono {parent : Option Nat} {start start' : Nat} {x : Finding × Nat}
    (h : ParentBefore parent start' x) (hstart : start ≤ start') :
    ParentBefore parent start x :=
  h.imp_right fun ⟨p, hp, hle, hlt⟩ => ⟨p, hp, Nat.le_trans hstart hle, hlt⟩

/-- Below a place, the given parent is itself a place of the layout. -/
theorem ParentBefore.below {place : Nat} {parent : Option Nat} {x : Finding × Nat}
    (h : ParentBefore (some place) (place + 1) x) (hx : place < x.2) :
    ParentBefore parent place x := by
  rcases h with hp | ⟨p, hp, hle, hlt⟩
  · exact .inr ⟨place, hp, Nat.le_refl place, hx⟩
  · exact .inr ⟨p, hp, by omega, hlt⟩

/-- The layout of an object's members: the first member, what is below it, and the rest. -/
theorem zipIdx_findMembers_cons (parentKey : String) (inItem : Bool) (parent : Option Nat)
    (place : Nat) (key : String) (v : Json) (rest : List (String × Json)) :
    (findMembers parentKey inItem parent place ((key, v) :: rest)).zipIdx place =
      (findMember parentKey inItem parent key v, place) ::
        ((findBelow (joinKey parentKey key) inItem place v).zipIdx (place + 1) ++
          (findMembers parentKey inItem parent
            (place + 1 + (findBelow (joinKey parentKey key) inItem place v).length)
            rest).zipIdx
              (place + 1 + (findBelow (joinKey parentKey key) inItem place v).length)) := by
  rw [findMembers, List.cons_append, List.zipIdx_cons, List.zipIdx_append]

mutual

/-- **Parents stand before their children.** -/
theorem parent_findMembers (parentKey : String) (inItem : Bool) (parent : Option Nat)
    (place : Nat) : ∀ members : List (String × Json),
    ∀ x ∈ (findMembers parentKey inItem parent place members).zipIdx place,
      ParentBefore parent place x
  | [] => fun x hx => absurd hx List.not_mem_nil
  | (key, v) :: rest => by
    intro x hx
    rw [zipIdx_findMembers_cons, List.mem_cons, List.mem_append] at hx
    rcases hx with rfl | hbelow | hrest
    · exact .inl rfl
    · exact (parent_findBelow (joinKey parentKey key) inItem place v x hbelow).below
        (List.le_snd_of_mem_zipIdx hbelow)
    · exact (parent_findMembers parentKey inItem parent _ rest x hrest).mono (by omega)

/-- What is found below a place names it, or a later place before its own. -/
theorem parent_findBelow (key : String) (inItem : Bool) (place : Nat) : ∀ v : Json,
    ∀ x ∈ (findBelow key inItem place v).zipIdx (place + 1),
      ParentBefore (some place) (place + 1) x
  | .obj members => parent_findMembers key inItem (some place) (place + 1) members
  | .arr (.obj members :: tail) => by
    rw [findBelow]
    split
    · exact fun x hx => absurd hx List.not_mem_nil
    · exact parent_findMembers key true (some place) (place + 1) members
  | .null | .bool _ | .num _ | .str _ | .arr [] | .arr (.null :: _) | .arr (.bool _ :: _)
  | .arr (.num _ :: _) | .arr (.str _ :: _) | .arr (.arr _ :: _) =>
    fun x hx => absurd hx List.not_mem_nil

end

/-! ### The findings with a given parent -/

/-- The findings that name a parent, of some that stand at places. -/
def childrenAt (parent : Option Nat) (placed : List (Finding × Nat)) : List (Finding × Nat) :=
  placed.filter fun x => x.1.parent = parent

theorem childrenAt_eq_nil {parent : Option Nat} {placed : List (Finding × Nat)}
    (h : ∀ x ∈ placed, x.1.parent ≠ parent) : childrenAt parent placed = [] :=
  List.filter_eq_nil_iff.mpr fun x hx => by simpa using h x hx

theorem childrenAt_append (parent : Option Nat) (xs ys : List (Finding × Nat)) :
    childrenAt parent (xs ++ ys) = childrenAt parent xs ++ childrenAt parent ys :=
  List.filter_append xs ys

theorem childrenAt_cons_of_eq {parent : Option Nat} {d : Finding} (h : d.parent = parent)
    (place : Nat) (xs : List (Finding × Nat)) :
    childrenAt parent ((d, place) :: xs) = (d, place) :: childrenAt parent xs :=
  List.filter_cons_of_pos (decide_eq_true h)

theorem childrenAt_cons_of_ne {parent : Option Nat} {d : Finding} (h : d.parent ≠ parent)
    (place : Nat) (xs : List (Finding × Nat)) :
    childrenAt parent ((d, place) :: xs) = childrenAt parent xs :=
  List.filter_cons_of_neg (by simpa using h)

/-- A member of an object with the place of its finding. -/
structure Spot where
  place : Nat
  key : String
  value : Json

/-- The members of an object with the places of their findings. -/
def spots (parentKey : String) (inItem : Bool) : Nat → List (String × Json) → List Spot
  | _, [] => []
  | place, (key, v) :: rest =>
    ⟨place, key, v⟩ :: spots parentKey inItem
      (place + 1 + (findBelow (joinKey parentKey key) inItem place v).length) rest

theorem map_spots (parentKey : String) (inItem : Bool) (place : Nat)
    (members : List (String × Json)) :
    (spots parentKey inItem place members).map (fun s => (s.key, s.value)) = members := by
  induction members generalizing place with
  | nil => rfl
  | cons m rest ih => rw [spots, List.map_cons, ih]

theorem le_place_of_mem_spots {parentKey : String} {inItem : Bool} {place : Nat}
    {members : List (String × Json)} {s : Spot} (hs : s ∈ spots parentKey inItem place members) :
    place ≤ s.place := by
  induction members generalizing place with
  | nil => exact absurd hs List.not_mem_nil
  | cons m rest ih =>
    rw [spots, List.mem_cons] at hs
    rcases hs with rfl | hs
    · exact Nat.le_refl place
    · have := ih hs
      omega

section

variable (parentKey : String) (inItem : Bool) {parent : Option Nat} {place : Nat}
  (hparent : ∀ p, parent = some p → p < place)

include hparent

/-- Nothing below a place names a parent that stands before the place. -/
theorem childrenAt_findBelow_eq_nil (key : String) (v : Json) :
    childrenAt parent ((findBelow key inItem place v).zipIdx (place + 1)) = [] := by
  refine childrenAt_eq_nil ?_
  intro x hx hxp
  rcases parent_findBelow key inItem place v x hx with h | ⟨p, h, hle, -⟩
  · exact absurd (hparent place (hxp.symm.trans h)) (Nat.lt_irrefl place)
  · have := hparent p (hxp.symm.trans h)
    omega

/-- **The findings that name the given parent** are those of the members, in order. -/
theorem childrenAt_findMembers (members : List (String × Json)) :
    childrenAt parent ((findMembers parentKey inItem parent place members).zipIdx place) =
      (spots parentKey inItem place members).map fun s =>
        (findMember parentKey inItem parent s.key s.value, s.place) := by
  induction members generalizing place with
  | nil => rfl
  | cons m rest ih =>
    obtain ⟨key, v⟩ := m
    -- The first finding names the parent, nothing below it does, and the rest is by induction.
    have hrest : ∀ p, parent = some p →
        p < place + 1 + (findBelow (joinKey parentKey key) inItem place v).length :=
      fun p hp => by have := hparent p hp; omega
    have htop : (findMember parentKey inItem parent key v).parent = parent := rfl
    rw [zipIdx_findMembers_cons, childrenAt_cons_of_eq htop, childrenAt_append,
      childrenAt_findBelow_eq_nil inItem hparent, List.nil_append, ih hrest, spots,
      List.map_cons]

/-- **The findings that name a member's finding** are found directly below it. -/
theorem childrenAt_findMembers_spot {members : List (String × Json)} {s : Spot}
    (hs : s ∈ spots parentKey inItem place members) :
    childrenAt (some s.place)
        ((findMembers parentKey inItem parent place members).zipIdx place) =
      childrenAt (some s.place)
        ((findBelow (joinKey parentKey s.key) inItem s.place s.value).zipIdx (s.place + 1)) := by
  induction members generalizing place with
  | nil => exact absurd hs List.not_mem_nil
  | cons m rest ih =>
    obtain ⟨key, v⟩ := m
    have htop : (findMember parentKey inItem parent key v).parent ≠ some s.place := fun h =>
      absurd (hparent s.place h) (Nat.not_lt.mpr (le_place_of_mem_spots hs))
    rw [zipIdx_findMembers_cons, childrenAt_cons_of_ne htop, childrenAt_append]
    rw [spots, List.mem_cons] at hs
    rcases hs with rfl | hs
    · -- The rest names the given parent or places behind this one.
      have hrest : childrenAt (some place) ((findMembers parentKey inItem parent
          (place + 1 + (findBelow (joinKey parentKey key) inItem place v).length) rest).zipIdx
          (place + 1 + (findBelow (joinKey parentKey key) inItem place v).length)) = [] := by
        refine childrenAt_eq_nil ?_
        intro x hx hxp
        rcases parent_findMembers parentKey inItem parent _ rest x hx with h | ⟨p, h, hle, -⟩
        · exact htop (h.symm.trans hxp)
        · have : place = p := Option.some.inj (hxp.symm.trans h)
          omega
      rw [hrest, List.append_nil]
    · -- What is below the first member names places before this one.
      have hle := le_place_of_mem_spots hs
      have hbelow : childrenAt (some s.place)
          ((findBelow (joinKey parentKey key) inItem place v).zipIdx (place + 1)) = [] := by
        refine childrenAt_eq_nil ?_
        intro x hx hxp
        have hlt := List.snd_lt_add_of_mem_zipIdx hx
        rcases parent_findBelow _ inItem place v x hx with h | ⟨p, h, -, hp⟩
        · have : s.place = place := Option.some.inj (hxp.symm.trans h)
          omega
        · have : s.place = p := Option.some.inj (hxp.symm.trans h)
          omega
      rw [hbelow, List.nil_append]
      exact ih (fun p hp => by have := hparent p hp; omega) hs

end

end ExtractionContract
