import ExtractionContract.Field.Codec
import Mathlib.Data.List.Basic

/-!
# Reading stored records

A record is stored as the concatenation of a few lists of members, some of which are empty
because the member is left out. What reading makes of the whole follows from what it makes of
each part: `Fills` says which record comes of another when some members are read, and goes
together along the concatenation.

* `Fills.append`: the parts are read one after the other.
* `Fills.optional`: a member that may be left out.
* `read_obj`: an object with all the members that must be given is read as what they fill.
* `asList_map`: so is a list of records.
-/

namespace ExtractionContract

namespace Json

/-- A list of values is read item by item. -/
theorem asList_map {α β : Type} {read : Json → Shaped β} {write : α → Json} {back : α → β}
    {xs : List α} (h : ∀ x ∈ xs, read (write x) = .ok (back x)) :
    asList read (.arr (xs.map write)) = .ok (xs.map back) := by
  rw [asList]
  induction xs with
  | nil => rfl
  | cons x xs ih =>
    obtain ⟨hx, hxs⟩ := List.forall_mem_cons.mp h
    rw [List.map_cons, List.mapM_cons, hx, ih hxs]
    rfl

namespace RecordShape

/-- Reading some members makes one record of another. -/
def Fills {α : Type} (shape : RecordShape α) (a : α) (ms : List (String × Json)) (b : α) : Prop :=
  shape.readMembers a ms = .ok b

variable {α β γ : Type} {shape : RecordShape α} {a b c : α} {ms ms' : List (String × Json)}
  {key : String}

/-- Members are read one after the other. A key without a slot is passed over. -/
theorem Fills.append (h : Fills shape a ms b) (h' : Fills shape b ms' c) :
    Fills shape a (ms ++ ms') c := by
  unfold Fills at h h' ⊢
  induction ms generalizing a with
  | nil =>
    cases h
    exact h'
  | cons m ms ih =>
    obtain ⟨k, v⟩ := m
    rw [readMembers] at h
    rw [List.cons_append, readMembers]
    split at h
    · exact ih h
    · split at h
      · exact ih h
      · cases h

theorem Fills.nil : Fills shape a [] a := rfl

/-- One member, read by the slot of its key, and others after it. -/
theorem Fills.cons {need : Need} {read : Json → Shaped γ} {put : γ → α → α} {v : Json} {y : γ}
    (hslot : shape.slot? key = some (.of key need read put)) (hread : read v = .ok y)
    (h : Fills shape (put y a) ms b) : Fills shape a ((key, v) :: ms) b := by
  have hupdate : (Slot.of key need read put).read v = .ok (put y) :=
    congrArg (Except.map put) hread
  unfold Fills at h ⊢
  simp only [readMembers, hslot, hupdate, h]

/-- A member that may be left out. Left out, it is read as what the record has anyhow. -/
theorem Fills.optional {x : Option β} {write : β → Json} {need : Need} {read : Json → Shaped γ}
    {put : γ → α → α} {y : γ} (hslot : shape.slot? key = some (.of key need read put))
    (hnone : x = none → put y a = a) (hsome : ∀ b, x = some b → read (write b) = .ok y) :
    Fills shape a (optionalMember key (x.map write)) (put y a) := by
  cases x with
  | none =>
    rw [hnone rfl]
    exact .nil
  | some b => exact .cons hslot (hsome b rfl) .nil

/-- **An object is read as the record that its members fill**, where none that must be given is
missing. -/
theorem read_obj (h : Fills shape shape.blank ms a)
    (hall : ∀ s ∈ shape.slots, s.need = .always → s.key ∈ Members.keys ms) :
    shape.read (.obj ms) = .ok a := by
  have hmissing : (shape.slots.find? fun s => s.need == .always && (ms.lookup s.key).isNone) =
      none := by
    rw [List.find?_eq_none]
    intro s hs hbad
    simp only [Bool.and_eq_true, beq_iff_eq, Option.isNone_iff_eq_none] at hbad
    obtain ⟨m, hm, hkey⟩ := List.mem_map.mp (hall s hs hbad.1)
    have hne := List.lookup_eq_none_iff.mp hbad.2 m hm
    simp [hkey] at hne
  simp only [read, show shape.readMembers shape.blank ms = .ok a from h, hmissing]

end RecordShape

end Json

end ExtractionContract
