import ExtractionContract.Import.Record
import Mathlib.Data.List.Nodup
import Mathlib.Data.List.Pairwise
import Mathlib.Logic.Function.Basic

/-!
# The order of an object's members

The members of an object are put into its record one after the other. A member fills one column, in
the way in which that column is read, and leaves all others as they are (`Record.value_set_ofCells`).
So the record is told by the last member of each column (`Record.value_ofMembers`), whatever stands
between them and whatever stands for no column. Where no two members stand for one column, the last
one is the only one, and the order of the members does not show.

* `Record.ofCells`: the record of the cells that stand in the columns, each column read by itself.
* `Record.ofMembers_of_perm`: the record of an object whose members do not clash.
-/

namespace ExtractionContract

namespace Record

/-- The record of the cells that stand in the columns. A column without a cell holds nothing. -/
def ofCells (cell : Column → Option Json) : Record where
  key := (cell .fieldKey).bind cellText
  name := (cell .fieldName).bind cellText
  outputName := (cell .dataName).bind cellText
  type := (cell .dataType).bind cellText
  required := (cell .isRequired).map isTruthy
  description := (cell .description).bind cellText
  sample := (cell .sample).bind cellText
  parentKey := (cell .parentFieldKey).bind cellText
  validation := (cell .validation).bind cellText
  normalization := (cell .normalization).bind cellText
  hint := (cell .promptHint).bind cellText
  threshold := (cell .threshold).bind fun v => (cellThreshold v).value

/-- The value of the last member that stands for a column. -/
def lastCell (headers : Headers) (members : List (String × Json)) (column : Column) : Option Json :=
  ((members.filter fun m => headers.resolve m.1 == some column).getLast?).map Prod.snd

variable {headers : Headers} {members members' : List (String × Json)} {column : Column} {v : Json}

/-! ### The last member of each column -/

/-- **A cell fills its column and no other.** -/
theorem value_set_ofCells (cell : Column → Option Json) (column : Column) (v : Json) :
    ((ofCells cell).set column v).value = ofCells (Function.update cell column (some v)) := by
  cases column <;> rfl

theorem lastCell_cons (headers : Headers) (m : String × Json) (members : List (String × Json))
    (column : Column) : lastCell headers (m :: members) column =
      (lastCell headers members column).or
        (if headers.resolve m.1 = some column then some m.2 else none) := by
  unfold lastCell
  by_cases h : headers.resolve m.1 = some column
  · rw [List.filter_cons_of_pos (by simpa using h), List.getLast?_cons, if_pos h]
    cases (members.filter fun m => headers.resolve m.1 == some column).getLast? <;> rfl
  · rw [List.filter_cons_of_neg (by simpa using h), if_neg h, Option.or_none]

/-- Members put into a record take the place of what the columns held. -/
theorem value_addMembers (headers : Headers) (members : List (String × Json))
    (cell : Column → Option Json) : (addMembers headers (ofCells cell) members).value =
      ofCells fun column => (lastCell headers members column).or (cell column) := by
  induction members generalizing cell with
  | nil => rfl
  | cons m rest ih =>
    obtain ⟨key, v⟩ := m
    rw [addMembers]
    cases hkey : headers.resolve key with
    | none =>
      refine (ih cell).trans (congrArg ofCells (funext fun column => ?_))
      rw [lastCell_cons, hkey, if_neg (by simp), Option.or_none]
    | some column =>
      -- A later member of the column takes the place of this one, which takes that of the cell.
      change (addMembers headers ((ofCells cell).set column v).value rest).value = _
      rw [value_set_ofCells, ih]
      refine congrArg ofCells (funext fun column' => ?_)
      rw [lastCell_cons, hkey, Option.or_assoc]
      by_cases h : column' = column
      · rw [h, Function.update_self, if_pos rfl, Option.some_or]
      · rw [Function.update_of_ne h, if_neg (by simpa using Ne.symm h), Option.none_or]

/-- **The record of an object** holds in each column what the last member for it says. -/
theorem value_ofMembers (headers : Headers) (members : List (String × Json)) :
    (ofMembers headers members).value = ofCells (lastCell headers members) := by
  refine (value_addMembers headers members fun _ => none).trans (congrArg ofCells (funext ?_))
  exact fun _ => Option.or_none

/-! ### Members that do not clash -/

/-- One member stands for a column. -/
theorem eq_of_resolve (hone : (members.filterMap fun m => headers.resolve m.1).Nodup)
    {m m' : String × Json} (hm : m ∈ members) (hm' : m' ∈ members)
    (h : headers.resolve m.1 = some column) (h' : headers.resolve m'.1 = some column) :
    m = m' := by
  by_contra hne
  have hclash := List.pairwise_filterMap.mp hone
  -- That two members clash does not depend on which of them comes first.
  have : Std.Symm fun a a' : String × Json => ∀ c, headers.resolve a.1 = some c →
      ∀ c', headers.resolve a'.1 = some c' → c ≠ c' :=
    ⟨fun _ _ h c hc c' hc' => (h c' hc' c hc).symm⟩
  exact hclash.forall hm hm' hne column h column h' rfl

/-- **What stands in a column** is the value of the one member that stands for it. -/
theorem lastCell_eq_some_iff (hone : (members.filterMap fun m => headers.resolve m.1).Nodup) :
    lastCell headers members column = some v ↔
      ∃ m ∈ members, headers.resolve m.1 = some column ∧ m.2 = v := by
  have hmem_iff : ∀ m, (m ∈ members.filter fun m => headers.resolve m.1 == some column) ↔
      m ∈ members ∧ headers.resolve m.1 = some column := by
    intro m
    rw [List.mem_filter, beq_iff_eq]
  rw [lastCell, Option.map_eq_some_iff]
  constructor
  · rintro ⟨m, hlast, rfl⟩
    obtain ⟨hm, hcolumn⟩ := (hmem_iff m).mp (List.mem_of_getLast? hlast)
    exact ⟨m, hm, hcolumn, rfl⟩
  · rintro ⟨m, hm, hcolumn, rfl⟩
    have hne := List.ne_nil_of_mem ((hmem_iff m).mpr ⟨hm, hcolumn⟩)
    have hlast := List.getLast?_eq_some_getLast hne
    obtain ⟨hm', hcolumn'⟩ := (hmem_iff _).mp (List.getLast_mem hne)
    -- The last member for the column is the only one.
    exact ⟨_, hlast, congrArg Prod.snd (eq_of_resolve hone hm' hm hcolumn' hcolumn)⟩

/-- Members for no column are not looked at. -/
theorem lastCell_filter (headers : Headers) (members : List (String × Json)) (column : Column) :
    lastCell headers (members.filter fun m => (headers.resolve m.1).isSome) column =
      lastCell headers members column := by
  unfold lastCell
  rw [List.filter_filter]
  refine congrArg (fun ms => (List.getLast? ms).map Prod.snd) (List.filter_congr fun m _ => ?_)
  cases headers.resolve m.1 <;> simp

/-- **The order of an object's members does not show** in its record, unless two of them stand for
one column. Every order of the members gives the same record, and so does every object that differs
in members for no column only, whatever these say and wherever they stand. Each column of the record
is read from the one member that stands for it, and holds nothing where there is none. -/
theorem ofMembers_of_perm (hone : (members.filterMap fun m => headers.resolve m.1).Nodup) :
    (∀ members' : List (String × Json), members'.Perm members →
        (ofMembers headers members').value = (ofMembers headers members).value) ∧
      (∀ members' : List (String × Json),
        (members'.filter fun m => (headers.resolve m.1).isSome) =
          (members.filter fun m => (headers.resolve m.1).isSome) →
        (ofMembers headers members').value = (ofMembers headers members).value) ∧
      ∃ cell : Column → Option Json, (ofMembers headers members).value = ofCells cell ∧
        ∀ column v, cell column = some v ↔
          ∃ m ∈ members, headers.resolve m.1 = some column ∧ m.2 = v := by
  refine ⟨?_, ?_, ?_⟩
  · intro members' hperm
    have hone' : (members'.filterMap fun m => headers.resolve m.1).Nodup :=
      (hperm.filterMap _).nodup_iff.mpr hone
    rw [value_ofMembers, value_ofMembers]
    refine congrArg ofCells (funext fun column => Option.ext fun v => ?_)
    rw [lastCell_eq_some_iff hone', lastCell_eq_some_iff hone]
    -- Both have the same members, though in another order.
    simp only [hperm.mem_iff]
  · intro members' hfilter
    rw [value_ofMembers, value_ofMembers]
    refine congrArg ofCells (funext fun column => ?_)
    rw [← lastCell_filter headers members', hfilter, lastCell_filter]
  · exact ⟨lastCell headers members, value_ofMembers headers members,
      fun _ _ => lastCell_eq_some_iff hone⟩

/-- Members in two languages, a flag, a threshold and a blank text among them, and a key that is no
column's. -/
theorem ofMembers_of_perm_backwards :
    let headers : Headers := ⟨[(.fieldKey, ["Key"]), (.isRequired, ["必填"])]⟩
    let members : List (String × Json) := [
      (" KEY ", .str " sku "), ("note", .str "internal"), ("必填", .str "是"),
      ("example", .str " "), ("confidenceThreshold", .str "0.5")]
    let half : Binary64 := ⟨0x3FE0000000000000⟩
    let record : Record := { key := some "sku", required := some true, threshold := some half }
    (members.filterMap fun m => headers.resolve m.1).Nodup ∧
      (ofMembers headers members).value = record ∧
      (ofMembers headers members.reverse).value = record ∧
      (ofMembers headers (members.eraseIdx 1)).value = record := by
  intro headers members half record
  have hone : (members.filterMap fun m => headers.resolve m.1).Nodup := by decide +kernel
  obtain ⟨hperm, hothers, -⟩ := ofMembers_of_perm hone
  have hrecord : (ofMembers headers members).value = record := by decide +kernel
  -- The key of the second member is no column's.
  have hnote : headers.resolve "note" = none := by decide +kernel
  have hfilter : (members.eraseIdx 1).filter (fun m => (headers.resolve m.1).isSome) =
      members.filter fun m => (headers.resolve m.1).isSome := by
    simp [members, List.filter_cons, hnote]
  exact ⟨hone, hrecord, (hperm _ (List.reverse_perm _)).trans hrecord,
    (hothers _ hfilter).trans hrecord⟩

end Record

end ExtractionContract
