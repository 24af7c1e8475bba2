import ExtractionContract.Proofs.Import.Table

/-!
# The rows of a table that become records

Several names of a header may stand for the key, as they do in a table with headings in two
languages. The cells under them are put into the record one after the other, and a blank cell takes
away what was there (`key_addCells`). So the last of them decides: a row becomes a record just when
that one holds a key (`value_readRows`), and a key in a cell before a blank one is lost with its
row (`keyed_row_lost_before_blank`).

* `recordsFromRows_of_key_column`: the records of a table, and when no row with a key is lost.
-/

namespace ExtractionContract

/-- The cells of a row in the places of a column, as far as the header and the row both go. -/
def cellsUnder (column : Column) (columns : List (Option Column)) (row : List String) :
    List String :=
  ((columns.zip row).filter fun c => c.1 == some column).map Prod.snd

/-- Whether a row has a key in any cell. -/
def isKeyed (columns : List (Option Column)) (row : List String) : Bool :=
  (cellsUnder .fieldKey columns row).any fun cell => Text.trim cell != ""

/-- The key in the last cell that may hold one. -/
def lastKey (columns : List (Option Column)) (row : List String) : Option String :=
  (cellsUnder .fieldKey columns row).getLast?.elim none fun cell => cellText (.str cell)

/-- The record of a row. -/
def rowRecord (columns : List (Option Column)) (row : List String) : Record :=
  (addCells {} columns row).value

variable {columns : List (Option Column)} {row : List String}

/-! ### One row -/

theorem isSome_cellText (cell : String) :
    (cellText (.str cell)).isSome = (Text.trim cell != "") := by
  by_cases h : Text.trim cell = "" <;> simp [cellText, h]

theorem cellsUnder_cons (column : Column) (name : Option Column) (cell : String)
    (columns : List (Option Column)) (row : List String) :
    cellsUnder column (name :: columns) (cell :: row) =
      if name = some column then cell :: cellsUnder column columns row
      else cellsUnder column columns row := by
  by_cases h : name = some column <;> simp [cellsUnder, h]

/-- **The last cell for the key decides.** -/
theorem key_addCells (columns : List (Option Column)) (row : List String) (r : Record) :
    (addCells r columns row).value.key =
      (cellsUnder .fieldKey columns row).getLast?.elim r.key fun cell => cellText (.str cell) := by
  induction columns generalizing r row with
  | nil =>
    rw [addCells_nil_left]
    rfl
  | cons name columns ih =>
    cases row with
    | nil =>
      rw [addCells_nil_right]
      rfl
    | cons cell row =>
      rw [cellsUnder_cons]
      cases name with
      | none => exact ih row r
      | some column =>
        have hstep := ih row (r.set column (.str cell)).value
        rw [key_set] at hstep
        by_cases hcolumn : column = .fieldKey
        · -- What this cell says stands until another one is put into its place.
          rw [if_pos hcolumn] at hstep
          rw [if_pos (congrArg some hcolumn), List.getLast?_cons]
          refine hstep.trans ?_
          cases (cellsUnder .fieldKey columns row).getLast? <;> rfl
        · rw [if_neg hcolumn] at hstep
          rw [if_neg (fun h => hcolumn (Option.some.inj h))]
          exact hstep

theorem key_rowRecord (columns : List (Option Column)) (row : List String) :
    (rowRecord columns row).key = lastKey columns row :=
  key_addCells columns row {}

theorem isSome_lastKey_iff : (lastKey columns row).isSome = true ↔
    ∃ cell, (cellsUnder .fieldKey columns row).getLast? = some cell ∧ Text.trim cell ≠ "" := by
  unfold lastKey
  cases (cellsUnder .fieldKey columns row).getLast? with
  | none => simp
  | some cell => simp [isSome_cellText]

/-- A row with a key in the last cell that may hold one has a key. -/
theorem isKeyed_of_lastKey (h : (lastKey columns row).isSome = true) :
    isKeyed columns row = true := by
  obtain ⟨cell, hlast, hcell⟩ := isSome_lastKey_iff.mp h
  exact List.any_eq_true.mpr ⟨cell, List.mem_of_getLast? hlast, by simpa using hcell⟩

theorem exists_getLast?_of_isKeyed (h : isKeyed columns row = true) :
    ∃ cell, (cellsUnder .fieldKey columns row).getLast? = some cell := by
  obtain ⟨cell, hmem, -⟩ := List.any_eq_true.mp h
  exact ⟨_, List.getLast?_eq_some_getLast (List.ne_nil_of_mem hmem)⟩

/-- A row has at most one cell for each place of a column. -/
theorem length_cellsUnder_le (column : Column) (columns : List (Option Column))
    (row : List String) : (cellsUnder column columns row).length ≤ columns.count (some column) := by
  induction columns generalizing row with
  | nil => exact Nat.le_refl _
  | cons name columns ih =>
    cases row with
    | nil => exact Nat.zero_le _
    | cons cell row =>
      have hle := ih row
      rw [cellsUnder_cons, List.count_cons]
      by_cases h : name = some column
      · simpa [h] using hle
      · simpa [h] using hle

theorem lastKey_of_isKeyed (hone : columns.count (some .fieldKey) ≤ 1)
    (h : isKeyed columns row = true) : (lastKey columns row).isSome = true := by
  have hlength := (length_cellsUnder_le .fieldKey columns row).trans hone
  obtain ⟨cell, hmem, hcell⟩ := List.any_eq_true.mp h
  -- The cell with the key is the only one for it, so it is the last.
  refine isSome_lastKey_iff.mpr ⟨cell, ?_, by simpa using hcell⟩
  match hcells : cellsUnder .fieldKey columns row with
  | [] => simp [hcells] at hmem
  | [cell'] =>
    rw [hcells, List.mem_singleton] at hmem
    rw [hmem]
    rfl
  | _ :: _ :: _ => simp [hcells] at hlength

/-! ### All rows -/

/-- **The rows that become records** are those whose last cell for the key holds one. -/
theorem value_readRows (columns : List (Option Column)) (line : Nat) (rows : List (List String)) :
    (readRows columns line rows).value =
      (rows.filter fun row => (lastKey columns row).isSome).map (rowRecord columns) := by
  induction rows generalizing line with
  | nil => rfl
  | cons row rows ih =>
    rw [value_readRows_cons, ih (line + 1), ← rowRecord, key_rowRecord]
    cases h : lastKey columns row <;> simp [h]

theorem value_recordsFromRows {headers : Headers} {header : List String}
    (hkey : ∃ name ∈ header, headers.resolve name = some .fieldKey) (rows : List (List String)) :
    (recordsFromRows headers (header :: rows)).value =
      .ok ((rows.filter fun row => (lastKey (header.map headers.resolve) row).isSome).map
        (rowRecord (header.map headers.resolve))) := by
  have hcolumn : (header.map headers.resolve).contains (some .fieldKey) := by
    obtain ⟨name, hname, hresolve⟩ := hkey
    exact List.contains_iff_mem.mpr (hresolve ▸ List.mem_map_of_mem hname)
  rw [recordsFromRows, if_pos hcolumn, ← value_readRows _ 2 rows]
  rfl

/-- **The records of a table.** Each row whose last cell for the key holds one becomes a record with
that key, in the order of the rows, and no other row does. So no row without any key becomes a
record, but one with a key is lost where a blank cell for the key stands behind it. No such row is
lost if and only if this happens nowhere, as where one name alone stands for the key. -/
theorem recordsFromRows_of_key_column {headers : Headers} {header : List String}
    (hkey : ∃ name ∈ header, headers.resolve name = some .fieldKey) (rows : List (List String)) :
    let columns := header.map headers.resolve
    let kept := rows.filter fun row => (lastKey columns row).isSome
    (recordsFromRows headers (header :: rows)).value = .ok (kept.map (rowRecord columns)) ∧
      (∀ row, (rowRecord columns row).key = lastKey columns row) ∧
      (∀ row ∈ kept, isKeyed columns row = true) ∧
      (kept = rows.filter (isKeyed columns) ↔
        ∀ row ∈ rows, isKeyed columns row = true →
          ∀ cell ∈ (cellsUnder .fieldKey columns row).getLast?, Text.trim cell ≠ "") ∧
      (columns.count (some .fieldKey) ≤ 1 → kept = rows.filter (isKeyed columns)) := by
  intro columns kept
  refine ⟨value_recordsFromRows hkey rows, key_rowRecord columns, ?_, ?_, ?_⟩
  · intro row hrow
    exact isKeyed_of_lastKey (List.mem_filter.mp hrow).2
  · constructor
    · intro hkept row hrow hkeyed cell hcell
      have hmem : row ∈ kept := hkept ▸ List.mem_filter.mpr ⟨hrow, hkeyed⟩
      obtain ⟨cell', hlast, hcell'⟩ := isSome_lastKey_iff.mp (List.mem_filter.mp hmem).2
      cases hlast.symm.trans hcell
      exact hcell'
    · intro hlast
      refine List.filter_congr fun row hrow => Bool.eq_iff_iff.mpr ⟨isKeyed_of_lastKey, ?_⟩
      intro hkeyed
      obtain ⟨cell, hcell⟩ := exists_getLast?_of_isKeyed hkeyed
      exact isSome_lastKey_iff.mpr ⟨cell, hcell, hlast row hrow hkeyed cell hcell⟩
  · intro hone
    exact List.filter_congr fun row _ => Bool.eq_iff_iff.mpr
      ⟨isKeyed_of_lastKey, lastKey_of_isKeyed hone⟩

/-- A table with headings in two languages, rows of all lengths, and a blank cell behind a key. -/
theorem recordsFromRows_of_bilingual_header :
    let header := ["field_key", "field_name", "字段标识"]
    let columns := [some .fieldKey, some .fieldName, some .fieldKey]
    let rows := [
      ["invoice_no", "Invoice"],
      ["total", "Total", " "],
      ["", "", "items", "beyond"],
      [],
      ["old", "", " sku "]]
    header.map Headers.builtIn.resolve = columns ∧
      (recordsFromRows .builtIn (header :: rows)).value =
        .ok ([["invoice_no", "Invoice"], ["", "", "items", "beyond"], ["old", "", " sku "]].map
          (rowRecord columns)) ∧
      rows.map (lastKey columns) = [some "invoice_no", none, some "items", none, some "sku"] ∧
      rows.map (isKeyed columns) = [true, true, true, false, true] := by
  intro header columns rows
  have hcolumns : header.map Headers.builtIn.resolve = columns := by decide +kernel
  have hkey : ∃ name ∈ header, Headers.builtIn.resolve name = some .fieldKey :=
    ⟨"field_key", List.mem_cons_self, (List.cons.inj hcolumns).1⟩
  have hkept : (rows.filter fun row => (lastKey columns row).isSome) =
      [["invoice_no", "Invoice"], ["", "", "items", "beyond"], ["old", "", " sku "]] := by
    decide +kernel
  obtain ⟨hrecords, -⟩ := recordsFromRows_of_key_column hkey rows
  rw [hcolumns, hkept] at hrecords
  exact ⟨hcolumns, hrecords, by decide +kernel, by decide +kernel⟩

/-- The only row has a key, and behind it a blank cell that may hold one too: the row is lost. -/
theorem keyed_row_lost_before_blank :
    let header := ["field_key", "字段标识"]
    let columns := [some .fieldKey, some .fieldKey]
    let rows := [["invoice_no", ""]]
    header.map Headers.builtIn.resolve = columns ∧ rows.filter (isKeyed columns) = rows ∧
      (recordsFromRows .builtIn (header :: rows)).value = .ok [] := by
  intro header columns rows
  have hcolumns : header.map Headers.builtIn.resolve = columns := by decide +kernel
  have hkey : ∃ name ∈ header, Headers.builtIn.resolve name = some .fieldKey :=
    ⟨"field_key", List.mem_cons_self, (List.cons.inj hcolumns).1⟩
  have hlost : (rows.filter fun row => (lastKey columns row).isSome) = [] := by decide +kernel
  have hrecords := value_recordsFromRows hkey rows
  rw [hcolumns, hlost] at hrecords
  exact ⟨hcolumns, by decide +kernel, hrecords⟩

end ExtractionContract
