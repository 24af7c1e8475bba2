import ExtractionContract.Proofs.Import.Overwrite
import ExtractionContract.Proofs.Import.Sample
import ExtractionContract.Proofs.Json.ReadBack
import ExtractionContract.Proofs.Lenient.Recovery

/-!
# Tables and arrays of objects

The rows of a table say the same as an array of objects that pair the header with the cells of
each row. A row is read cell by cell as its object is member by member, so the records are the
same ones (`value_addCells`); but rows without a key are left out of the records of a table
(`value_readRows_cons`), and counted as skipped where they stand in an array. A merge sees the
records with a key only, so nothing else differs (`Compiler.importText_tableText`).

On the way the array is written as a text and read back, which needs the names of the header to
be distinct.
-/

namespace ExtractionContract

open Merge

/-- The object that pairs a header with the cells of a row, as far as both go. -/
def rowObject (header row : List String) : Json :=
  .obj ((header.zip row).map fun c => (c.1, .str c.2))

/-- The text of the array of all rows' objects. -/
def tableText (header : List String) (rows : List (List String)) : String :=
  (Json.arr (rows.map (rowObject header))).text

/-! ### The text -/

/-- **A compact text needs no repair.** -/
theorem Lenient.recover_text {v : Json} (h : v.Restores Json.depthLimit) :
    (recover v.text).value = .ok ⟨v, v.text, .asIs⟩ := by
  have hparse : Json.parse (Stage.asIs.candidate v.text) = .ok v := Json.parse_text h
  rw [recover, recoverAt_of_ok hparse]
  rfl

theorem restores_rowObject {d : Nat} {header : List String} (h : header.Nodup)
    (row : List String) : (rowObject header row).Restores (d + 1) := by
  refine .obj ?_ ?_
  · rw [Members.keys, List.map_map]
    change ((header.zip row).map Prod.fst).Nodup
    rw [List.zip_eq_zip_take_min, List.map_fst_zip (by simp)]
    exact (List.take_sublist _ header).nodup h
  · intro m hm
    obtain ⟨c, -, rfl⟩ := List.mem_map.mp hm
    exact .str

/-- The records of the array of a table's rows. -/
theorem value_recordsFromText_tableText (headers : Headers) (inferrer : Inferrer)
    {header : List String} (h : header.Nodup) (rows : List (List String)) :
    (recordsFromText headers inferrer (tableText header rows)).value =
      .ok (readEntries headers 0 (rows.map (rowObject header))).value := by
  have hrestores : (Json.arr (rows.map (rowObject header))).Restores Json.depthLimit := by
    refine .arr ?_
    intro v hv
    obtain ⟨row, -, rfl⟩ := List.mem_map.mp hv
    exact restores_rowObject h row
  have hrecover := Lenient.recover_text hrestores
  unfold recordsFromText Attempt.andThen
  simp only [tableText, hrecover]
  rfl

/-! ### One row -/

theorem addCells_nil_left (r : Record) (row : List String) : addCells r [] row = pure r := by
  cases row <;> rfl

theorem addCells_nil_right (r : Record) (columns : List (Option Column)) :
    addCells r columns [] = pure r := by
  cases columns with
  | nil => rfl
  | cons column columns => cases column <;> rfl

/-- **A row is read as its object is.** -/
theorem value_addCells (headers : Headers) (header row : List String) (r : Record) :
    (addCells r (header.map headers.resolve) row).value =
      (r.addMembers headers ((header.zip row).map fun c => (c.1, .str c.2))).value := by
  induction header generalizing r row with
  | nil =>
    -- Beyond the header no cell counts, and beyond the row no name.
    rw [List.map_nil, List.zip_nil_left, addCells_nil_left]
    rfl
  | cons name header ih =>
    cases row with
    | nil =>
      rw [List.zip_nil_right, addCells_nil_right]
      rfl
    | cons cell row =>
      rw [List.map_cons, List.zip_cons_cons, List.map_cons, Record.addMembers]
      cases headers.resolve name with
      | none =>
        rw [addCells]
        exact ih row r
      | some column =>
        rw [addCells]
        exact ih row (r.set column (.str cell)).value

/-- Only a cell of the key's column changes the key. -/
theorem key_set (r : Record) (column : Column) (v : Json) :
    (r.set column v).value.key = if column = .fieldKey then cellText v else r.key := by
  cases column <;> simp only [Record.set, Record.setText, Logged.value_pure, Logged.value_bind,
    reduceCtorEq, if_true, if_false]

/-- A blank cell gives no key. -/
theorem key_set_of_blank {r : Record} (hr : r.key = none) (column : Column) {cell : String}
    (h : Text.trim cell = "") : (r.set column (.str cell)).value.key = none := by
  rw [key_set]
  split
  · change (if Text.trim cell = "" then none else some (Text.trim cell)) = none
    rw [if_pos h]
  · exact hr

theorem key_addCells_of_blank {row : List String} (h : isBlankRow row = true)
    (columns : List (Option Column)) {r : Record} (hr : r.key = none) :
    (addCells r columns row).value.key = none := by
  induction columns generalizing r row with
  | nil => rwa [addCells_nil_left]
  | cons column columns ih =>
    cases row with
    | nil => rwa [addCells_nil_right]
    | cons cell row =>
      rw [isBlankRow, List.all_cons, Bool.and_eq_true, beq_iff_eq] at h
      cases column with
      | none =>
        rw [addCells]
        exact ih h.2 hr
      | some column =>
        rw [addCells]
        exact ih h.2 (key_set_of_blank hr column h.1)

/-! ### All rows -/

/-- **The rows of a table that are passed over** are those without a key. The blank ones are
among them. -/
theorem value_readRows_cons (columns : List (Option Column)) (line : Nat) (row : List String)
    (rows : List (List String)) :
    (readRows columns line (row :: rows)).value =
      if (addCells {} columns row).value.key.isNone then (readRows columns (line + 1) rows).value
      else (addCells {} columns row).value :: (readRows columns (line + 1) rows).value := by
  rw [readRows]
  split
  · next hblank =>
    have hnone : (addCells {} columns row).value.key = none :=
      key_addCells_of_blank hblank columns rfl
    rw [if_pos (Option.isNone_iff_eq_none.mpr hnone)]
  · rw [Logged.value_bind]
    split <;> rfl

theorem isSome_key_of_mem_readRows {columns : List (Option Column)} {line : Nat}
    {rows : List (List String)} {r : Record} (h : r ∈ (readRows columns line rows).value) :
    r.key.isSome := by
  induction rows generalizing line with
  | nil => exact absurd h List.not_mem_nil
  | cons row rows ih =>
    rw [value_readRows_cons] at h
    split at h
    · exact ih h
    · next hkey =>
      rcases List.mem_cons.mp h with rfl | h
      · rwa [← Option.not_isNone, Bool.not_eq_true', ← Bool.not_eq_true]
      · exact ih h

theorem length_readEntries_rowObject (headers : Headers) (header : List String) (index : Nat)
    (rows : List (List String)) :
    (readEntries headers index (rows.map (rowObject header))).value.length = rows.length := by
  induction rows generalizing index with
  | nil => rfl
  | cons row rows ih => exact congrArg Nat.succ (ih (index + 1))

namespace Merge

theorem keyed_cons_of_none {r : Record} (h : r.key = none) (rs : List Record) :
    keyed (r :: rs) = keyed rs := by
  rw [keyed, List.filterMap_cons_none (by rw [h]; rfl)]
  rfl

theorem keyed_cons (r : Record) (rs : List Record) : keyed (r :: rs) = keyed [r] ++ keyed rs := by
  rw [← List.singleton_append, keyed, List.filterMap_append]
  rfl

/-- **The records with a key** are the same ones. -/
theorem keyed_readEntries_rowObject (headers : Headers) (header : List String) (index line : Nat)
    (rows : List (List String)) :
    keyed (readEntries headers index (rows.map (rowObject header))).value =
      keyed (readRows (header.map headers.resolve) line rows).value := by
  induction rows generalizing index line with
  | nil => rfl
  | cons row rows ih =>
    have hrow : (Record.ofMembers headers ((header.zip row).map fun c => (c.1, .str c.2))).value =
        (addCells {} (header.map headers.resolve) row).value :=
      (value_addCells headers header row {}).symm
    rw [List.map_cons, rowObject, readEntries, Logged.value_bind, hrow]
    change keyed (_ :: (readEntries headers (index + 1) (rows.map (rowObject header))).value) = _
    rw [value_readRows_cons]
    split
    · next hkey =>
      rw [keyed_cons_of_none (Option.isNone_iff_eq_none.mp hkey)]
      exact ih (index + 1) (line + 1)
    · rw [keyed_cons, ih (index + 1) (line + 1), ← keyed_cons]

end Merge

namespace FieldGraph

/-- **A merge sees the records with a key.** Those without are counted, and nothing else. -/
theorem merge_of_keyed_eq (g : FieldGraph) (policy : DuplicatePolicy) (fresh : Nat → String)
    {rs rs' : List Record} (h : keyed rs' = keyed rs) :
    g.merge policy fresh rs' =
      ⟨(g.merge policy fresh rs).summary.map fun s => { s with skipped := keyless rs' },
        (g.merge policy fresh rs).graph⟩ := by
  rw [merge_eq, merge_eq, h]
  split
  · rfl
  · rw [mergeBatch, mergeBatch, h]
    rfl

end FieldGraph

namespace Compiler

/-- **A table and the array of its rows' objects** are imported alike. -/
theorem importText_tableText (compiler : Compiler) (fresh : Nat → String) (g : FieldGraph)
    {header : List String} (hdistinct : header.Nodup)
    (hkey : ∃ name ∈ header, compiler.config.headers.resolve name = some .fieldKey)
    (rows : List (List String)) :
    let table := (compiler.importRows fresh g (header :: rows)).value
    let array := (compiler.importText fresh g (tableText header rows)).value
    array.graph = table.graph ∧
      ∃ records, (recordsFromRows compiler.config.headers (header :: rows)).value = .ok records ∧
        records.length ≤ rows.length ∧
        array.summary =
          table.summary.map (fun s => { s with skipped := rows.length - records.length }) ∧
        ∀ s, table.summary = .ok s → s.skipped = 0 := by
  intro table array
  have hcolumn : (header.map compiler.config.headers.resolve).contains (some .fieldKey) := by
    obtain ⟨name, hname, hresolve⟩ := hkey
    exact List.contains_iff_mem.mpr (hresolve ▸ List.mem_map_of_mem hname)
  have hrecords : (recordsFromRows compiler.config.headers (header :: rows)).value =
      .ok (readRows (header.map compiler.config.headers.resolve) 2 rows).value := by
    rw [recordsFromRows, if_pos hcolumn]
    rfl
  generalize hread : (readRows (header.map compiler.config.headers.resolve) 2 rows).value =
    records at hrecords
  have hentries := value_recordsFromText_tableText compiler.config.headers compiler.inferrer
    hdistinct rows
  generalize hobjects : (readEntries compiler.config.headers 0
    (rows.map (rowObject header))).value = entries at hentries
  have htable : table = g.merge compiler.config.policy fresh records :=
    compiler.value_importFrom fresh g hrecords
  have harray : array = g.merge compiler.config.policy fresh entries :=
    compiler.value_importFrom fresh g hentries
  -- The records with a key are the same, so only the numbers of those without may differ.
  have hkeyed : keyed entries = keyed records := by
    rw [← hobjects, ← hread]
    exact keyed_readEntries_rowObject compiler.config.headers header 0 2 rows
  have hnone : keyless records = 0 := by
    rw [← hread]
    exact keyless_eq_zero fun r hr => isSome_key_of_mem_readRows hr
  have hlength : entries.length = rows.length := by
    rw [← hobjects]
    exact length_readEntries_rowObject compiler.config.headers header 0 rows
  have hcount := length_keyed_add_keyless entries
  have hcount' := length_keyed_add_keyless records
  rw [hkeyed] at hcount
  have hskipped : keyless entries = rows.length - records.length := by omega
  rw [g.merge_of_keyed_eq compiler.config.policy fresh hkeyed, hskipped] at harray
  refine ⟨?_, records, hrecords, by omega, ?_, ?_⟩
  · rw [harray, htable]
  · rw [harray, htable]
  · intro s hs
    have hself := congrArg MergeResult.summary
      (g.merge_of_keyed_eq compiler.config.policy fresh (rfl : keyed records = keyed records))
    rw [← htable, hs, hnone] at hself
    exact congrArg ImportSummary.skipped (Except.ok.inj hself)

/-- Two names of the header stand for the key, so that a blank cell takes away the key before it
unless the row ends there. One row is longer than the header, and two are blank. -/
theorem importText_tableText_of_ragged_rows :
    let compiler : Compiler := ⟨{ headers := ⟨[(.fieldKey, ["key"])]⟩, policy := .overwrite }⟩
    let g : FieldGraph := ⟨[{ id := "1", key := "line" }]⟩
    let header := ["fieldKey", "Key", "note", "parentFieldKey"]
    let rows := [
      ["order", "", "dropped"],
      ["order"],
      ["", "line", "kept", "order", "beyond"],
      [" ", ""],
      [],
      ["tax", "order"]]
    let fresh := (["a", "b", "c"].getD · "")
    let table := (compiler.importRows fresh g (header :: rows)).value
    let array := (compiler.importText fresh g (tableText header rows)).value
    header.Nodup ∧
      (∃ name ∈ header, compiler.config.headers.resolve name = some .fieldKey) ∧
      table.graph.fields.map (fun f => (f.id, f.key, f.parent)) =
        [("1", "line", some "a"), ("a", "order", none), ("c", "order", none)] ∧
      array.graph = table.graph ∧
      array.summary = table.summary.map fun s => { s with skipped := 3 } := by
  intro compiler g header rows fresh table array
  have hdistinct : header.Nodup := by decide
  have hkey : ∃ name ∈ header, compiler.config.headers.resolve name = some .fieldKey :=
    ⟨"fieldKey", by decide, by decide +kernel⟩
  obtain ⟨hgraph, records, hrecords, -, hsummary, -⟩ :=
    compiler.importText_tableText fresh g hdistinct hkey rows
  have hread : (recordsFromRows compiler.config.headers (header :: rows)).value.toOption.map
      List.length = some 3 := by
    decide +kernel
  have hlength : records.length = 3 := by
    rw [hrecords] at hread
    exact Option.some.inj hread
  rw [hlength] at hsummary
  exact ⟨hdistinct, hkey, by decide +kernel, hgraph, hsummary⟩

end Compiler

end ExtractionContract
