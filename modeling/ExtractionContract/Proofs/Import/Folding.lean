import ExtractionContract.Proofs.Import.Integrity
import ExtractionContract.Proofs.Import.Linking
import Mathlib.Data.List.Nodup

/-!
# Folding a batch, place by place

Under `overwrite` the fields of a batch whose keys are taken are folded one after the other into
fields of the graph. `placeOf` is the place that a key leads to. Overwriting writes to that
place and to no other, and keeps all keys, so a key leads to the same place throughout:

* `getElem?_foldl_of_forall_ne`: a place that no key leads to keeps its field.
* `getElem?_foldl_of_mem`: where the keys of the batch are distinct, a place that a key leads to
  is overwritten once, by the field that has the key.

The identifiers that were drawn for folded fields are redirected. `surviving` is the identifier
that stands for a field of the batch afterwards, and redirecting gives it
(`redirected_eq_surviving`); a name that was not drawn for the batch stays as it is
(`redirect_eq_self`).
-/

namespace ExtractionContract

namespace Merge

/-- The place of the first field that has a key. -/
def placeOf (fs : List Field) (key : String) : Option Nat :=
  fs.findIdx? fun f => f.key == key

/-! ### Places -/

theorem exists_of_placeOf {fs : List Field} {key : String} {i : Nat}
    (h : placeOf fs key = some i) : ∃ f, fs[i]? = some f ∧ f.key = key := by
  obtain ⟨hlt, hkey, -⟩ := List.findIdx?_eq_some_iff_getElem.mp h
  exact ⟨fs[i], List.getElem?_eq_getElem hlt, beq_iff_eq.mp hkey⟩

/-- Different keys lead to different places. -/
theorem placeOf_inj {fs : List Field} {key key' : String} {i : Nat}
    (h : placeOf fs key = some i) (h' : placeOf fs key' = some i) : key = key' := by
  obtain ⟨f, hf, rfl⟩ := exists_of_placeOf h
  obtain ⟨f', hf', rfl⟩ := exists_of_placeOf h'
  rw [Option.some.inj (hf.symm.trans hf')]

theorem find?_eq_of_placeOf {fs : List Field} {key : String} {i : Nat}
    (h : placeOf fs key = some i) : fs.find? (fun f => f.key == key) = fs[i]? := by
  rw [List.find?_eq_bind_findIdx?_getElem?]
  change (placeOf fs key).bind _ = _
  rw [h, Option.bind_some]

theorem find?_eq_none_of_placeOf {fs : List Field} {key : String}
    (h : placeOf fs key = none) : fs.find? (fun f => f.key == key) = none := by
  rw [List.find?_eq_bind_findIdx?_getElem?]
  change (placeOf fs key).bind _ = _
  rw [h, Option.bind_none]

theorem isTaken_eq_isSome (g : FieldGraph) (f : Field) :
    isTaken g f = (placeOf g.fields f.key).isSome := by
  rw [isTaken, placeOf, List.findIdx?_isSome]

/-- Where a key leads depends on the keys alone. -/
theorem placeOf_eq_findIdx? (fs : List Field) (key : String) :
    placeOf fs key = (fs.map Field.key).findIdx? (· == key) := by
  rw [List.findIdx?_map]
  rfl

theorem placeOf_congr {fs fs' : List Field} (h : fs.map Field.key = fs'.map Field.key)
    (key : String) : placeOf fs key = placeOf fs' key := by
  rw [placeOf_eq_findIdx?, placeOf_eq_findIdx?, h]

/-! ### Overwriting one field -/

theorem map_key_overwriteFirst (new : Field) (fs : List Field) :
    (overwriteFirst new fs).map Field.key = fs.map Field.key :=
  map_overwriteFirst (fun _ _ => rfl) new fs

/-- **Overwriting writes to the place that the key leads to**, and to no other. -/
theorem getElem?_overwriteFirst (new : Field) (fs : List Field) (i : Nat) :
    (overwriteFirst new fs)[i]? =
      if placeOf fs new.key = some i then fs[i]?.map fun f => overwriteField f new
      else fs[i]? := by
  -- Overwriting stops at the first field with the key, and so does the search for its place.
  induction fs generalizing i with
  | nil => rfl
  | cons f rest ih =>
    rw [overwriteFirst, placeOf, List.findIdx?_cons]
    by_cases hkey : f.key == new.key
    · rw [if_pos hkey, if_pos hkey]
      cases i with
      | zero => rfl
      | succ i => rfl
    · rw [if_neg hkey, if_neg hkey]
      cases i with
      | zero =>
        cases rest.findIdx? fun f => f.key == new.key with
        | none => rfl
        | some j => rfl
      | succ i =>
        rw [List.getElem?_cons_succ, ih, placeOf]
        cases rest.findIdx? fun f => f.key == new.key with
        | none => rfl
        | some j =>
          simp only [Option.map_some, Option.some.injEq, Nat.succ_inj, List.getElem?_cons_succ]

/-! ### Overwriting a batch -/

variable {folded fs : List Field} {i : Nat}

theorem map_key_foldl_overwriteFirst (folded fs : List Field) :
    (folded.foldl (fun fs f => overwriteFirst f fs) fs).map Field.key = fs.map Field.key :=
  map_foldl_overwriteFirst (fun _ _ => rfl) folded fs

/-- **A place that no key leads to** keeps its field. -/
theorem getElem?_foldl_of_forall_ne (h : ∀ f ∈ folded, placeOf fs f.key ≠ some i) :
    (folded.foldl (fun fs f => overwriteFirst f fs) fs)[i]? = fs[i]? := by
  induction folded generalizing fs with
  | nil => rfl
  | cons f rest ih =>
    obtain ⟨hf, hrest⟩ := List.forall_mem_cons.mp h
    have hplaces := placeOf_congr (map_key_overwriteFirst f fs)
    rw [List.foldl_cons, ih fun f' hf' => hplaces f'.key ▸ hrest f' hf',
      getElem?_overwriteFirst, if_neg hf]

/-- **A place that a key leads to** is overwritten once, where keys are distinct. -/
theorem getElem?_foldl_of_mem (hnodup : (folded.map Field.key).Nodup) {f : Field}
    (hf : f ∈ folded) (hplace : placeOf fs f.key = some i) :
    (folded.foldl (fun fs f => overwriteFirst f fs) fs)[i]? =
      fs[i]?.map fun old => overwriteField old f := by
  induction folded generalizing fs with
  | nil => exact absurd hf List.not_mem_nil
  | cons f' rest ih =>
    have hplaces := placeOf_congr (map_key_overwriteFirst f' fs)
    obtain ⟨hfirst, hrest⟩ := List.nodup_cons.mp hnodup
    rw [List.foldl_cons]
    rcases List.mem_cons.mp hf with rfl | hf
    · -- The keys of the others are different, so they lead elsewhere.
      have hothers : ∀ h ∈ rest, placeOf (overwriteFirst f fs) h.key ≠ some i := by
        intro h hh hsame
        rw [hplaces] at hsame
        exact hfirst (placeOf_inj hsame hplace ▸ List.mem_map_of_mem hh)
      rw [getElem?_foldl_of_forall_ne hothers, getElem?_overwriteFirst, if_pos hplace]
    · have hother : placeOf fs f'.key ≠ some i := fun hsame =>
        hfirst (placeOf_inj hplace hsame ▸ List.mem_map_of_mem hf)
      rw [ih hrest hf ((hplaces f.key).trans hplace), getElem?_overwriteFirst, if_neg hother]

/-! ### Redirection -/

/-- The identifier that stands for a field of a batch after the folding: that of the field of
the graph that has its key, or its own. -/
def surviving (g : FieldGraph) (f : Field) : String :=
  ((g.fields.find? fun h => h.key == f.key).map Field.id).getD f.id

theorem surviving_of_new {g : FieldGraph} {f : Field} (h : placeOf g.fields f.key = none) :
    surviving g f = f.id := by
  rw [surviving, find?_eq_none_of_placeOf h]
  rfl

theorem surviving_of_placeOf {g : FieldGraph} {f old : Field} {i : Nat}
    (h : placeOf g.fields f.key = some i) (hold : g.fields[i]? = some old) :
    surviving g f = old.id := by
  rw [surviving, find?_eq_of_placeOf h, hold]
  rfl

variable {g : FieldGraph} {fields : List Field}

/-- **A redirected identifier** is the one that survives. -/
theorem redirected_eq_surviving (hids : (fields.map Field.id).Nodup) {f : Field}
    (hf : f ∈ fields) :
    ((redirects g (fields.filter (isTaken g))).lookup f.id).getD f.id = surviving g f := by
  rw [surviving]
  cases hlookup : (redirects g (fields.filter (isTaken g))).lookup f.id with
  | some q =>
    obtain ⟨front, back, hnames, -⟩ := List.lookup_eq_some_iff.mp hlookup
    have hmem : (f.id, q) ∈ redirects g (fields.filter (isTaken g)) :=
      hnames ▸ List.mem_append_right front List.mem_cons_self
    obtain ⟨f', hf', target, htarget, hid, rfl⟩ := mem_redirects.mp hmem
    -- Identifiers are distinct, so the field that was folded is the one in question.
    obtain rfl : f' = f :=
      List.inj_on_of_nodup_map hids (List.mem_of_mem_filter hf') hf hid
    rw [htarget]
    rfl
  | none =>
    cases htarget : g.fields.find? fun h => h.key == f.key with
    | none => rfl
    | some target =>
      have hmem : (f.id, target.id) ∈ redirects g (fields.filter (isTaken g)) :=
        mem_redirects.mpr ⟨f, List.mem_filter.mpr ⟨hf, isTaken_iff.mpr ⟨target, htarget⟩⟩,
          target, htarget, rfl, rfl⟩
      exact absurd rfl (bne_iff_ne.mp (List.lookup_eq_none_iff.mp hlookup _ hmem))

/-- **A name that no field of the batch has** is not redirected. -/
theorem redirect_eq_self {f : Field} (h : ∀ p, f.parent = some p → p ∉ fields.map Field.id) :
    redirect (redirects g (fields.filter (isTaken g))) f = f := by
  cases hp : f.parent with
  | none =>
    rw [redirect, hp, Option.map_none, ← hp]
  | some p =>
    have hnone : (redirects g (fields.filter (isTaken g))).lookup p = none := by
      rw [List.lookup_eq_none_iff]
      intro m hm
      obtain ⟨p', q'⟩ := m
      obtain ⟨f', hf', target, -, hid, -⟩ := mem_redirects.mp hm
      refine bne_iff_ne.mpr fun e => h p hp ?_
      rw [show p = p' from e, ← hid]
      exact List.mem_map_of_mem (List.mem_of_mem_filter hf')
    rw [redirect, hp, Option.map_some, hnone, Option.getD_none, ← hp]

end Merge

end ExtractionContract
