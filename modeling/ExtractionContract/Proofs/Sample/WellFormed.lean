import ExtractionContract.Proofs.Graph.Chain
import ExtractionContract.Proofs.Graph.Cycles
import ExtractionContract.Proofs.Sample.Orders

/-!
# Inferred fields are well formed

A finding that has a parent is a member of what its parent stands for: the parent is an object
or an array, and the finding's key is the parent's key with the name of the member behind it.
`memberOf_findMembers` and `memberOf_findBelow` say so of the layout, by recursion on the
sample.

With the identifiers of the findings, of which each is the first one free for its key, this is
all there is to an inferred field (`Inferrer.infer_wellFormed`): its identifier is new, its order
is counted on from the start by its place, and its parent is an earlier field, so that every walk
up ends.
-/

namespace ExtractionContract

/-! ### Members in the layout -/

/-- A finding is a member of what has a key: it has that key with the member's name behind it. -/
def Finding.NamedBelow (d : Finding) (ownerKey : String) : Prop :=
  ∃ name, d.memberKey = some name ∧ d.key = joinKey ownerKey name

/-- A finding is a member of what another one stands for, an object or the items of an array. -/
structure Finding.MemberOf (d owner : Finding) : Prop where
  opened : owner.type = .object ∨ owner.type = .array
  named : d.NamedBelow owner.key

/-- A finding names the given parent and is a member of what has the given key, or it names an
earlier finding of the layout and is a member of that. -/
def Owned (parent : Option Nat) (ownerKey : String) (layout : List (Finding × Nat))
    (x : Finding × Nat) : Prop :=
  x.1.parent = parent ∧ x.1.NamedBelow ownerKey ∨
    ∃ y ∈ layout, y.2 < x.2 ∧ x.1.parent = some y.2 ∧ x.1.MemberOf y.1

theorem Owned.mono {parent : Option Nat} {ownerKey : String} {layout layout' : List (Finding × Nat)}
    {x : Finding × Nat} (h : Owned parent ownerKey layout x) (hsub : layout ⊆ layout') :
    Owned parent ownerKey layout' x :=
  h.imp_right fun ⟨y, hy, hrest⟩ => ⟨y, hsub hy, hrest⟩

/-- Below a finding, what names the given parent is a member of that finding. -/
theorem Owned.below {parent : Option Nat} {ownerKey : String} {owner : Finding} {place : Nat}
    {layout : List (Finding × Nat)} {x : Finding × Nat}
    (h : Owned (some place) owner.key layout x)
    (hopened : owner.type = .object ∨ owner.type = .array) (hplace : place < x.2) :
    Owned parent ownerKey ((owner, place) :: layout) x := by
  rcases h with ⟨hparent, hnamed⟩ | ⟨y, hy, hrest⟩
  · exact .inr ⟨(owner, place), List.mem_cons_self, hplace, hparent, hopened, hnamed⟩
  · exact .inr ⟨y, List.mem_cons_of_mem _ hy, hrest⟩

/-- Only objects and arrays have findings below them. -/
theorem inferType_of_findBelow {key : String} {inItem : Bool} {place : Nat} {v : Json}
    (h : findBelow key inItem place v ≠ []) : inferType v = .object ∨ inferType v = .array := by
  cases v with
  | obj members => exact .inl rfl
  | arr items => exact .inr rfl
  | null | bool | num | str => exact absurd rfl h

mutual

/-- **What is found in the members of an object** is a member of it, or of an earlier finding. -/
theorem memberOf_findMembers (ownerKey : String) (inItem : Bool) (parent : Option Nat)
    (place : Nat) : ∀ members : List (String × Json),
    ∀ x ∈ (findMembers ownerKey inItem parent place members).zipIdx place,
      Owned parent ownerKey ((findMembers ownerKey inItem parent place members).zipIdx place) x
  | [] => fun x hx => absurd hx List.not_mem_nil
  | (key, v) :: rest => by
    intro x hx
    rw [zipIdx_findMembers_cons, List.mem_cons, List.mem_append] at hx
    rw [zipIdx_findMembers_cons]
    -- The first member itself, what is below its value, and the members after it.
    rcases hx with rfl | hbelow | hrest
    · exact .inl ⟨rfl, key, rfl, rfl⟩
    · -- Something is below the value, so it is an object or an array.
      have hopened : (findMember ownerKey inItem parent key v).type = .object ∨
          (findMember ownerKey inItem parent key v).type = .array :=
        inferType_of_findBelow fun hnil => by
          rw [hnil] at hbelow
          exact absurd hbelow List.not_mem_nil
      have howned := memberOf_findBelow (joinKey ownerKey key) inItem place v x hbelow
      refine Owned.mono (howned.below hopened (List.le_snd_of_mem_zipIdx hbelow)) ?_
      exact List.cons_subset_cons _ (List.subset_append_left _ _)
    · refine (memberOf_findMembers ownerKey inItem parent _ rest x hrest).mono ?_
      exact List.subset_cons_of_subset _ (List.subset_append_right _ _)

/-- **What is found below a value** is a member of it, or of an earlier finding. -/
theorem memberOf_findBelow (key : String) (inItem : Bool) (place : Nat) : ∀ v : Json,
    ∀ x ∈ (findBelow key inItem place v).zipIdx (place + 1),
      Owned (some place) key ((findBelow key inItem place v).zipIdx (place + 1)) x
  | .obj members => memberOf_findMembers key inItem (some place) (place + 1) members
  | .arr (.obj members :: tail) => by
    rw [findBelow]
    split
    · exact fun x hx => absurd hx List.not_mem_nil
    · exact memberOf_findMembers key true (some place) (place + 1) members
  | .null | .bool _ | .num _ | .str _ | .arr [] | .arr (.null :: _) | .arr (.bool _ :: _)
  | .arr (.num _ :: _) | .arr (.str _ :: _) | .arr (.arr _ :: _) =>
    fun x hx => absurd hx List.not_mem_nil

end

/-- **A finding that names a parent is a member of it**, and stands behind it. -/
theorem memberOf_findings (parentKey : String) (v : Json) {x : Finding × Nat}
    (hx : x ∈ (findings parentKey v).zipIdx) {p : Nat} (hp : x.1.parent = some p) :
    ∃ owner, (owner, p) ∈ (findings parentKey v).zipIdx ∧ p < x.2 ∧ x.1.MemberOf owner := by
  have howned : Owned none parentKey (findings parentKey v).zipIdx x ∨ x.1.parent = none := by
    by_cases h : ∃ members, v = .obj members
    · obtain ⟨members, rfl⟩ := h
      exact .inl (memberOf_findMembers parentKey false none 0 members x hx)
    · -- Any other value is itself the first finding, and has no parent.
      push Not at h
      obtain ⟨d, hd, hkey, htype, hfindings⟩ := findings_of_ne_obj parentKey h
      rw [hfindings, List.zipIdx_cons, List.mem_cons] at hx
      rw [hfindings, List.zipIdx_cons]
      rcases hx with rfl | hbelow
      · exact .inr hd
      · have hopened : d.type = .object ∨ d.type = .array :=
          htype ▸ inferType_of_findBelow fun hnil => by
            rw [hnil] at hbelow
            exact absurd hbelow List.not_mem_nil
        have hmember := memberOf_findBelow (rootKey parentKey) false 0 v x hbelow
        rw [← hkey] at hmember ⊢
        exact .inl (hmember.below hopened (List.le_snd_of_mem_zipIdx hbelow))
  -- Of these three only the middle one names a parent.
  rcases howned with (⟨hroot, -⟩ | ⟨⟨owner, place⟩, howner, hlt, hparent, hmember⟩) | hroot
  · exact absurd (hroot.symm.trans hp) (Option.some_ne_none p).symm
  · obtain rfl : p = place := Option.some.inj (hp.symm.trans hparent)
    exact ⟨owner, howner, hlt, hmember⟩
  · exact absurd (hroot.symm.trans hp) (Option.some_ne_none p).symm

/-! ### Inferred fields -/

namespace Inferrer

variable (inferrer : Inferrer) (v : Json) (parentKey : String) (start : Int64)

/-- The field at a place is that of the finding at the place. -/
theorem getElem?_infer {k : Nat} {f : Field} :
    (inferrer.infer v parentKey none start)[k]? = some f ↔
      ∃ d, (d, k) ∈ (findings parentKey v).zipIdx ∧
        inferrer.fieldAt v parentKey start (d, k) = f := by
  change ((findings parentKey v).mapIdx _)[k]? = some f ↔ _
  rw [List.getElem?_mapIdx, Option.map_eq_some_iff]
  exact exists_congr fun d => and_congr_left' List.mk_mem_zipIdx_iff_getElem?.symm

variable {inferrer v parentKey start} {k : Nat} {f : Field}

/-- **An inferred field has the first identifier that is free** for its key, after the fields
before it. -/
theorem firstFree_id_infer (h : (inferrer.infer v parentKey none start)[k]? = some f) :
    FirstFree (((inferrer.infer v parentKey none start).take k).map Field.id) f.key f.id := by
  obtain ⟨d, hd, rfl⟩ := (getElem?_infer ..).mp h
  have hkey : ((findings parentKey v).map Finding.key)[k]? = some d.key := by
    rw [List.getElem?_map, List.mk_mem_zipIdx_iff_getElem?.mp hd, Option.map_some]
  have hfree := getElem?_identify [] hkey
  rw [List.length_nil, Nat.zero_add] at hfree
  have hid : (idsOf v parentKey)[k]? = some (inferrer.fieldAt v parentKey start (d, k)).id :=
    getElem?_idsOf hd
  rw [List.map_take, map_id_infer, Option.some.inj (hid.symm.trans hfree)]
  exact firstFree_freeId _ _

/-- **The order of an inferred field** is its place, counted on from the start. -/
theorem order_infer (h : (inferrer.infer v parentKey none start)[k]? = some f) :
    f.order = (start + .ofNat k).toInt := by
  obtain ⟨d, hd, rfl⟩ := (getElem?_infer ..).mp h
  have hlt : k < (findings parentKey v).length := List.snd_lt_of_mem_zipIdx hd
  change ((orders start v).getD k 0).toInt = _
  rw [getD_orders parentKey start v hlt]

/-- **The parent of an inferred field** is an earlier one, an object or an array that the field
is a member of. -/
theorem exists_owner_infer (h : (inferrer.infer v parentKey none start)[k]? = some f) {id : String}
    (hid : f.parent = some id) :
    ∃ j owner, j < k ∧ (inferrer.infer v parentKey none start)[j]? = some owner ∧
      owner.id = id ∧ (owner.type = .object ∨ owner.type = .array) ∧
      ∃ name, f.outputName = some name ∧ f.key = joinKey owner.key name := by
  obtain ⟨d, hd, rfl⟩ := (getElem?_infer ..).mp h
  rw [parent_fieldAt] at hid
  obtain ⟨p, hp, hpid⟩ := Option.bind_eq_some_iff.mp hid
  obtain ⟨owner, howner, hlt, hmember⟩ := memberOf_findings parentKey v hd hp
  refine ⟨p, _, hlt, (getElem?_infer ..).mpr ⟨owner, howner, rfl⟩, ?_, hmember.opened,
    hmember.named⟩
  exact Option.some.inj ((getElem?_idsOf howner).symm.trans hpid)

/-- The owner of a field is the field of the finding that its finding names. -/
theorem owner?_fieldAt {x owner : Finding × Nat} (howner : owner ∈ (findings parentKey v).zipIdx)
    (hx : x.1.parent = some owner.2) :
    (FieldGraph.mk (inferrer.infer v parentKey none start)).owner?
        (inferrer.fieldAt v parentKey start x) =
      some (inferrer.fieldAt v parentKey start owner) := by
  have hmem : inferrer.fieldAt v parentKey start owner ∈ inferrer.infer v parentKey none start :=
    infer_eq_map inferrer v parentKey start ▸ List.mem_map_of_mem howner
  rw [FieldGraph.owner?, parent_fieldAt, hx, Option.bind_some, getElem?_idsOf howner,
    Option.bind_some]
  exact FieldGraph.get?_of_mem (inferrer.nodup_ids_infer v parentKey start) hmem

/-- **Every walk up from an inferred field ends**, as it goes to earlier fields only. -/
theorem wellFounded_hangs_infer (inferrer : Inferrer) (v : Json) (parentKey : String)
    (start : Int64) :
    WellFounded fun parent id =>
      (FieldGraph.mk (inferrer.infer v parentKey none start)).Hangs id parent := by
  have hnodup := inferrer.nodup_ids_infer v parentKey start
  -- Identifiers are distinct, so the first place of one is the place of its field.
  have hplace : ∀ {k : Nat} {f : Field}, (inferrer.infer v parentKey none start)[k]? = some f →
      ((inferrer.infer v parentKey none start).map Field.id).idxOf f.id = k := by
    intro k f hf
    have hid := congrArg (Option.map Field.id) hf
    rw [← List.getElem?_map, Option.map_some] at hid
    obtain ⟨hlt, hid⟩ := List.getElem?_eq_some_iff.mp hid
    rw [← hid, hnodup.idxOf_getElem k hlt]
  refine Subrelation.wf (r := InvImage (· < ·)
    ((inferrer.infer v parentKey none start).map Field.id).idxOf) ?_ (InvImage.wf _ Nat.lt_wfRel.wf)
  intro parent id hhangs
  obtain ⟨f, hf, rfl, hparent⟩ := hhangs.exists_mem
  obtain ⟨k, hk⟩ := List.mem_iff_getElem?.mp hf
  obtain ⟨j, owner, hlt, howner, rfl, -⟩ := exists_owner_infer hk hparent
  rw [InvImage, hplace hk, hplace howner]
  exact hlt

/-- **Inferred fields are well formed.** Their identifiers are pairwise distinct. Each field has
the place it stands at as its order, counted on from the start: the sum of sixty-four bits, which
is that of whole numbers as long as it does not wrap around. It has the first identifier that is
free for its key: the key itself, or the key with a number from two on. Its parent is an earlier
field, an object or an array, and its key is the parent's key with its own name behind it. So every
chain of parents is finite. -/
theorem infer_wellFormed (inferrer : Inferrer) (v : Json) (parentKey : String) (start : Int64) :
    let fields := inferrer.infer v parentKey none start
    (fields.map Field.id).Nodup ∧
      (∀ (k : Nat) (f : Field), fields[k]? = some f →
        f.order = (start + .ofNat k).toInt ∧
        (start.toInt + k ≤ Int64.maxValue.toInt → f.order = start.toInt + k) ∧
        FirstFree ((fields.take k).map Field.id) f.key f.id ∧
        ∀ id, f.parent = some id → ∃ j owner, j < k ∧ fields[j]? = some owner ∧ owner.id = id ∧
          (owner.type = .object ∨ owner.type = .array) ∧
          ∃ name, f.outputName = some name ∧
            f.key = if owner.key = "" then name else owner.key ++ "." ++ name) ∧
      WellFounded fun parent id => (FieldGraph.mk fields).Hangs id parent := by
  intro fields
  refine ⟨inferrer.nodup_ids_infer v parentKey start, fun k f hf => ⟨?_, ?_, ?_, ?_⟩,
    inferrer.wellFounded_hangs_infer v parentKey start⟩
  · exact order_infer hf
  · intro hfits
    rw [order_infer hf, toInt_add_ofNat hfits]
  · exact firstFree_id_infer hf
  · exact fun id hid => exists_owner_infer hf hid

-- Behind the largest number of sixty-four bits comes the smallest.
example :
    (builtIn.infer (.obj [("a", .obj []), ("b", .null)]) "" none Int64.maxValue).map Field.order =
      [Int64.maxValue.toInt, Int64.minValue.toInt] := by
  decide +kernel

end Inferrer

end ExtractionContract
