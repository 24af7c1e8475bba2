import ExtractionContract.Proofs.Sample.WellFormed

/-!
# Inferred fields lie one array deep

An array of a sample shows the fields of its first item, and an array inside an item shows none.
So a field stands *inside* an array or outside all of them: `FieldGraph.Stands` has one rule for a
root and one for a child, and the second lets nothing stand below an array that itself stands
inside. Where every field stands in this sense, no more than one array is above any field.

* `stands_infer`: inferred fields stand, by recursion on the sample: what is found below a value is
  inside if the value is an array, and as much inside as the value if it is an object.
* `LaterItemsReplaced`: a sample whose arrays have other items behind the first. The arrays are those
  that begin with an object and stand in no other array.
* `inferDocument_one_array_deep`: both consequences. An array inside an array has no children, and
  the fields of a sample do not depend on later items.
-/

namespace ExtractionContract

/-! ### Inside an array -/

namespace FieldGraph

/-- A field stands in a graph, inside the items of an array or not. A root stands outside. A child
stands inside if its owner does or is an array, and no array that stands inside has a child. -/
inductive Stands (g : FieldGraph) : Bool → Field → Prop
  | top {f : Field} : f.parent = none → Stands g false f
  | under {inside : Bool} {f owner : Field} : Stands g inside owner → g.owner? f = some owner →
    (owner.type = .array → inside = false) → Stands g (inside || owner.type.isArray) f

variable {g : FieldGraph} {inside : Bool} {f owner a : Field} {n : Nat}

/-- **A field stands inside** exactly if an array is above it. -/
theorem Stands.eq_true_iff (h : g.Stands inside f) :
    inside = true ↔ ∃ n a, g.above (n + 1) f = some a ∧ a.type = .array := by
  induction h with
  | @top f hparent =>
    refine iff_of_false Bool.false_ne_true ?_
    rintro ⟨n, a, habove, -⟩
    rw [above, owner?_eq_none hparent] at habove
    exact absurd habove (Option.some_ne_none a).symm
  | @under inside f owner _ howner _ ih =>
    simp only [above_succ_of_owner howner]
    rw [Bool.or_eq_true, ih, DataType.isArray, beq_iff_eq]
    -- The array above is the owner, or it is above the owner.
    constructor
    · rintro (⟨n, a, habove, harray⟩ | harray)
      · exact ⟨n + 1, a, habove, harray⟩
      · exact ⟨0, owner, rfl, harray⟩
    · rintro ⟨_ | n, a, habove, harray⟩
      · obtain rfl := Option.some.inj habove
        exact .inr harray
      · exact .inl ⟨n, a, habove, harray⟩

/-- **Above an array that has a child there is no array.** -/
theorem Stands.not_array_above (h : g.Stands inside f) (howner : g.owner? f = some owner)
    (harray : owner.type = .array) (habove : g.above (n + 1) owner = some a) :
    a.type ≠ .array := by
  cases h with
  | top hparent =>
    exact absurd ((owner?_eq_none hparent).symm.trans howner) (Option.some_ne_none owner).symm
  | @under inside _ owner' hstands howner' houtside =>
    obtain rfl : owner' = owner := Option.some.inj (howner'.symm.trans howner)
    intro ha
    have hinside : inside = true := hstands.eq_true_iff.mpr ⟨n, a, habove, ha⟩
    exact Bool.false_ne_true ((houtside harray).symm.trans hinside)

/-- **At most one array is above a field.** -/
theorem Stands.array_unique (h : g.Stands inside f) {m n : Nat} {a a' : Field}
    (hm : g.above (m + 1) f = some a) (ha : a.type = .array)
    (hn : g.above (n + 1) f = some a') (ha' : a'.type = .array) : m = n := by
  induction h generalizing m n with
  | @top f hparent =>
    rw [above, owner?_eq_none hparent] at hm
    exact absurd hm (Option.some_ne_none a).symm
  | @under inside f owner hstands howner houtside ih =>
    -- Either array is the owner or above it. If one is the owner, the other is not above it.
    have hbelow := Stands.under hstands howner houtside
    rw [above_succ_of_owner howner] at hm hn
    cases m with
    | zero =>
      obtain rfl := Option.some.inj hm
      cases n with
      | zero => rfl
      | succ n => exact absurd ha' (hbelow.not_array_above howner ha hn)
    | succ m =>
      cases n with
      | zero =>
        obtain rfl := Option.some.inj hn
        exact absurd ha (hbelow.not_array_above howner ha' hm)
      | succ n => rw [ih hm hn]

end FieldGraph

/-! ### Inferred fields stand -/

namespace Inferrer

section

variable (inferrer : Inferrer) (v : Json) (parentKey : String) (start : Int64)

/-- The field of a finding stands among the inferred fields. -/
def StandsAt (inside : Bool) (x : Finding × Nat) : Prop :=
  (FieldGraph.mk (inferrer.infer v parentKey none start)).Stands inside
    (inferrer.fieldAt v parentKey start x)

variable {inferrer v parentKey start} {inside : Bool} {x owner : Finding × Nat}

theorem standsAt_top (hx : x.1.parent = none) : inferrer.StandsAt v parentKey start false x :=
  .top (by rw [parent_fieldAt, hx, Option.bind_none])

/-- Below an object nothing changes. -/
theorem StandsAt.under_object (h : inferrer.StandsAt v parentKey start inside owner)
    (howner : owner ∈ (findings parentKey v).zipIdx) (hobject : owner.1.type = .object)
    (hx : x.1.parent = some owner.2) : inferrer.StandsAt v parentKey start inside x := by
  have hnot : (inferrer.fieldAt v parentKey start owner).type ≠ .array := by
    change owner.1.type ≠ .array
    rw [hobject]
    decide
  have hstands := FieldGraph.Stands.under h (owner?_fieldAt howner hx) fun e => absurd e hnot
  rwa [DataType.isArray, beq_false_of_ne hnot, Bool.or_false] at hstands

/-- Below an array that stands outside is the inside. -/
theorem StandsAt.under_array (h : inferrer.StandsAt v parentKey start false owner)
    (howner : owner ∈ (findings parentKey v).zipIdx) (harray : owner.1.type = .array)
    (hx : x.1.parent = some owner.2) : inferrer.StandsAt v parentKey start true x := by
  have htype : (inferrer.fieldAt v parentKey start owner).type = .array := harray
  have hstands := FieldGraph.Stands.under h (owner?_fieldAt howner hx) fun _ => rfl
  rwa [DataType.isArray, beq_iff_eq.mpr htype] at hstands

mutual

/-- **The fields of an object's members stand**, where what names the given parent does. -/
theorem standsAt_findMembers (ownerKey : String) (inItem : Bool) (parent : Option Nat) (place : Nat)
    (hparent : ∀ x ∈ (findings parentKey v).zipIdx, x.1.parent = parent →
      inferrer.StandsAt v parentKey start inItem x) : ∀ members : List (String × Json),
    (findMembers ownerKey inItem parent place members).zipIdx place ⊆
      (findings parentKey v).zipIdx →
    ∀ x ∈ (findMembers ownerKey inItem parent place members).zipIdx place,
      ∃ inside, inferrer.StandsAt v parentKey start inside x
  | [] => fun _ x hx => absurd hx List.not_mem_nil
  | (key, w) :: rest => by
    intro hsub x hx
    rw [zipIdx_findMembers_cons, List.cons_subset, List.append_subset] at hsub
    rw [zipIdx_findMembers_cons, List.mem_cons, List.mem_append] at hx
    obtain ⟨htop, hbelow, hrest⟩ := hsub
    -- The member itself names the given parent, what is below its value names the member.
    have hfirst := hparent _ htop rfl
    rcases hx with rfl | hx | hx
    · exact ⟨inItem, hfirst⟩
    · exact standsAt_findBelow (joinKey ownerKey key) htop hfirst w rfl hbelow x hx
    · exact standsAt_findMembers ownerKey inItem parent _ hparent rest hrest x hx

/-- **The fields below a value stand**, where the field of the value does. -/
theorem standsAt_findBelow (key : String) {inItem : Bool} {owner : Finding × Nat}
    (howner : owner ∈ (findings parentKey v).zipIdx)
    (h : inferrer.StandsAt v parentKey start inItem owner) : ∀ w : Json,
    owner.1.type = inferType w →
    (findBelow key inItem owner.2 w).zipIdx (owner.2 + 1) ⊆ (findings parentKey v).zipIdx →
    ∀ x ∈ (findBelow key inItem owner.2 w).zipIdx (owner.2 + 1),
      ∃ inside, inferrer.StandsAt v parentKey start inside x
  | .obj members, htype =>
    standsAt_findMembers key inItem (some owner.2) (owner.2 + 1)
      (fun _ _ hx => h.under_object howner htype hx) members
  | .arr (.obj members :: tail), htype => by
    rw [findBelow]
    split
    · -- An array in an item is a leaf.
      exact fun _ x hx => absurd hx List.not_mem_nil
    · next houtside =>
      obtain rfl : inItem = false := by simpa using houtside
      exact standsAt_findMembers key true (some owner.2) (owner.2 + 1)
        (fun _ _ hx => h.under_array howner htype hx) members
  | .null, _ | .bool _, _ | .num _, _ | .str _, _ | .arr [], _ | .arr (.null :: _), _
  | .arr (.bool _ :: _), _ | .arr (.num _ :: _), _ | .arr (.str _ :: _), _
  | .arr (.arr _ :: _), _ => fun _ x hx => absurd hx List.not_mem_nil

end

/-- **Every inferred field stands**, inside an array or outside. -/
theorem stands_infer {f : Field} (hf : f ∈ inferrer.infer v parentKey none start) :
    ∃ inside, (FieldGraph.mk (inferrer.infer v parentKey none start)).Stands inside f := by
  rw [infer_eq_map, List.mem_map] at hf
  obtain ⟨x, hx, rfl⟩ := hf
  by_cases h : ∃ members, v = .obj members
  · obtain ⟨members, rfl⟩ := h
    exact standsAt_findMembers parentKey false none 0 (fun _ _ hp => standsAt_top hp) members
      (List.Subset.refl _) x hx
  · -- Any other value is itself the first finding.
    push Not at h
    obtain ⟨d, hd, hkey, htype, hfindings⟩ := findings_of_ne_obj parentKey h
    have hlayout : (findings parentKey v).zipIdx =
        (d, 0) :: (findBelow (rootKey parentKey) false 0 v).zipIdx 1 := by
      rw [hfindings, List.zipIdx_cons]
    have hfirst : (d, 0) ∈ (findings parentKey v).zipIdx := hlayout ▸ List.mem_cons_self
    rw [hlayout, List.mem_cons] at hx
    rcases hx with rfl | hbelow
    · exact ⟨false, standsAt_top hd⟩
    · exact standsAt_findBelow (rootKey parentKey) hfirst (standsAt_top hd) v htype
        (hlayout ▸ List.subset_cons_self _ _) x hbelow

end

end Inferrer

/-! ### Later items -/

namespace Json

mutual

/-- The second sample is the first with other items behind the first item of some arrays: of such
that begin with an object and stand in no other array. -/
def LaterItemsReplaced : Json → Json → Prop
  | obj members, w => ∃ others, w = obj others ∧ LaterItemsReplacedIn members others
  | arr (obj first :: _), w => ∃ later, w = arr (obj first :: later)
  | v, w => w = v

/-- `Json.LaterItemsReplaced` of the values of members, which have the same keys. -/
def LaterItemsReplacedIn : List (String × Json) → List (String × Json) → Prop
  | [], others => others = []
  | (key, v) :: rest, others => ∃ w others', others = (key, w) :: others' ∧
    LaterItemsReplaced v w ∧ LaterItemsReplacedIn rest others'

end

end Json

open Json (LaterItemsReplaced LaterItemsReplacedIn)

theorem findMember_congr (parentKey : String) (parent : Option Nat) (key : String) :
    ∀ {v w : Json}, v.LaterItemsReplaced w →
      findMember parentKey false parent key w = findMember parentKey false parent key v
  | .obj _, _, ⟨_, rfl, _⟩ | .arr (.obj _ :: _), _, ⟨_, rfl⟩ => rfl
  | .null, _, rfl | .bool _, _, rfl | .num _, _, rfl | .str _, _, rfl | .arr [], _, rfl
  | .arr (.null :: _), _, rfl | .arr (.bool _ :: _), _, rfl | .arr (.num _ :: _), _, rfl
  | .arr (.str _ :: _), _, rfl | .arr (.arr _ :: _), _, rfl => rfl

mutual

theorem findMembers_congr (ownerKey : String) (parent : Option Nat) (place : Nat) :
    ∀ {members others : List (String × Json)}, LaterItemsReplacedIn members others →
      findMembers ownerKey false parent place others =
        findMembers ownerKey false parent place members
  | [], _, rfl => rfl
  | (key, _) :: _, _, ⟨_, _, rfl, hv, hrest⟩ => by
    rw [findMembers, findMembers, findMember_congr ownerKey parent key hv,
      findBelow_congr (joinKey ownerKey key) place hv, findMembers_congr ownerKey parent _ hrest]

theorem findBelow_congr (key : String) (place : Nat) : ∀ {v w : Json}, v.LaterItemsReplaced w →
    findBelow key false place w = findBelow key false place v
  | .obj _, _, ⟨_, rfl, h⟩ => findMembers_congr key (some place) (place + 1) h
  | .arr (.obj _ :: _), _, ⟨_, rfl⟩ => rfl
  | .null, _, rfl | .bool _, _, rfl | .num _, _, rfl | .str _, _, rfl | .arr [], _, rfl
  | .arr (.null :: _), _, rfl | .arr (.bool _ :: _), _, rfl | .arr (.num _ :: _), _, rfl
  | .arr (.str _ :: _), _, rfl | .arr (.arr _ :: _), _, rfl => rfl

end

/-- **The findings of a sample do not depend on later items.** -/
theorem findings_congr (parentKey : String) : ∀ {v w : Json}, v.LaterItemsReplaced w →
    findings parentKey w = findings parentKey v
  | .obj _, _, ⟨_, rfl, h⟩ => findMembers_congr parentKey none 0 h
  | .arr (.obj _ :: _), _, ⟨_, rfl⟩ => rfl
  | .null, _, rfl | .bool _, _, rfl | .num _, _, rfl | .str _, _, rfl | .arr [], _, rfl
  | .arr (.null :: _), _, rfl | .arr (.bool _ :: _), _, rfl | .arr (.num _ :: _), _, rfl
  | .arr (.str _ :: _), _, rfl | .arr (.arr _ :: _), _, rfl => rfl

/-! ### One array deep -/

namespace Inferrer

/-- **Inferred fields lie one array deep.** In the fields of a sample of any depth, an array that has
an array among its ancestors has no children, and no field has two arrays among its ancestors. And
the fields are the same, all of them in all their attributes, whatever stands behind the first items
of the arrays that begin with an object and stand in no other array. -/
theorem inferDocument_one_array_deep (inferrer : Inferrer) (v : Json) :
    let g : FieldGraph := ⟨inferrer.inferDocument v⟩
    (∀ f ∈ g.fields, f.type = .array →
      (∃ n a, g.above (n + 1) f = some a ∧ a.type = .array) → g.childrenOf f.id = []) ∧
      (∀ f ∈ g.fields, ∀ m n a a', g.above (m + 1) f = some a → a.type = .array →
        g.above (n + 1) f = some a' → a'.type = .array → m = n) ∧
      ∀ w, v.LaterItemsReplaced w → inferrer.inferDocument w = inferrer.inferDocument v := by
  intro g
  refine ⟨?_, ?_, ?_⟩
  · rintro f hf harray ⟨n, a, habove, ha⟩
    refine List.filter_eq_nil_iff.mpr fun child hchild hparent => ?_
    -- A child would stand below an array that has another one above it.
    obtain ⟨inside, hstands⟩ := stands_infer hchild
    have howner : g.owner? child = some f := by
      rw [FieldGraph.owner?, Field.isChildOf_iff.mp hparent, Option.bind_some]
      exact FieldGraph.get?_of_mem (inferrer.nodup_ids_infer v "" 0) hf
    exact hstands.not_array_above howner harray habove ha
  · intro f hf m n a a' hm ha hn ha'
    obtain ⟨inside, hstands⟩ := stands_infer hf
    exact hstands.array_unique hm ha hn ha'
  · intro w h
    -- Orders are counted on over the findings, so they do not depend on later items either.
    rw [inferDocument, inferDocument, infer, infer, orders_eq "" 0 w, orders_eq "" 0 v,
      findings_congr "" h]

/-- Lines of which the first one has tags and, below an object, a list of sizes, and beside the lines
an object with a log. The tags are objects and yet have no children, the lines are the only array
above them, and no more lines and no more entries of the log change anything. -/
theorem one_array_deep_of_nested_arrays :
    let item : Json := .obj [("tags", .arr [.obj [("x", .ofInt 1)]]),
      ("size", .obj [("mm", .arr [.ofInt 7])])]
    let sample (later : List Json) : Json := .obj [("lines", .arr (item :: later)),
      ("meta", .obj [("log", .arr (.obj [("at", .null)] :: later))])]
    let tags : Field :=
      { id := "lines.tags", key := "lines.tags", name := some "Tags", outputName := some "tags"
        type := .array, sample := some "[\x7b\"x\":1\x7d]", order := 1, parent := some "lines" }
    let g : FieldGraph := ⟨builtIn.inferDocument (sample [])⟩
    tags ∈ g.fields ∧ g.childrenOf "lines.tags" = [] ∧
      (∀ n a, g.above (n + 1) tags = some a → a.type = .array → n = 0) ∧
      builtIn.inferDocument (sample [.null, item]) = builtIn.inferDocument (sample []) := by
  intro item sample tags g
  obtain ⟨hleaf, hunique, hlater⟩ := builtIn.inferDocument_one_array_deep (sample [])
  have htags : tags ∈ g.fields := by decide +kernel
  obtain ⟨lines, habove, hlines⟩ : ∃ a, g.above 1 tags = some a ∧ a.type = .array :=
    ⟨_, rfl, by decide +kernel⟩
  refine ⟨htags, hleaf tags htags rfl ⟨0, lines, habove, hlines⟩, ?_, hlater _ ?_⟩
  · exact fun n a ha harray => hunique tags htags n 0 a lines ha harray habove hlines
  · have hlog : (Json.obj [("log", .arr [.obj [("at", .null)]])]).LaterItemsReplaced
        (.obj [("log", .arr [.obj [("at", .null)], .null, item])]) :=
      ⟨_, rfl, _, _, rfl, ⟨_, rfl⟩, rfl⟩
    exact ⟨_, rfl, _, _, rfl, ⟨_, rfl⟩, _, _, rfl, hlog, rfl⟩

end Inferrer

end ExtractionContract
