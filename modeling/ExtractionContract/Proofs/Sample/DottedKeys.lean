import ExtractionContract.Proofs.Graph.Chain
import ExtractionContract.Proofs.Graph.Display
import ExtractionContract.Proofs.Json.EveryObject
import ExtractionContract.Proofs.Sample.WellFormed

/-!
# Keys of inferred fields tell their levels

The key of an inferred field is its owner's key with a dot and its own name behind it. Where the names
in a sample are *plain*, not empty and without a dot, a field therefore has a dot in its key for
each field above it: a root has none, and each hop down adds one (`endsAfter_dots_infer`).

* `displayAll_inferDocument`: so the fields of such a sample are displayed alike with their links and
  without them.
-/

namespace ExtractionContract

/-- A key that is not empty and has no dot in it. -/
def PlainKey (key : String) : Prop :=
  key ≠ "" ∧ '.' ∉ key.toList

instance (key : String) : Decidable (PlainKey key) :=
  inferInstanceAs (Decidable (key ≠ "" ∧ '.' ∉ key.toList))

/-- All keys of an object are plain. -/
def PlainKeys (keys : List String) : Prop :=
  ∀ key ∈ keys, PlainKey key

instance (keys : List String) : Decidable (PlainKeys keys) :=
  inferInstanceAs (Decidable (∀ key ∈ keys, PlainKey key))

/-! ### Names of findings -/

mutual

/-- **What is found in the members of an object** has names that the members have, at some depth. -/
theorem plainKey_findMembers (ownerKey : String) (inItem : Bool) (parent : Option Nat)
    (place : Nat) : ∀ {members : List (String × Json)}, PlainKeys (Members.keys members) →
    Json.EveryMember PlainKeys members →
    ∀ d ∈ findMembers ownerKey inItem parent place members, ∀ name ∈ d.memberKey, PlainKey name
  | [], _, _ => fun d hd => absurd hd List.not_mem_nil
  | (key, v) :: rest, hkeys, hvalues => by
    obtain ⟨hkey, hrest⟩ := List.forall_mem_cons.mp hkeys
    intro d hd
    -- It is the first member, or below its value, or found in the rest.
    rw [findMembers, List.cons_append, List.mem_cons, List.mem_append] at hd
    rcases hd with rfl | hbelow | hlater
    · rintro name ⟨⟩
      exact hkey
    · exact plainKey_findBelow (joinKey ownerKey key) inItem place hvalues.1 d hbelow
    · exact plainKey_findMembers ownerKey inItem parent _ hrest hvalues.2 d hlater

theorem plainKey_findBelow (key : String) (inItem : Bool) (place : Nat) : ∀ {v : Json},
    v.EveryObject PlainKeys →
    ∀ d ∈ findBelow key inItem place v, ∀ name ∈ d.memberKey, PlainKey name
  | .obj _, h => plainKey_findMembers key inItem (some place) (place + 1) h.1 h.2
  | .arr (.obj _ :: _), h => by
    rw [findBelow]
    split
    · exact fun d hd => absurd hd List.not_mem_nil
    · exact plainKey_findMembers key true (some place) (place + 1) h.1.1 h.1.2
  | .null, _ | .bool _, _ | .num _, _ | .str _, _ | .arr [], _ | .arr (.null :: _), _
  | .arr (.bool _ :: _), _ | .arr (.num _ :: _), _ | .arr (.str _ :: _), _
  | .arr (.arr _ :: _), _ => fun d hd => absurd hd List.not_mem_nil

end

/-- **The names of findings are plain**, and so are the keys of those without a parent. -/
theorem plainKey_findings {v : Json} (h : v.EveryObject PlainKeys) {x : Finding × Nat}
    (hx : x ∈ (findings "" v).zipIdx) :
    (x.1.parent = none → PlainKey x.1.key) ∧
      (x.1.parent ≠ none → ∀ name ∈ x.1.memberKey, PlainKey name) := by
  by_cases hobj : ∃ members, v = .obj members
  · obtain ⟨members, rfl⟩ := hobj
    have hmem : x.1 ∈ findMembers "" false none 0 members := List.fst_mem_of_mem_zipIdx hx
    have hname := plainKey_findMembers "" false none 0 h.1 h.2 x.1 hmem
    refine ⟨fun hroot => ?_, fun _ => hname⟩
    -- The key of a member of the sample is its name.
    rcases memberOf_findMembers "" false none 0 members x hx with ⟨-, name, hmember, hkey⟩ | howned
    · rw [hkey, joinKey, if_pos rfl]
      exact hname name hmember
    · obtain ⟨y, -, -, hparent, -⟩ := howned
      exact absurd (hroot.symm.trans hparent) (Option.some_ne_none y.2).symm
  · push Not at hobj
    obtain ⟨d, hd, hkey, -, hfindings⟩ := findings_of_ne_obj "" hobj
    rw [hfindings, List.zipIdx_cons, List.mem_cons] at hx
    rcases hx with rfl | hbelow
    · -- The first finding has the key of a document that is no object.
      refine ⟨fun _ => ?_, fun hne => absurd hd hne⟩
      rw [hkey]
      exact ⟨by decide, by decide⟩
    · -- What is below it has a parent, the first finding or one behind.
      refine ⟨fun hroot => ?_, fun _ => ?_⟩
      · rcases parent_findBelow (rootKey "") false 0 v x hbelow with hparent | ⟨p, hparent, -⟩
        · exact absurd (hroot.symm.trans hparent) (Option.some_ne_none 0).symm
        · exact absurd (hroot.symm.trans hparent) (Option.some_ne_none p).symm
      · exact plainKey_findBelow (rootKey "") false 0 h x.1 (List.fst_mem_of_mem_zipIdx hbelow)

/-! ### Dots -/

theorem count_joinKey {ownerKey name : String} (howner : ownerKey ≠ "") :
    (joinKey ownerKey name).toList.count '.' =
      ownerKey.toList.count '.' + 1 + name.toList.count '.' := by
  rw [joinKey, if_neg howner, String.toList_append, String.toList_append, List.count_append,
    List.count_append]
  rfl

/-- A joined key has a dot. -/
theorem joinKey_ne_empty {ownerKey name : String} (howner : ownerKey ≠ "") :
    joinKey ownerKey name ≠ "" := by
  intro hempty
  have hcount : (joinKey ownerKey name).toList.count '.' = _ := count_joinKey howner
  rw [hempty, String.toList_empty, List.count_nil] at hcount
  omega

namespace Inferrer

variable {inferrer : Inferrer} {v : Json} {start : Int64}

/-- **An inferred field has as many fields above it as dots in its key**, where the keys of the sample
are plain. -/
theorem endsAfter_dots_infer (h : v.EveryObject PlainKeys) {x : Finding × Nat}
    (hx : x ∈ (findings "" v).zipIdx) :
    x.1.key ≠ "" ∧ (FieldGraph.mk (inferrer.infer v "" none start)).EndsAfter
      (inferrer.fieldAt v "" start x) (x.1.key.toList.count '.') := by
  obtain ⟨d, k⟩ := x
  -- Parents stand before their children, so the induction is on the place.
  induction k using Nat.strongRecOn generalizing d with
  | ind k ih =>
    obtain ⟨hroot, hname⟩ := plainKey_findings h hx
    cases hp : d.parent with
    | none =>
      obtain ⟨hne, hdot⟩ := hroot hp
      refine ⟨hne, ?_⟩
      have hparent : (inferrer.fieldAt v "" start (d, k)).parent = none := by
        rw [parent_fieldAt, hp, Option.bind_none]
      rw [List.count_eq_zero.mpr hdot, FieldGraph.endsAfter_zero]
      exact FieldGraph.owner?_eq_none hparent
    | some p =>
      obtain ⟨owner, howner, hlt, -, name, hmember, hkey⟩ := memberOf_findings "" v hx hp
      obtain ⟨hne, hends⟩ := ih p hlt owner howner
      have hplain : PlainKey name := hname (hp ▸ Option.some_ne_none p) name hmember
      -- The key is the owner's, a dot and a name without one.
      rw [hkey]
      refine ⟨joinKey_ne_empty hne, ?_⟩
      rw [count_joinKey hne, List.count_eq_zero.mpr hplain.2, Nat.add_zero,
        FieldGraph.endsAfter_succ]
      exact ⟨_, owner?_fieldAt howner hp, hends⟩

/-- **The dots in keys agree with the links.** Where the keys of a sample are not empty and without a
dot, at any depth, the number of parents above an inferred field is the number of dots in its key.
So the fields are displayed with all links taken away as they are displayed with them. -/
theorem displayAll_inferDocument (inferrer : Inferrer) (h : v.EveryObject PlainKeys) :
    let g : FieldGraph := ⟨inferrer.inferDocument v⟩
    (∀ f ∈ g.fields, g.EndsAfter f f.dots ∧ g.depth f = f.dots) ∧
      ∀ unit, g.unlinked.displayAll unit = g.displayAll unit := by
  intro g
  have hdots : ∀ f ∈ g.fields, g.EndsAfter f f.dots ∧ g.depth f = f.dots := by
    intro f hf
    have hfields : g.fields = (findings "" v).zipIdx.map (inferrer.fieldAt v "" 0) :=
      infer_eq_map inferrer v "" 0
    obtain ⟨x, hx, rfl⟩ := List.mem_map.mp (hfields ▸ hf)
    obtain ⟨-, hends⟩ := endsAfter_dots_infer h hx
    exact ⟨hends, hends.depth_eq hf⟩
  refine ⟨hdots, fun unit => ?_⟩
  exact FieldGraph.displayAll_unlinked_of_dots (inferrer.nodup_ids_infer v "" 0)
    (fun f hf => (hdots f hf).2) unit

/-- A document that is an array of orders, each with a cart that names its owner: above the owner's
name are the array, the cart and the owner. -/
theorem displayAll_inferDocument_of_orders :
    let v : Json := .arr [.obj [("cart", .obj [("owner", .obj [("name", .str "a")])]),
      ("note", .null)]]
    let name : Field :=
      { id := "root.cart.owner.name", key := "root.cart.owner.name", name := some "Name"
        outputName := some "name", sample := some "a", order := 3
        parent := some "root.cart.owner" }
    let g : FieldGraph := ⟨builtIn.inferDocument v⟩
    v.EveryObject PlainKeys ∧ name ∈ g.fields ∧ g.depth name = 3 ∧
      g.unlinked.displayAll Display.defaultUnit = g.displayAll Display.defaultUnit := by
  intro v name g
  have hplain : v.EveryObject PlainKeys :=
    ⟨⟨by decide, ⟨by decide, ⟨by decide, trivial, trivial⟩, trivial⟩, trivial, trivial⟩, trivial⟩
  obtain ⟨hdepths, hdisplay⟩ := builtIn.displayAll_inferDocument hplain
  have hname : name ∈ g.fields := by decide +kernel
  have hdots : name.dots = 3 := by decide +kernel
  exact ⟨hplain, hname, hdots ▸ (hdepths name hname).2, hdisplay _⟩

end Inferrer

end ExtractionContract
