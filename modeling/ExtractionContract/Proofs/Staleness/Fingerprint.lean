import ExtractionContract.Proofs.Field.DataType
import ExtractionContract.Proofs.Json.Alike
import ExtractionContract.Proofs.Json.Unambiguous
import ExtractionContract.Staleness.Fingerprint
import Mathlib.Data.Multiset.Basic

/-!
# What a fingerprint sees

The bytes that a fingerprint is taken of determine the essentials of the fields, in order, and
the schema up to the order of members, and are determined by them. Two facts carry this: the
document of a contract can be read off its canonical text (`Json.toUTF8_text_inj`), and alike
documents have one canonical form (`Json.alike_iff_canonical_eq`).

An edit of one field that moves it among the others is seen too: the other fields give the same
essentials before and after, so they cannot make up for what has changed.

* `canonicalBytes_eq_iff`: when two contracts have the same bytes.
* `canonicalBytes_set_ne`: a changed field changes the bytes.
* `canonicalBytes_sees_essentials`: all of it.
-/

namespace ExtractionContract

/-! ### Essentials -/

/-- The properties of a field that a fingerprint depends on. -/
structure Essentials where
  key : String
  name : Option String
  typeName : String
  required : Bool
  description : Option String
  order : Int

/-- The essentials of a field. -/
def Field.essentials (f : Field) : Essentials where
  key := f.key
  name := f.name
  typeName := f.type.name
  required := f.required
  description := f.description
  order := f.order

/-- The essentials of the fields, in the order of their orders and then of their keys. -/
def FieldGraph.essentials (g : FieldGraph) : List Essentials :=
  (g.fields.mergeSort fingerprintLe).map Field.essentials

/-- The order of fields in a fingerprint, told by their essentials. -/
def Essentials.le (a b : Essentials) : Bool :=
  a.order < b.order || (a.order == b.order && a.key ≤ b.key)

theorem FieldGraph.essentials_eq_mergeSort (g : FieldGraph) :
    g.essentials = (g.fields.map Field.essentials).mergeSort Essentials.le :=
  List.map_mergeSort fun _ _ _ _ => rfl

theorem FieldGraph.essentials_perm (g : FieldGraph) :
    g.essentials.Perm (g.fields.map Field.essentials) :=
  g.essentials_eq_mergeSort ▸ List.mergeSort_perm _ _

/-! ### Documents of contracts -/

namespace Json

theorem alike_ofOption_iff {a b : Option String} : Alike (ofOption a) (ofOption b) ↔ a = b := by
  cases a <;> cases b <;> simp [ofOption, Alike]

theorem alike_essence_iff {f f' : Field} :
    Alike f.essence f'.essence ↔ f.essentials = f'.essentials := by
  unfold Field.essence
  rw [alike_obj_iff (by simp [Members.keys]) (by rfl)]
  simp [AlikeMembers, Alike, alike_ofOption_iff, Field.essentials, ofInt]

theorem alikeItems_map_essence_iff {fs fs' : List Field} :
    AlikeItems (fs.map Field.essence) (fs'.map Field.essence) ↔
      fs.map Field.essentials = fs'.map Field.essentials := by
  induction fs generalizing fs' with
  | nil => cases fs' <;> simp [AlikeItems]
  | cons f fs ih =>
    cases fs' with
    | nil => simp [AlikeItems]
    | cons f' fs' => simp [AlikeItems, alike_essence_iff, ih]

end Json

open Json

/-- **Documents are alike** when the essentials are the same and the schemas alike. -/
theorem alike_contractDocument_iff {g g' : FieldGraph} {s s' : Option String} :
    Alike (contractDocument g s) (contractDocument g' s') ↔
      g.essentials = g'.essentials ∧ Alike (schemaValue s) (schemaValue s') := by
  unfold contractDocument
  rw [alike_obj_iff (by simp [Members.keys]) (by rfl)]
  simp [AlikeMembers, Alike, alikeItems_map_essence_iff, FieldGraph.essentials]

/-- A schema's value has the properties of everything that is read. -/
theorem Json.Readings.schemaValue {P : Json → Prop} (hP : Readings P) (s : Option String) :
    P (schemaValue s) := by
  unfold ExtractionContract.schemaValue
  split
  · exact hP.null
  · split
    · next h => exact hP.parse h
    · exact hP.null

theorem Json.Readings.ofOption {P : Json → Prop} (hP : Readings P) (s : Option String) :
    P (Json.ofOption s) := by
  cases s with
  | none => exact hP.null
  | some s => exact hP.str s

theorem Json.Readings.essence {P : Json → Prop} (hP : Readings P) (f : Field) : P f.essence := by
  refine hP.obj _ (by simp [Members.keys]) fun m hm => ?_
  simp only [List.mem_cons, List.not_mem_nil, or_false] at hm
  rcases hm with rfl | rfl | rfl | rfl | rfl | rfl
  · exact hP.str _
  · exact hP.ofOption _
  · exact hP.str _
  · exact hP.bool _
  · exact hP.ofOption _
  · exact hP.num _ rfl

/-- A contract's document has the properties of everything that is read, too. -/
theorem Json.Readings.contractDocument {P : Json → Prop} (hP : Readings P) (g : FieldGraph)
    (s : Option String) : P (contractDocument g s) := by
  refine hP.obj _ (by simp [Members.keys]) fun m hm => ?_
  simp only [List.mem_cons, List.not_mem_nil, or_false] at hm
  rcases hm with rfl | rfl
  · exact hP.arr _ (List.forall_mem_map.mpr fun f _ => hP.essence f)
  · exact hP.schemaValue s

/-! ### Bytes -/

/-- **Two contracts have the same bytes** when the essentials of their fields are the same, in
order, and their schemas differ in the order of members only. -/
theorem canonicalBytes_eq_iff {g g' : FieldGraph} {s s' : Option String} :
    canonicalBytes g s = canonicalBytes g' s' ↔
      g.essentials = g'.essentials ∧ Alike (schemaValue s) (schemaValue s') := by
  rw [← alike_contractDocument_iff, alike_iff_canonical_eq (readings_distinct.contractDocument g s)
    (readings_distinct.contractDocument g' s')]
  constructor
  · exact toUTF8_text_inj (finite_canonical (readings_finite.contractDocument g s))
      (finite_canonical (readings_finite.contractDocument g' s'))
  · intro h
    rw [canonicalBytes, canonicalBytes, canonicalText, canonicalText, h]

/-! ### One changed field -/

/-- **A changed field changes the essentials**, wherever it moves to. -/
theorem essentials_set_ne {g : FieldGraph} {i : Nat} (hi : i < g.fields.length) {f : Field}
    (h : f.essentials ≠ g.fields[i].essentials) :
    FieldGraph.essentials ⟨g.fields.set i f⟩ ≠ g.essentials := by
  intro heq
  -- Both graphs are the same fields, in some order, and one more.
  have hnew : (g.fields.set i f).Perm (f :: g.fields.eraseIdx i) := by
    have hlength : i < (g.fields.set i f).length := by rwa [List.length_set]
    have hperm := List.getElem_cons_eraseIdx_perm hlength
    rw [List.getElem_set_self, List.eraseIdx_set_eq] at hperm
    exact hperm.symm
  have hold : g.fields.Perm (g.fields[i] :: g.fields.eraseIdx i) :=
    (List.getElem_cons_eraseIdx_perm hi).symm
  have hessentials := (hnew.map Field.essentials).symm.trans
    ((FieldGraph.essentials_perm ⟨g.fields.set i f⟩).symm.trans
      (heq ▸ g.essentials_perm.trans (hold.map Field.essentials)))
  rw [List.map_cons, List.map_cons, ← Multiset.coe_eq_coe, ← Multiset.cons_coe,
    ← Multiset.cons_coe, Multiset.cons_inj_left] at hessentials
  exact h hessentials

/-- Fields of parsed types that differ in key, type or whether they are required differ in their
essentials. -/
theorem essentials_ne {f f' : Field} (hf : f.type.Parsed) (hf' : f'.type.Parsed)
    (h : f.key ≠ f'.key ∨ f.type ≠ f'.type ∨ f.required ≠ f'.required) :
    f.essentials ≠ f'.essentials := by
  intro heq
  rcases h with hkey | htype | hrequired
  · exact hkey (congrArg Essentials.key heq)
  · exact htype (hf.name_inj hf' (congrArg Essentials.typeName heq))
  · exact hrequired (congrArg Essentials.required heq)

/-- **A fingerprint sees exactly what it should.** Contracts have the same bytes when their
fields' essentials are the same, in order, and their schemas differ in the order of members only.
So a field whose key, type or being required changes, and a schema whose content changes, always
change the bytes, and changes of fields that keep the essentials never do. -/
theorem canonicalBytes_sees_essentials :
    (∀ (g g' : FieldGraph) (s s' : Option String), canonicalBytes g s = canonicalBytes g' s' ↔
      g.essentials = g'.essentials ∧ Alike (schemaValue s) (schemaValue s')) ∧
    (∀ (g : FieldGraph) (s s' : Option String) (i : Nat) (hi : i < g.fields.length) (f : Field),
      g.fields[i].type.Parsed → f.type.Parsed →
      (f.key ≠ g.fields[i].key ∨ f.type ≠ g.fields[i].type ∨ f.required ≠ g.fields[i].required) →
      canonicalBytes ⟨g.fields.set i f⟩ s' ≠ canonicalBytes g s) ∧
    (∀ (g g' : FieldGraph) (s s' : Option String), ¬Alike (schemaValue s') (schemaValue s) →
      canonicalBytes g' s' ≠ canonicalBytes g s) ∧
    (∀ (g g' : FieldGraph) (s : Option String),
      g'.fields.map Field.essentials = g.fields.map Field.essentials →
      canonicalBytes g' s = canonicalBytes g s) := by
  refine ⟨fun _ _ _ _ => canonicalBytes_eq_iff, ?_, ?_, ?_⟩
  · intro g s s' i hi f hold hnew hchange heq
    exact essentials_set_ne hi (essentials_ne hnew hold hchange) (canonicalBytes_eq_iff.mp heq).1
  · intro g g' s s' hschema heq
    exact hschema (canonicalBytes_eq_iff.mp heq).2
  · intro g g' s hfields
    refine canonicalBytes_eq_iff.mpr ⟨?_, (alike_iff_canonical_eq ?_ ?_).mpr rfl⟩
    · rw [FieldGraph.essentials_eq_mergeSort, hfields, ← FieldGraph.essentials_eq_mergeSort]
    · exact readings_distinct.schemaValue s
    · exact readings_distinct.schemaValue s

/-- One field, before and after a change of its key and of its identifier, and a schema that
comes to say something. -/
theorem canonicalBytes_of_one_field :
    canonicalBytes ⟨[{ id := "1", key := "total" }]⟩ none ≠
      canonicalBytes ⟨[{ id := "1", key := "sum" }]⟩ none ∧
    canonicalBytes ⟨[{ id := "1", key := "sum" }]⟩ (some "true") ≠
      canonicalBytes ⟨[{ id := "1", key := "sum" }]⟩ none ∧
    canonicalBytes ⟨[{ id := "2", key := "sum", parent := some "9" }]⟩ none =
      canonicalBytes ⟨[{ id := "1", key := "sum" }]⟩ none := by
  obtain ⟨-, hfield, hschema, hfields⟩ := canonicalBytes_sees_essentials
  have hparsed : DataType.string.Parsed := ⟨"string", by decide +kernel⟩
  refine ⟨?_, ?_, ?_⟩
  · exact hfield ⟨[{ id := "1", key := "sum" }]⟩ none none 0 Nat.one_pos
      { id := "1", key := "total" } hparsed hparsed (.inl (by decide))
  · refine hschema _ _ none (some "true") fun halike => ?_
    have htrue : schemaValue (some "true") = .bool true := by rfl
    rw [htrue] at halike
    cases halike
  · exact hfields _ _ none rfl

end ExtractionContract
