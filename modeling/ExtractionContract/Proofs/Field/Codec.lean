import ExtractionContract.Graph.Basic
import ExtractionContract.Proofs.Field.DataType
import ExtractionContract.Proofs.Json.ReadBack
import ExtractionContract.Proofs.Json.Shape

/-!
# Stored fields are read back

A field is stored as an object that leaves out its absent members, writes its type by name and
puts `null` for a threshold that is no finite number. Reading gives the field back but for such a
threshold, which becomes absent: `Field.stored` is what is left. The text of the object is read as
the object, provided that the digits of a finite threshold are read as the threshold: the reader of
numbers is quick and can miss the nearest number by a little.

* `Field.ofJson_toJson`, `FieldGraph.ofJson_toJson`: the objects.
* `Field.restores_toJson`, `FieldGraph.restores_toJson`: their texts.
-/

namespace ExtractionContract

open Json

namespace Field

variable {f : Field}

/-- A field that can stand in a store: its type was read from a name, and its order is a whole
number of sixty-four bits. -/
structure Storable (f : Field) : Prop where
  type_parsed : f.type.Parsed
  order_ge : -(twoTo 63) ≤ f.order
  order_le : f.order ≤ twoTo 63 - 1

/-- A field as it comes back from a store: without a threshold that is no finite number. -/
def stored (f : Field) : Field :=
  { f with threshold := f.threshold.filter Binary64.isFinite }

/-! ### Members -/

theorem asOrder_ofInt (hge : -(twoTo 63) ≤ f.order) (hle : f.order ≤ twoTo 63 - 1) :
    asOrder (.ofInt f.order) = .ok (.ofInt f.order) := by
  have hbounds : (decide (-(twoTo 63) ≤ f.order) && decide (f.order ≤ twoTo 63 - 1)) = true := by
    rw [decide_eq_true hge, decide_eq_true hle, Bool.and_self]
  rw [asOrder, ofInt, asIntBetween, if_pos hbounds, Except.map]

theorem asDataType_name (h : f.type.Parsed) : asDataType (.str f.type.name) = .ok f.type :=
  congrArg Except.ok h.parse_name

/-- A threshold that is stored as `null` is read as absent. -/
theorem asOption_realJson (x : Binary64) :
    asOption asReal (realJson x) = .ok ((some x).filter Binary64.isFinite) := by
  rw [realJson, Option.filter_some]
  split <;> rfl

/-- What must be given of a field. -/
theorem fills_names (f : Field) :
    shape.Fills shape.blank [("id", .str f.id), ("fieldKey", .str f.key)]
      { id := f.id, key := f.key } :=
  .cons rfl rfl (.cons rfl rfl .nil)

theorem fills_type {a : Field} (h : f.type.Parsed) :
    shape.Fills a [("dataType", .str f.type.name), ("isRequired", .bool f.required)]
      { a with type := f.type, required := f.required } :=
  .cons rfl (asDataType_name h) (.cons rfl rfl .nil)

theorem fills_order {a : Field} (hge : -(twoTo 63) ≤ f.order) (hle : f.order ≤ twoTo 63 - 1) :
    shape.Fills a [("sortOrder", .ofInt f.order)] { a with order := f.order } := by
  have hexact : (Int64.ofInt f.order).toInt = f.order :=
    Int64.toInt_ofInt_of_le hge (Int.lt_of_le_sub_one hle)
  refine .cons rfl (asOrder_ofInt hge hle) ?_
  rw [hexact]
  exact .nil

/-- An optional text. -/
theorem fills_text {a : Field} (key : String) (text : Option String)
    {put : Option String → Field → Field}
    (hslot : shape.slot? key = some (.of key .never (asOption asString) put))
    (hnone : put none a = a) :
    shape.Fills a (optionalMember key (text.map .str)) (put text a) := by
  refine .optional hslot ?_ ?_
  · rintro rfl
    exact hnone
  · rintro s rfl
    rfl

theorem fills_threshold {a : Field} (hnone : a.threshold = none) :
    shape.Fills a (optionalMember "confidenceThreshold" (f.threshold.map realJson))
      { a with threshold := f.threshold.filter Binary64.isFinite } := by
  have hslot : shape.slot? "confidenceThreshold" = some (.of "confidenceThreshold" .never
      (asOption asReal) fun v b => { b with threshold := v }) := rfl
  refine RecordShape.Fills.optional hslot (fun h => ?_) fun x h => ?_
  · rw [h, Option.filter_none, ← hnone]
  · rw [h]
    exact asOption_realJson x

/-! ### Fields -/

/-- **A stored field is read back.** A member that was left out is read as what a field without it
has, so it makes no difference which ones were. -/
theorem ofJson_toJson (h : f.Storable) : Field.ofJson f.toJson = .ok f.stored := by
  refine RecordShape.read_obj ?_ ?_
  · have htype := (((fills_names f).append (fills_text "fieldName" f.name rfl rfl)).append
      (fills_text "dataName" f.outputName rfl rfl)).append (fills_type h.type_parsed)
    have htexts := ((((htype.append (fills_text "description" f.description rfl rfl)).append
      (fills_text "example" f.sample rfl rfl)).append
      (fills_text "validation" f.validation rfl rfl)).append
      (fills_text "normalize" f.normalization rfl rfl)).append
      (fills_text "promptHint" f.hint rfl rfl)
    exact ((htexts.append (fills_threshold rfl)).append
      (fills_order h.order_ge h.order_le)).append (fills_text "parentFieldId" f.parent rfl rfl)
  · -- Only the first two members must be given, and these are always there.
    have hneeded : ∀ s ∈ shape.slots, s.need = .always → s.key ∈ ["id", "fieldKey"] := by
      decide
    intro s hs halways
    simp only [Members.keys, List.map_append, List.mem_append, List.append_assoc]
    exact .inl (hneeded s hs halways)

/-! ### Texts of fields -/

section

variable {d : Nat} {key : String}

/-- A threshold that a text can keep: the reader of numbers takes its digits for it. -/
def ThresholdReadable (f : Field) : Prop :=
  ∀ x, f.threshold = some x → x.isFinite = true → number (realChars x) = .ok (.real x, [])

theorem restores_realJson {x : Binary64}
    (h : x.isFinite = true → number (realChars x) = .ok (.real x, [])) :
    Restores d (realJson x) := by
  rw [realJson]
  split
  · next hfinite =>
    obtain ⟨w, hw, hchars, hreads⟩ := Taken.number (h hfinite)
    rw [List.append_nil] at hw
    subst hw
    exact .num (.number hchars hreads)
  · exact .null

theorem restores_optional {α : Type} {x : Option α} {write : α → Json}
    (h : ∀ a, x = some a → Restores d (write a)) :
    MembersRestore d [key] (optionalMember key (x.map write)) := by
  cases x with
  | none => exact ⟨List.nil_sublist _, List.forall_mem_nil _⟩
  | some a => exact .cons (h a rfl) .nil

theorem restores_text (key : String) (text : Option String) :
    MembersRestore d [key] (optionalMember key (text.map .str)) :=
  restores_optional fun _ _ => .str

/-- **The text of a stored field** says the field. -/
theorem restores_toJson (h : f.Storable) (hthreshold : f.ThresholdReadable) :
    Restores (d + 1) f.toJson := by
  have hnames : MembersRestore d ["id", "fieldKey"] [("id", .str f.id), ("fieldKey", .str f.key)] :=
    .cons .str (.cons .str .nil)
  have htype : MembersRestore d ["dataType", "isRequired"]
      [("dataType", .str f.type.name), ("isRequired", .bool f.required)] :=
    .cons .str (.cons .bool .nil)
  have horder : MembersRestore d ["sortOrder"] [("sortOrder", .ofInt f.order)] :=
    .cons (.num (says_int h.order_ge (Int.lt_of_le_sub_one h.order_le))) .nil
  have hreal : MembersRestore d ["confidenceThreshold"]
      (optionalMember "confidenceThreshold" (f.threshold.map realJson)) :=
    restores_optional fun x hx => restores_realJson (hthreshold x hx)
  have htexts := (((((((hnames.append (restores_text "fieldName" f.name)).append
    (restores_text "dataName" f.outputName)).append htype).append
    (restores_text "description" f.description)).append
    (restores_text "example" f.sample)).append
    (restores_text "validation" f.validation)).append
    (restores_text "normalize" f.normalization)).append
    (restores_text "promptHint" f.hint)
  exact (((htexts.append hreal).append horder).append
    (restores_text "parentFieldId" f.parent)).obj (by decide)

end

end Field

/-- **A stored graph is read back.** -/
theorem FieldGraph.ofJson_toJson {g : FieldGraph} (h : ∀ f ∈ g.fields, f.Storable) :
    FieldGraph.ofJson g.toJson = .ok ⟨g.fields.map Field.stored⟩ := by
  have hlist : asList Field.ofJson g.toJson = .ok (g.fields.map Field.stored) :=
    asList_map fun f hf => Field.ofJson_toJson (h f hf)
  rw [FieldGraph.ofJson, hlist]
  rfl

/-- **The text of a stored graph** says the graph. -/
theorem FieldGraph.restores_toJson {g : FieldGraph} {d : Nat} (h : ∀ f ∈ g.fields, f.Storable)
    (hthresholds : ∀ f ∈ g.fields, f.ThresholdReadable) : Restores (d + 2) g.toJson := by
  refine .arr fun v hv => ?_
  obtain ⟨f, hf, rfl⟩ := List.mem_map.mp hv
  exact Field.restores_toJson (h f hf) (hthresholds f hf)

end ExtractionContract
