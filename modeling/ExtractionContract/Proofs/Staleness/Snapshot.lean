import ExtractionContract.Proofs.Field.Codec
import ExtractionContract.Proofs.Staleness.Fingerprint
import ExtractionContract.Proofs.Time.Instant
import ExtractionContract.Staleness.Snapshot

/-!
# Stored snapshots

A snapshot that is stored and read back is the snapshot that was taken, but for thresholds that
are no finite numbers. Its fingerprint does not see these, so the contract that a stored snapshot
carries always has the fingerprint that the snapshot carries.

* `Snapshot.ofJson_toJson`, `Snapshot.restores_toJson`: the snapshot as an object, and its text.
* `Snapshot.not_isStale_of_stored`: a stored snapshot is never stale against itself.
-/

namespace ExtractionContract

open Json

/-- Graphs whose fields have the same essentials have the same fingerprint. -/
theorem FieldGraph.digest_eq_of_essentials {g g' : FieldGraph} (schema : Option String)
    (h : g.fields.map Field.essentials = g'.fields.map Field.essentials) :
    g.digest schema = g'.digest schema := by
  refine congrArg Sha256.hex (canonicalBytes_eq_iff.mpr ⟨?_, alike_of_canonical_eq rfl⟩)
  rw [essentials_eq_mergeSort, h, ← essentials_eq_mergeSort]

/-- **Storing a graph keeps its fingerprint**: what is lost in a store is not essential. -/
theorem FieldGraph.digest_stored (g : FieldGraph) (schema : Option String) :
    FieldGraph.digest ⟨g.fields.map Field.stored⟩ schema = g.digest schema := by
  refine digest_eq_of_essentials schema ?_
  rw [List.map_map]
  exact List.map_congr_left fun f _ => rfl

namespace Snapshot

variable {s : Snapshot}

/-- A snapshot as it comes back from a store. -/
def stored (s : Snapshot) : Snapshot :=
  { s with fields := ⟨s.fields.fields.map Field.stored⟩ }

theorem asOption_ofOption (text : Option String) :
    asOption asString (.ofOption text) = .ok text := by
  cases text <;> rfl

/-- **A stored snapshot is read back.** -/
theorem ofJson_toJson (hfields : ∀ f ∈ s.fields.fields, f.Storable)
    (htaken : s.takenAt.Shown) :
    Snapshot.ofJson s.toJson = .ok s.stored := by
  have hinstant : asInstant (.str s.takenAt.text) = .ok s.takenAt := by
    rw [asInstant, Instant.parse_text htaken]
    rfl
  have hneeded : ∀ slot ∈ shape.slots, slot.need = .always →
      slot.key ∈ ["digest", "sourceFields", "sourceSchema", "generatedAt"] := by
    decide
  refine RecordShape.read_obj ?_ hneeded
  exact .cons rfl rfl (.cons rfl (FieldGraph.ofJson_toJson hfields)
    (.cons rfl (asOption_ofOption s.schema) (.cons rfl hinstant .nil)))

/-- **The text of a stored snapshot** says the snapshot. -/
theorem restores_toJson {d : Nat} (hfields : ∀ f ∈ s.fields.fields, f.Storable)
    (hthresholds : ∀ f ∈ s.fields.fields, f.ThresholdReadable) : Restores (d + 3) s.toJson := by
  have hschema : Restores (d + 2) (.ofOption s.schema) := by
    cases s.schema with
    | none => exact .null
    | some text => exact .str
  exact MembersRestore.obj (.cons .str (.cons (FieldGraph.restores_toJson hfields hthresholds)
    (.cons hschema (.cons .str .nil)))) (by decide)

/-- **A stored snapshot is never stale against itself.** It comes back with the fingerprint that it
was stored with, and so does the contract that it carries: the schema, readable or not, as it was
given, and the fields but for their thresholds. Its text is read as the object that was written,
wherever the digits of a finite threshold are read as the threshold. -/
theorem not_isStale_of_stored {g : FieldGraph} (hfields : ∀ f ∈ g.fields, f.Storable)
    (schema : Option String) {now : Instant} (hnow : now.Shown) :
    let taken := capture g schema now
    ∃ back, Snapshot.ofJson taken.toJson = .ok back ∧ back = taken.stored ∧
      back.digest = taken.digest ∧ back.isStale back.fields back.schema = false ∧
      ((∀ f ∈ g.fields, f.ThresholdReadable) →
        Json.parse taken.toJson.text = .ok taken.toJson) := by
  intro taken
  refine ⟨taken.stored, ofJson_toJson hfields hnow, rfl, rfl, ?_, fun hthresholds => ?_⟩
  · -- What comes back is fingerprinted anew, and the store has lost nothing essential.
    have hdigest : taken.stored.fields.digest schema = g.digest schema := g.digest_stored schema
    exact bne_eq_false_iff_eq.mpr hdigest
  · have hrestores : Restores (124 + 3) taken.toJson := restores_toJson hfields hthresholds
    exact Json.parse_text hrestores

/-- A field of an unknown type with an endless threshold and empty texts, and one whose threshold
is a half, with a schema that is no document, at a leap second. -/
theorem not_isStale_of_stored_endless :
    let half : Binary64 := ⟨0x3FE0000000000000⟩
    let endless : Binary64 := ⟨0x7FF0000000000000⟩
    let g : FieldGraph := ⟨[
      { id := "", key := "total", name := some "", type := .other "currency",
        threshold := some endless, order := -9223372036854775808, parent := some "" },
      { id := "1", key := "rate", type := .number, threshold := some half }]⟩
    let taken := capture g (some "[") ⟨20000, 86399, 1500000000⟩
    ∃ back, Snapshot.ofJson taken.toJson = .ok back ∧
      back.fields.fields.map Field.threshold = [none, some half] ∧
      back.isStale back.fields back.schema = false ∧
      Json.parse taken.toJson.text = .ok taken.toJson := by
  intro half endless g taken
  have hfields : ∀ f ∈ g.fields, f.Storable := by
    refine List.forall_mem_cons.mpr ⟨?_, List.forall_mem_singleton.mpr ?_⟩
    · exact ⟨⟨" currency", by decide +kernel⟩, by decide, by decide⟩
    · exact ⟨⟨"Decimal", by decide +kernel⟩, by decide, by decide⟩
  have hthresholds : ∀ f ∈ g.fields, f.ThresholdReadable := by
    refine List.forall_mem_cons.mpr ⟨?_, List.forall_mem_singleton.mpr ?_⟩
    · rintro x hx hfinite
      cases hx
      exact absurd hfinite (by decide)
    · rintro x hx -
      cases hx
      have hdigits : realChars half = ['0', '.', '5'] := by decide +kernel
      rw [hdigits]
      rfl
  have hnow : Instant.Shown ⟨20000, 86399, 1500000000⟩ :=
    ⟨by decide, by decide, by decide, by decide, by decide⟩
  obtain ⟨back, hread, hback, -, hfresh, htext⟩ := not_isStale_of_stored hfields (some "[") hnow
  refine ⟨back, hread, ?_, hfresh, htext hthresholds⟩
  rw [hback]
  rfl

end Snapshot

end ExtractionContract
