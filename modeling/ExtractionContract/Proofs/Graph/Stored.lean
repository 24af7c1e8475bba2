import ExtractionContract.Proofs.Field.Codec
import ExtractionContract.Proofs.Json.Indented

/-!
# Stored graphs

A graph is stored as the array of its fields, and read back from it. Three things could go amiss on
the way, and none does. A member that is left out could be read as something else than absent, or
an empty text could be left out: each of the fourteen members is read back by its own rule. The
name of a type could be read as another type: a name that was kept when the type was read stands
for no type, in whatever case, and does not become one by being trimmed again. And keys or digits
could be lost in the text: the text, compact or indented, says the array that was written.

What is lost is a threshold that is no finite number, for which no numeral stands.
`stored_graph_reads_back` says so of graphs in general.
-/

namespace ExtractionContract

open Json

namespace Field

/-- **A field is stored as it is**, unless its threshold is no finite number. -/
theorem stored_eq_self {f : Field} (h : ∀ x, f.threshold = some x → x.isFinite = true) :
    f.stored = f := by
  have hthreshold : f.threshold.filter Binary64.isFinite = f.threshold := by
    cases hx : f.threshold with
    | none => rfl
    | some x => exact Option.filter_some_pos (h x hx)
  rw [stored, hthreshold]

end Field

namespace FieldGraph

variable {g : FieldGraph}

/-- **The texts of a stored graph** are read as the array that was written. -/
theorem parse_texts_toJson (hfields : ∀ f ∈ g.fields, f.Storable)
    (hthresholds : ∀ f ∈ g.fields, f.ThresholdReadable) :
    Json.parse g.toJson.text = .ok g.toJson ∧ Json.parse g.toJson.pretty = .ok g.toJson := by
  -- The reader follows 127 containers, and a graph nests two.
  have hrestores : Restores (125 + 2) g.toJson := restores_toJson hfields hthresholds
  exact ⟨parse_text hrestores, parse_pretty_of_restores hrestores⟩

/-- **A stored graph reads back unchanged.** Reading the stored form of a graph, whose types were
read from names, gives a graph of the same fields in the same order, each as it was but for a
threshold that is no finite number, which becomes absent; so it gives the graph itself where all
thresholds are absent or finite. The same holds of the text of the stored form, compact or indented,
if the digits of its finite thresholds are read as these. And a name that a type was read from, and
is stored under, gives this type again, whatever characters it has. -/
theorem stored_graph_reads_back (hfields : ∀ f ∈ g.fields, f.Storable) :
    FieldGraph.ofJson g.toJson =
        .ok ⟨g.fields.map fun f => { f with threshold := f.threshold.filter Binary64.isFinite }⟩ ∧
      ((∀ f ∈ g.fields, ∀ x, f.threshold = some x → x.isFinite = true) →
        FieldGraph.ofJson g.toJson = .ok g) ∧
      ((∀ f ∈ g.fields, f.ThresholdReadable) →
        Json.parse g.toJson.text = .ok g.toJson ∧ Json.parse g.toJson.pretty = .ok g.toJson) ∧
      ∀ raw, DataType.parse (DataType.parse raw).name = DataType.parse raw := by
  have hread : FieldGraph.ofJson g.toJson = .ok ⟨g.fields.map Field.stored⟩ :=
    ofJson_toJson hfields
  refine ⟨hread, ?_, parse_texts_toJson hfields, DataType.parse_name_parse⟩
  intro hfinite
  have hsame : g.fields.map Field.stored = g.fields := by
    calc g.fields.map Field.stored
        = g.fields.map id :=
          List.map_congr_left fun f hf => Field.stored_eq_self (hfinite f hf)
      _ = g.fields := List.map_id g.fields
  rw [hread, hsame]

/-- Two fields at the two ends of the range of orders. The one has empty texts throughout, the
threshold a half, and a type whose name is nothing but blanks; the other a type that is named in
capitals, and a threshold that is no number. -/
theorem stored_graph_reads_back_of_blanks :
    let half : Binary64 := ⟨0x3FE0000000000000⟩
    let noNumber : Binary64 := ⟨0x7FF8000000000000⟩
    let blank : Field :=
      { id := "", key := "", name := some "", outputName := some "", type := DataType.parse " \n",
        description := some "", sample := some "", validation := some "", normalization := some "",
        hint := some "", threshold := some half, order := -9223372036854775808, parent := some "" }
    let lines : Field :=
      { id := "1", key := "lines", type := DataType.parse "LIST\u3000", required := true,
        order := 9223372036854775807 }
    let g : FieldGraph := ⟨[blank, lines]⟩
    let unsure : FieldGraph := ⟨[blank, { lines with threshold := some noNumber }]⟩
    g.fields.map Field.type = [.other "", .array] ∧
      FieldGraph.ofJson g.toJson = .ok g ∧ FieldGraph.ofJson unsure.toJson = .ok g ∧
      Json.parse unsure.toJson.text = .ok unsure.toJson ∧
      Json.parse unsure.toJson.pretty = .ok unsure.toJson := by
  intro half noNumber blank lines g unsure
  have hblank : blank.Storable := ⟨⟨" \n", rfl⟩, by decide, by decide⟩
  have hlines : lines.Storable := ⟨⟨"LIST\u3000", rfl⟩, by decide, by decide⟩
  have hfields : ∀ f ∈ g.fields, f.Storable :=
    List.forall_mem_cons.mpr ⟨hblank, List.forall_mem_singleton.mpr hlines⟩
  have hunsure : ∀ f ∈ unsure.fields, f.Storable :=
    List.forall_mem_cons.mpr ⟨hblank, List.forall_mem_singleton.mpr
      ⟨hlines.type_parsed, hlines.order_ge, hlines.order_le⟩⟩
  have hhalf : blank.ThresholdReadable := by
    rintro x hx -
    cases hx
    have hdigits : realChars half = ['0', '.', '5'] := by decide +kernel
    rw [hdigits]
    rfl
  have hnoNumber : Field.ThresholdReadable { lines with threshold := some noNumber } := by
    rintro x hx hfinite
    cases hx
    exact absurd hfinite (by decide)
  have hfinite : ∀ f ∈ g.fields, ∀ x, f.threshold = some x → x.isFinite = true := by
    refine List.forall_mem_cons.mpr ⟨?_, List.forall_mem_singleton.mpr ?_⟩
    · rintro x hx
      cases hx
      decide
    · rintro x hx
      cases hx
  obtain ⟨hread, -, htexts, -⟩ := stored_graph_reads_back hunsure
  have hsame := (stored_graph_reads_back hfields).2.1 hfinite
  refine ⟨by decide +kernel, hsame, hread, ?_⟩
  exact htexts (List.forall_mem_cons.mpr ⟨hhalf, List.forall_mem_singleton.mpr hnoNumber⟩)

end FieldGraph

end ExtractionContract
