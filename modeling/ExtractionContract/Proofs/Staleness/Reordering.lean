import ExtractionContract.Proofs.Graph.Cycles
import ExtractionContract.Proofs.Graph.DisplayOrder
import ExtractionContract.Proofs.Json.ReadBack
import ExtractionContract.Proofs.Staleness.Fingerprint
import Mathlib.Data.List.Permutation

/-!
# Fingerprints and the order of storage

A fingerprint puts the fields in the order of their orders and keys, so where they are stored
counts only for *namesakes*, the fields that have both in common: these stand in a fingerprint
as they are stored (`essentials_eq_iff`).

* `digest_of_perm`: where no two fields are namesakes, the order of storage does not count.
* `canonicalBytes_sorted_iff`: display order keeps the fingerprint exactly if it leaves the
  essentials of all namesakes in order. It stands namesakes by their depth, so a field that is
  stored before a namesake less deep than itself is overtaken, and unless the two have the same
  essentials this shows (`sorted_overtakes_namesake`).
-/

namespace ExtractionContract

open Json

/-! ### Namesakes in a fingerprint -/

/-- The place of a field in a fingerprint: its order, then its key. -/
def Essentials.place (e : Essentials) : Int ×ₗ String :=
  toLex (e.order, e.key)

theorem Essentials.le_sortsBy : SortsBy Essentials.le Essentials.place := by
  intro a b
  simp [Essentials.le, Essentials.place, Prod.Lex.toLex_le_toLex]

namespace FieldGraph

variable {g g' : FieldGraph} {s s' : Option String}

theorem filter_place_essentials (g : FieldGraph) (order : Int) (key : String) :
    (g.fields.map Field.essentials).filter (Essentials.place · = toLex (order, key)) =
      (g.namesakes order key).map Field.essentials := by
  rw [List.filter_map, namesakes]
  refine congrArg _ (List.filter_congr fun f _ => ?_)
  simp [Essentials.place, Field.essentials, ← Bool.beq_eq_decide_eq]

/-- **A fingerprint shows namesakes as they are stored**, and nothing else of the order in which
fields are stored. -/
theorem essentials_eq_iff : g.essentials = g'.essentials ↔ ∀ order key,
    (g.namesakes order key).map Field.essentials =
      (g'.namesakes order key).map Field.essentials := by
  rw [essentials_eq_mergeSort, essentials_eq_mergeSort, Essentials.le_sortsBy.mergeSort_eq_iff]
  constructor
  · intro h order key
    rw [← filter_place_essentials, h, filter_place_essentials]
  · intro h x
    obtain ⟨order, key⟩ := x
    exact (g.filter_place_essentials order key).trans
      ((h order key).trans (g'.filter_place_essentials order key).symm)

/-! ### Display order -/

/-- **Display order keeps a fingerprint** exactly if, for every order and key, the namesakes have
the same essentials by their depth as they have in the order in which they are stored. -/
theorem canonicalBytes_sorted_iff (g : FieldGraph) (s : Option String) :
    canonicalBytes g.sorted s = canonicalBytes g s ↔ ∀ order key,
      (g.byDepth (g.namesakes order key)).map Field.essentials =
        (g.namesakes order key).map Field.essentials := by
  have hschema : Alike (schemaValue s) (schemaValue s) :=
    alike_of_canonical_eq rfl
  rw [canonicalBytes_eq_iff, essentials_eq_iff, and_iff_left hschema]
  exact forall₂_congr fun order key => by rw [namesakes_sorted]

/-- A list of items whose name is a number, and a name beside the list. Keys are distinct among
the fields of one parent, but in display order the name beside the list overtakes the one in
it. -/
theorem sorted_overtakes_namesake :
    let g : FieldGraph := ⟨[
      { id := "1", key := "items", type := .array },
      { id := "2", key := "name", type := .number, order := 1, parent := some "1" },
      { id := "3", key := "name", order := 1 }]⟩
    g.ids.Nodup ∧ g.Acyclic ∧
      g.fields.Pairwise (fun f f' => f.parent = f'.parent → f.key ≠ f'.key) ∧
      canonicalBytes g.sorted none ≠ canonicalBytes g none := by
  intro g
  refine ⟨by decide, ?_, by decide, ?_⟩
  · -- The list stands above the others.
    refine Acyclic.of_rank (fun id => if id = "1" then 0 else 1) ?_
    decide
  · intro h
    -- The same bytes would say the same types in the same order.
    have hsorted : g.sorted.essentials.map Essentials.typeName =
      ["array", "string", "number"] := by cbv
    have hstored : g.essentials.map Essentials.typeName = ["array", "number", "string"] := by cbv
    rw [(canonicalBytes_eq_iff.mp h).1, hstored] at hsorted
    exact absurd hsorted (by decide)

/-! ### Another order of storage -/

/-- What a schema's text is read as, if it can be read. -/
def schemaRead (s : Option String) : Option Json :=
  s.bind fun text => (Json.parse text).toOption

theorem schemaValue_eq (s : Option String) : schemaValue s = (schemaRead s).getD .null := by
  cases s with
  | none => rfl
  | some text =>
    rw [schemaValue, schemaRead, Option.bind_some]
    cases Json.parse text <;> rfl

/-- Two schemas say the same: neither can be read, or both can, as values that differ in the
order of members only. -/
def SchemasAgree (s s' : Option String) : Prop :=
  schemaRead s = none ∧ schemaRead s' = none ∨
    ∃ v v', schemaRead s = some v ∧ schemaRead s' = some v' ∧ Alike v v'

theorem SchemasAgree.alike (h : SchemasAgree s s') : Alike (schemaValue s) (schemaValue s') := by
  rw [schemaValue_eq, schemaValue_eq]
  rcases h with ⟨hs, hs'⟩ | ⟨v, v', hs, hs', halike⟩
  · rw [hs, hs']
    exact alike_of_canonical_eq rfl
  · rwa [hs, hs']

/-- Where no two fields are namesakes, a graph has at most one field of an order and a key. -/
theorem namesakes_eq_of_perm (hperm : g.fields.Perm g'.fields)
    (hplaces : (g.fields.map fun f => (f.order, f.key)).Nodup) (order : Int) (key : String) :
    g.namesakes order key = g'.namesakes order key := by
  -- Namesakes are the fields at one place, if only order and key count as the place.
  have hfilter : ∀ g : FieldGraph, g.namesakes order key =
      g.fields.filter fun f => (f.order, f.key) = (order, key) := by
    intro g
    refine List.filter_congr fun f _ => ?_
    rw [Bool.eq_iff_iff]
    simp
  rw [hfilter, hfilter, SortsBy.filter_place_eq_of_perm hperm hplaces]

/-- **The order of storage does not count** where no two fields have both their order and their
key in common: then two graphs of the same fields have the same bytes exactly if the schemas are
alike, and the same fingerprint if the schemas agree. -/
theorem digest_of_perm (hperm : g.fields.Perm g'.fields)
    (hplaces : (g.fields.map fun f => (f.order, f.key)).Nodup) :
    (canonicalBytes g s = canonicalBytes g' s' ↔ Alike (schemaValue s) (schemaValue s')) ∧
      (SchemasAgree s s' → g.digest s = g'.digest s') := by
  have hfields : g.essentials = g'.essentials := essentials_eq_iff.mpr fun order key =>
    congrArg _ (namesakes_eq_of_perm hperm hplaces order key)
  have hbytes : canonicalBytes g s = canonicalBytes g' s' ↔
      Alike (schemaValue s) (schemaValue s') := by
    rw [canonicalBytes_eq_iff, and_iff_right hfields]
  exact ⟨hbytes, fun h => congrArg Sha256.hex (hbytes.mpr h.alike)⟩

/-- Three fields stored backwards, two of them of one order and two of one key, with a schema whose
members stand in another order at both levels, and with two schemas that cannot be read. -/
theorem digest_of_perm_backwards :
    let g : FieldGraph := ⟨[
      { id := "1", key := "name" }, { id := "2", key := "qty", type := .integer },
      { id := "3", key := "name", order := 1, parent := some "2" }]⟩
    let g' : FieldGraph := ⟨g.fields.reverse⟩
    let v := obj [("type", .str "object"), ("allOf", .arr [obj [("a", .null), ("b", .bool true)]])]
    let v' := obj [("allOf", .arr [obj [("b", .bool true), ("a", .null)]]), ("type", .str "object")]
    g'.fields ≠ g.fields ∧ v'.text ≠ v.text ∧
      g.digest (some v.text) = g'.digest (some v'.text) ∧
      g.digest none = g'.digest (some "[") := by
  intro g g' v v'
  have hparse : ∀ {members}, Restores depthLimit (obj members) →
      schemaRead (some (obj members).text) = some (obj members) := by
    intro members h
    rw [schemaRead, Option.bind_some, parse_text h]
    rfl
  have hitems : ∀ {members}, (Members.keys members).Nodup →
      (∀ m ∈ members, Restores 124 m.2) → Restores 126 (.arr [obj members]) :=
    fun hkeys h => .arr (List.forall_mem_singleton.mpr (.obj hkeys h))
  have hv : Restores depthLimit v := .obj (by decide) (List.forall_mem_cons.mpr
    ⟨.str, List.forall_mem_singleton.mpr
      (hitems (by decide) (by simp [Restores.null, Restores.bool]))⟩)
  have hv' : Restores depthLimit v' := .obj (by decide) (List.forall_mem_cons.mpr
    ⟨hitems (by decide) (by simp [Restores.null, Restores.bool]),
      List.forall_mem_singleton.mpr .str⟩)
  have hagree : SchemasAgree (some v.text) (some v'.text) :=
    .inr ⟨v, v', hparse hv, hparse hv', alike_of_canonical_eq (by cbv)⟩
  have hunread : SchemasAgree none (some "[") := .inl ⟨rfl, rfl⟩
  have hperm : g.fields.Perm g'.fields := (List.reverse_perm _).symm
  have hplaces : (g.fields.map fun f => (f.order, f.key)).Nodup := by decide
  exact ⟨by decide, by decide +kernel, (digest_of_perm hperm hplaces).2 hagree,
    (digest_of_perm hperm hplaces).2 hunread⟩

end FieldGraph

end ExtractionContract
