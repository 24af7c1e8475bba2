import ExtractionContract.Field.DataType
import Mathlib.Data.List.Basic

/-!
# Types and their names

A type is stored under its name and read back from it. Reading loses nothing of the types that
reading makes (`parse_name_parse`): a name of a known type gives that type again, and any other
name, once trimmed, stays as it is. So a parsed type is known by its name (`Parsed.name_inj`),
which a type in general is not: `DataType.other "string"` has the name of `DataType.string`.
-/

namespace ExtractionContract

namespace DataType

/-- A type that was read from a name. -/
def Parsed (t : DataType) : Prop :=
  ∃ raw, t = parse raw

theorem trim_trim (s : String) : Text.trim (Text.trim s) = Text.trim s := by
  rw [Text.trim, Text.trim, String.toList_ofList, Text.trimList_trimList]

/-- Whether a type is one of those that have a name of their own. -/
def isKnown : DataType → Bool
  | other _ => false
  | _ => true

/-- **The stored name of a known type** is read as that type. -/
theorem parse_name_of_isKnown {t : DataType} (h : t.isKnown) : parse t.name = t := by
  cases t with
  | other name => exact absurd h Bool.false_ne_true
  | string | integer | number | boolean | date | datetime | enum | object | array =>
    decide +kernel

theorem isKnown_of_mem_aliases : ∀ a ∈ aliases, a.2.isKnown := by decide

/-- A type that was read is a known one, or it has the trimmed name, which stands for none. -/
theorem parse_cases (raw : String) :
    (parse raw).isKnown ∨ aliases.lookup (Text.lower (Text.trim raw)) = none := by
  rcases Option.eq_none_or_eq_some (aliases.lookup (Text.lower (Text.trim raw))) with
    hnone | ⟨t, ht⟩
  · exact .inr hnone
  · obtain ⟨front, back, haliases, -⟩ := List.lookup_eq_some_iff.mp ht
    have hmem : (Text.lower (Text.trim raw), t) ∈ aliases :=
      haliases ▸ List.mem_append_right front List.mem_cons_self
    rw [parse, ht, Option.getD_some]
    exact .inl (isKnown_of_mem_aliases _ hmem)

/-- **Reading a stored name** gives the type that was read before. -/
theorem parse_name_parse (raw : String) : parse (parse raw).name = parse raw := by
  rcases parse_cases raw with hknown | hnone
  · exact parse_name_of_isKnown hknown
  · -- An unknown name is kept without its blanks, and trimming it again changes nothing.
    have hparse : parse raw = other (Text.trim raw) := by
      rw [parse, hnone, Option.getD_none]
    rw [hparse]
    change parse (Text.trim raw) = _
    rw [parse, trim_trim, hnone, Option.getD_none]

theorem Parsed.parse_name {t : DataType} (ht : t.Parsed) : parse t.name = t := by
  obtain ⟨raw, ht⟩ := ht
  rw [ht, parse_name_parse]

/-- **A parsed type is known by its name.** -/
theorem Parsed.name_inj {t u : DataType} (ht : t.Parsed) (hu : u.Parsed)
    (h : t.name = u.name) : t = u :=
  calc t = parse t.name := ht.parse_name.symm
    _ = parse u.name := congrArg parse h
    _ = u := hu.parse_name

end DataType

end ExtractionContract
