import ExtractionContract.Json.Basic
import ExtractionContract.Proofs.Json.Members

/-!
# Values with repeated keys

`Json.collapse` works through a value item by item and member by member. Stated by `List.map`,
its recursion on items and members is open to the lemmas about lists; an object that names each
key once only has the values of its members collapsed (`collapse_obj`).
-/

namespace ExtractionContract

namespace Json

theorem collapseItems_eq_map (vs : List Json) : collapseItems vs = vs.map collapse := by
  induction vs with
  | nil => rfl
  | cons v rest ih => rw [collapseItems, ih, List.map_cons]

theorem collapseMembers_eq_map (ms : List (String × Json)) :
    collapseMembers ms = ms.map fun m => (m.1, m.2.collapse) := by
  induction ms with
  | nil => rfl
  | cons m rest ih => rw [collapseMembers, ih, List.map_cons]

/-- **An object that names each key once** has its members' values collapsed. -/
theorem collapse_obj {ms : List (String × Json)} (h : (Members.keys ms).Nodup) :
    (obj ms).collapse = obj (ms.map fun m => (m.1, m.2.collapse)) := by
  rw [collapse, collapseMembers_eq_map, Members.collapse_map_eq_self h]

theorem collapse_ofStrings (ss : List String) : (ofStrings ss).collapse = ofStrings ss := by
  rw [ofStrings, collapse, collapseItems_eq_map, List.map_map]
  rfl

end Json

end ExtractionContract
