import ExtractionContract.Proofs.Json.Collapse
import ExtractionContract.Proofs.Json.ReadBack

/-!
# Reading an indented text

The indented text of a value lays out the same tokens as the compact text, with blanks between
them, and repeats the keys that the value's objects repeat. So reading it gives the value with
repeated keys collapsed, as long as no more containers are nested in it than the reader follows
and its numbers are said by their texts. `Legible` says so, to a depth; it asks nothing of keys
and strings.

* `begins_prettyChars`: the indented text spells the collapsed value, whatever follows it.
* `parse_pretty`: so it is read as that value.
-/

namespace ExtractionContract

namespace Json

/-- A value whose indented text can be read, with at most some number of containers nested. -/
inductive Legible : Nat → Json → Prop
  | null {d : Nat} : Legible d null
  | bool {d : Nat} {b : Bool} : Legible d (bool b)
  | num {d : Nat} {n : Number} : Says (numberChars n) (num n) → Legible d (num n)
  | str {d : Nat} {s : String} : Legible d (str s)
  | arr {d : Nat} {vs : List Json} : (∀ v ∈ vs, Legible d v) → Legible (d + 1) (arr vs)
  | obj {d : Nat} {ms : List (String × Json)} :
    (∀ m ∈ ms, Legible d m.2) → Legible (d + 1) (obj ms)

/-- A new line is blank. -/
theorem skipSpace_newline (level : Nat) (cs : List Char) :
    skipSpace (newline level ++ cs) = skipSpace cs := by
  rw [newline, List.cons_append, skipSpace_cons_of_space (by decide)]
  induction 2 * level with
  | zero => rfl
  | succ n ih => rw [List.replicate_succ, List.cons_append, skipSpace_cons_of_space (by decide), ih]

theorem skipSpace_newline_cons (level : Nat) {c : Char} (hc : isSpace c = false)
    (cs : List Char) : skipSpace (newline level ++ c :: cs) = c :: cs := by
  rw [skipSpace_newline, skipSpace_cons_of_not_space hc]

section

variable {d : Nat}

theorem Begins.of_skipSpace {phrase : Phrase} {cs rest : List Char}
    (h : Begins d phrase (Json.skipSpace cs) rest) : Begins d phrase cs rest := by
  obtain ⟨ts, hts, hlaid⟩ := h
  exact ⟨ts, hts, fun ts' hl hb => .of_skipSpace (hlaid ts' hl hb)⟩

/-- A phrase may stand on a new line. -/
theorem Begins.newline {phrase : Phrase} {cs rest : List Char} (h : Begins d phrase cs rest)
    (level : Nat) : Begins d phrase (Json.newline level ++ cs) rest :=
  .of_skipSpace (skipSpace_newline level cs ▸ h.skipSpace)

/-- A phrase may stand after a space. -/
theorem Begins.space {phrase : Phrase} {cs rest : List Char} (h : Begins d phrase cs rest) :
    Begins d phrase (' ' :: cs) rest := by
  have hspace : Json.skipSpace (' ' :: cs) = Json.skipSpace cs :=
    skipSpace_cons_of_space (by decide)
  exact .of_skipSpace (hspace ▸ h.skipSpace)

/-- The items of an array, from the first one on. -/
theorem begins_prettyItems (level : Nat) : ∀ {v : Json} {vs : List Json},
    (∀ w ∈ v :: vs, ∀ rest,
      Begins d (.value w.collapse) (w.prettyChars (level + 1) ++ rest) rest) →
    ∀ rest, Begins d (.items (collapseItems (v :: vs)))
      (v.prettyChars (level + 1) ++ (prettyItems level vs ++ rest)) rest
  | v, [], h, rest => by
    rw [prettyItems, List.append_assoc]
    exact (h v List.mem_cons_self _).lastItem (skipSpace_newline_cons level (by decide) rest)
  | v, w :: vs, h, rest => by
    obtain ⟨hv, hvs⟩ := List.forall_mem_cons.mp h
    have hmore := begins_prettyItems level hvs rest
    rw [prettyItems, List.append_assoc, List.cons_append, List.cons_append, List.append_assoc]
    exact (hv _).item (skipSpace_cons_of_not_space (by decide)) (hmore.newline _).skipSpace

/-- The members of an object, from the key of the first one on. -/
theorem begins_prettyMembers (level : Nat) : ∀ {k : String} {v : Json}
    {ms : List (String × Json)},
    (∀ m ∈ (k, v) :: ms, ∀ rest,
      Begins d (.value m.2.collapse) (m.2.prettyChars (level + 1) ++ rest) rest) →
    ∀ rest, Begins d (.members (collapseMembers ((k, v) :: ms)))
      (literal k ++ ':' :: ' ' :: (v.prettyChars (level + 1) ++ (prettyMembers level ms ++ rest)))
      rest
  | k, v, [], h, rest => by
    rw [prettyMembers, List.append_assoc]
    exact .lastKeyed (skipSpace_cons_of_not_space (by decide)) (h (k, v) List.mem_cons_self _).space
      (skipSpace_newline_cons level (by decide) rest)
  | k, v, (l, w) :: ms, h, rest => by
    obtain ⟨hv, hms⟩ := List.forall_mem_cons.mp h
    have hmore := begins_prettyMembers level hms rest
    -- A comma, a new line, and then the text that the induction speaks of.
    have hmembers : Json.prettyMembers level ((l, w) :: ms) ++ rest =
        ',' :: (Json.newline (level + 1) ++ (literal l ++ ':' :: ' ' ::
          (w.prettyChars (level + 1) ++ (prettyMembers level ms ++ rest)))) := by
      simp [prettyMembers]
    rw [hmembers]
    exact .keyed (skipSpace_cons_of_not_space (by decide)) (hv _).space
      (skipSpace_cons_of_not_space (by decide)) (hmore.newline _)

/-- **The indented text of a value spells the collapsed value**, whatever follows. -/
theorem begins_prettyChars {v : Json} (h : Legible d v) : ∀ level rest,
    Begins d (.value v.collapse) (v.prettyChars level ++ rest) rest := by
  -- The items of a value are a level deeper than it, so the induction is for all levels at once.
  induction h with
  | null => exact fun _ _ => Begins.value .null
  | @bool d b =>
    cases b with
    | true => exact fun _ _ => Begins.value .truth
    | false => exact fun _ _ => Begins.value .falsity
  | num hsays => exact fun _ _ => Begins.value hsays
  | str => exact fun _ rest => begins_literal _ rest
  | @arr d vs _ ih =>
    intro level rest
    cases vs with
    -- Only an empty array is written without new lines.
    | nil => exact .emptyArray (skipSpace_cons_of_not_space (by decide))
    | cons v vs =>
      have hitems := begins_prettyItems level (fun w hw => ih w hw (level + 1)) rest
      rw [prettyChars, List.append_assoc, List.append_assoc, List.cons_append]
      exact .array (hitems.newline _).skipSpace
  | @obj d ms _ ih =>
    intro level rest
    cases ms with
    | nil => exact .emptyObject (skipSpace_cons_of_not_space (by decide))
    | cons m ms =>
      obtain ⟨k, v⟩ := m
      have hmembers := begins_prettyMembers level (fun m hm => ih m hm (level + 1)) rest
      have hchars : (obj ((k, v) :: ms)).prettyChars level ++ rest =
          '{' :: (Json.newline (level + 1) ++ (literal k ++ ':' :: ' ' ::
            (v.prettyChars (level + 1) ++ (prettyMembers level ms ++ rest)))) := by
        simp [prettyChars]
      rw [hchars]
      exact .object (hmembers.newline _).skipSpace

end

/-- **An indented text is read** as the value with repeated keys collapsed. -/
theorem parse_pretty {v : Json} (h : Legible depthLimit v) : parse v.pretty = .ok v.collapse := by
  have hbegins := begins_prettyChars h 0 []
  rw [List.append_nil] at hbegins
  exact parse_of_begins hbegins

/-! ### Values that both texts say -/

/-- A value that its compact text says has an indented text that can be read. -/
theorem Restores.legible {d : Nat} {v : Json} (h : Restores d v) : Legible d v := by
  induction h with
  | null => exact .null
  | bool => exact .bool
  | num hsays => exact .num hsays
  | str => exact .str
  | arr _ ih => exact .arr ih
  | obj _ _ ih => exact .obj ih

/-- It repeats no key, so there is nothing to collapse. -/
theorem Restores.collapse_eq {d : Nat} {v : Json} (h : Restores d v) : v.collapse = v := by
  induction h with
  | null | bool | num | str => rfl
  | @arr d vs _ ih =>
    rw [collapse, collapseItems_eq_map]
    exact congrArg Json.arr ((List.map_congr_left ih).trans (List.map_id vs))
  | @obj d ms hkeys _ ih =>
    have hmembers : ∀ m ∈ ms, (m.1, m.2.collapse) = m := fun m hm => by rw [ih m hm]
    rw [collapse_obj hkeys]
    exact congrArg Json.obj ((List.map_congr_left hmembers).trans (List.map_id ms))

/-- **An indented text is read back**, where the compact text is. -/
theorem parse_pretty_of_restores {v : Json} (h : Restores depthLimit v) :
    parse v.pretty = .ok v := by
  rw [parse_pretty h.legible, h.collapse_eq]

end Json

end ExtractionContract
