import ExtractionContract.Proofs.Json.Members
import ExtractionContract.Proofs.Json.Unambiguous

/-!
# Reading back a compact text

The compact text of a value is read back as the value if three things are true of it: its
objects name each key once, no more containers are nested in it than the reader follows, and
the texts of its numbers are numerals that say these numbers. `Restores` says so, to a depth.

* `begins_chars`: the text of such a value spells the value, whatever follows it.
* `parse_text`: so it is read as the value.
* `says_int`: the digits of a whole number are such a numeral.
-/

namespace ExtractionContract

namespace Json

/-- A value that its compact text says, with at most some number of containers nested. -/
inductive Restores : Nat → Json → Prop
  | null {d : Nat} : Restores d null
  | bool {d : Nat} {b : Bool} : Restores d (bool b)
  | num {d : Nat} {n : Number} : Says (numberChars n) (num n) → Restores d (num n)
  | str {d : Nat} {s : String} : Restores d (str s)
  | arr {d : Nat} {vs : List Json} : (∀ v ∈ vs, Restores d v) → Restores (d + 1) (arr vs)
  | obj {d : Nat} {ms : List (String × Json)} :
    (Members.keys ms).Nodup → (∀ m ∈ ms, Restores d m.2) → Restores (d + 1) (obj ms)

section

variable {d : Nat}

/-- Blanks before a phrase make no difference. -/
theorem Begins.skipSpace {phrase : Phrase} {cs rest : List Char} (h : Begins d phrase cs rest) :
    Begins d phrase (skipSpace cs) rest := by
  obtain ⟨ts, hts, hlaid⟩ := h
  exact ⟨ts, hts, fun ts' hl hb => (hlaid ts' hl hb).skipSpace⟩

theorem begins_literal (s : String) (rest : List Char) :
    Begins d (.value (str s)) (literal s ++ rest) rest := by
  have hstring : Begins d (.value (str (String.ofList s.toList)))
      ('"' :: (s.toList.flatMap escapeChar ++ '"' :: rest)) rest :=
    Begins.string (readsString_flatMap s.toList)
  rwa [String.ofList_toList, ← literal_append] at hstring

section

variable {k : String} {v : Json} {r₁ r₂ r₃ rest : List Char}

/-- A member with the literal of its key, and the brace. -/
theorem Begins.lastKeyed (hr₁ : Json.skipSpace r₁ = ':' :: r₂)
    (h : Begins d (.value v) r₂ r₃) (hr₃ : Json.skipSpace r₃ = '}' :: rest) :
    Begins d (.members [(k, v)]) (literal k ++ r₁) rest := by
  have hlast := Begins.lastMember (readsString_flatMap k.toList) hr₁ h.skipSpace hr₃
  rwa [String.ofList_toList, ← literal_append] at hlast

/-- A member with the literal of its key, and the members after it. -/
theorem Begins.keyed {ms : List (String × Json)} {r₄ : List Char}
    (hr₁ : Json.skipSpace r₁ = ':' :: r₂) (h : Begins d (.value v) r₂ r₃)
    (hr₃ : Json.skipSpace r₃ = ',' :: r₄) (hms : Begins d (.members ms) r₄ rest) :
    Begins d (.members ((k, v) :: ms)) (literal k ++ r₁) rest := by
  have hmember :=
    Begins.member (readsString_flatMap k.toList) hr₁ h.skipSpace hr₃ hms.skipSpace
  rwa [String.ofList_toList, ← literal_append] at hmember

end

/-- The items of an array, from the first one on. -/
theorem begins_itemsChars : ∀ {vs : List Json}, vs ≠ [] →
    (∀ v ∈ vs, ∀ rest, Begins d (.value v) (v.chars ++ rest) rest) →
    ∀ rest, Begins d (.items vs) (itemsChars vs ++ rest) rest
  | [], hne, _, _ => absurd rfl hne
  | [v], _, h, rest => by
    rw [itemsChars, moreItemsChars, List.append_assoc]
    exact (h v List.mem_cons_self _).lastItem (skipSpace_cons_of_not_space (by decide))
  | v :: w :: vs, _, h, rest => by
    obtain ⟨hv, hvs⟩ := List.forall_mem_cons.mp h
    have hmore := begins_itemsChars (List.cons_ne_nil w vs) hvs rest
    rw [itemsChars, List.append_assoc]
    exact (hv _).item (skipSpace_cons_of_not_space (by decide)) hmore.skipSpace

/-- The members of an object, from the first one on. -/
theorem begins_membersChars : ∀ {ms : List (String × Json)}, ms ≠ [] →
    (∀ m ∈ ms, ∀ rest, Begins d (.value m.2) (m.2.chars ++ rest) rest) →
    ∀ rest, Begins d (.members ms) (membersChars ms ++ rest) rest
  | [], hne, _, _ => absurd rfl hne
  | [(k, v)], _, h, rest => by
    rw [membersChars, moreMembersChars, List.append_assoc, List.append_assoc]
    exact .lastKeyed (skipSpace_cons_of_not_space (by decide)) (h (k, v) List.mem_cons_self _)
      (skipSpace_cons_of_not_space (by decide))
  | (k, v) :: m :: ms, _, h, rest => by
    obtain ⟨hv, hms⟩ := List.forall_mem_cons.mp h
    rw [membersChars, List.append_assoc, List.append_assoc]
    exact .keyed (skipSpace_cons_of_not_space (by decide)) (hv _)
      (skipSpace_cons_of_not_space (by decide))
      (begins_membersChars (List.cons_ne_nil m ms) hms rest)

/-- **The compact text of a value spells the value**, whatever follows. -/
theorem begins_chars {v : Json} (h : Restores d v) :
    ∀ rest, Begins d (.value v) (v.chars ++ rest) rest := by
  induction h with
  | null => exact fun rest => Begins.value .null
  | @bool d b =>
    cases b with
    | true => exact fun rest => Begins.value .truth
    | false => exact fun rest => Begins.value .falsity
  | num hsays => exact fun rest => Begins.value hsays
  | str => exact begins_literal _
  | @arr d vs _ ih =>
    intro rest
    by_cases hne : vs = []
    · subst hne
      exact .emptyArray (skipSpace_cons_of_not_space (by decide))
    · exact Begins.array (begins_itemsChars hne ih rest).skipSpace
  | @obj d ms hkeys _ ih =>
    intro rest
    by_cases hne : ms = []
    · subst hne
      exact .emptyObject (skipSpace_cons_of_not_space (by decide))
    · have hobject := Begins.object (begins_membersChars hne ih rest).skipSpace
      rwa [Members.collapse_eq_self hkeys] at hobject

end

/-- A text that spells a value, with nothing behind it, is read as the value. -/
theorem parse_of_begins {v : Json} {cs : List Char} (h : Begins depthLimit (.value v) cs []) :
    parse (String.ofList cs) = .ok v := by
  obtain ⟨ts, hts, hlaid⟩ := h
  have hl := hlaid [] .done rfl
  rw [List.append_nil] at hl
  exact parse_eq_ok.mpr ⟨ts, hts, String.toList_ofList ▸ hl⟩

/-- **A compact text is read back.** -/
theorem parse_text {v : Json} (h : Restores depthLimit v) : parse v.text = .ok v := by
  have hbegins := begins_chars h []
  rw [List.append_nil] at hbegins
  exact parse_of_begins hbegins

/-! ### Whole numbers -/

section

open Text Decimal

/-- The digits of a positive number do not begin with a zero. -/
theorem exists_cons_of_toDigits {n : Nat} (hn : 0 < n) :
    ∃ c ds, Nat.toDigits 10 n = c :: ds ∧ c ≠ '0' := by
  induction n using Nat.strongRecOn with
  | ind n ih =>
    by_cases hlt : n < 10
    · have hdigit : ∀ n < 10, 0 < n → n.digitChar ≠ '0' := by decide
      exact ⟨n.digitChar, [], Nat.toDigits_of_lt_base hlt, hdigit n hlt hn⟩
    · have hle : 10 ≤ n := Nat.le_of_not_lt hlt
      obtain ⟨c, ds, hds, hc⟩ := ih (n / 10) (by omega) (by omega)
      refine ⟨c, ds ++ [(n % 10).digitChar], ?_, hc⟩
      rw [Nat.toDigits_of_base_le (by decide) hle, hds, List.cons_append]

theorem unsignedNumber_toDigits {negative : Bool} (n : Nat) {rest : List Char}
    (hrest : atBoundary rest = true) :
    unsignedNumber negative (Nat.toDigits 10 n ++ rest) =
      wholeStep negative (Nat.toDigits 10 n) rest := by
  have hzero : ∀ d ds, Nat.toDigits 10 n ≠ '0' :: d :: ds := by
    intro d ds heq
    rcases Nat.eq_zero_or_pos n with rfl | hn
    · cases heq
    · obtain ⟨c, ds', hds, hc⟩ := exists_cons_of_toDigits hn
      exact hc (List.cons.inj (hds.symm.trans heq)).1
  rw [unsignedNumber_append (allDigits_toDigits n) Nat.toDigits_ne_nil hzero
    (startsWithDigit_of_atBoundary hrest), afterWhole_of_atBoundary hrest]

theorem number_of_startsWithDigit {cs : List Char} (h : startsWithDigit cs = true) :
    number cs = unsignedNumber false cs := by
  unfold number
  split
  · exact absurd h Bool.false_ne_true
  · rfl

theorem startsWithDigit_append {cs : List Char} (h : startsWithDigit cs = true)
    (rest : List Char) : startsWithDigit (cs ++ rest) = true := by
  cases cs with
  | nil => cases h
  | cons c cs => exact h

/-- **A whole number of sixty-four bits** is read back from its digits. -/
theorem says_int {i : Int} (hge : -(twoTo 63) ≤ i) (hlt : i < twoTo 63) :
    Says (numberChars (.int i)) (num (.int i)) := by
  have hwritten : Written (.int i) (numberChars (.int i)) := written_numberChars rfl
  refine .number hwritten.isScalarChar fun rest hrest => ?_
  have hvalue : value (Nat.toDigits 10 i.natAbs) = i.natAbs := value_toDigits _
  have hbound : (twoTo 63 : Int) = 2 ^ 63 := rfl
  have hword : i.natAbs ≤ wordLimit := by
    have : wordLimit = 2 ^ 64 - 1 := rfl
    omega
  rw [numberChars, intChars]
  split
  · next hneg =>
    -- Only minus zero and what is below the range would be read as real.
    have hsmall : ¬(i.natAbs = 0 || twoTo 63 < i.natAbs) = true := by
      simp
      omega
    have hread : number ('-' :: Nat.toDigits 10 i.natAbs ++ rest) =
        unsignedNumber true (Nat.toDigits 10 i.natAbs ++ rest) := rfl
    rw [hread, unsignedNumber_toDigits _ hrest, wholeStep_eq_ok, wholeNumber?, hvalue,
      if_neg (Nat.not_lt.mpr hword), if_pos rfl, if_neg hsmall, Int.ofNat_natAbs_of_nonpos hneg.le,
      Int.neg_neg]
    exact ⟨rfl, rfl⟩
  · next hneg =>
    rw [number_of_startsWithDigit (startsWithDigit_append (startsWithDigit_toDigits _) rest),
      unsignedNumber_toDigits _ hrest, wholeStep_eq_ok, wholeNumber?, hvalue,
      if_neg (Nat.not_lt.mpr hword), if_neg Bool.false_ne_true,
      Int.natAbs_of_nonneg (Int.not_lt.mp hneg)]
    exact ⟨rfl, rfl⟩

end

/-! ### Objects put together -/

/-- Members that have some of the given keys, in this order, and whose values are read back from
their texts. -/
structure MembersRestore (d : Nat) (keys : List String) (ms : List (String × Json)) : Prop where
  keys_sublist : (Members.keys ms).Sublist keys
  restores : ∀ m ∈ ms, Restores d m.2

namespace MembersRestore

variable {d : Nat} {keys keys' : List String} {ms ms' : List (String × Json)}

theorem nil : MembersRestore d [] [] :=
  ⟨.slnil, List.forall_mem_nil _⟩

theorem cons {key : String} {v : Json} (hv : Restores d v) (h : MembersRestore d keys ms) :
    MembersRestore d (key :: keys) ((key, v) :: ms) :=
  ⟨h.keys_sublist.cons_cons key, List.forall_mem_cons.mpr ⟨hv, h.restores⟩⟩

theorem append (h : MembersRestore d keys ms) (h' : MembersRestore d keys' ms') :
    MembersRestore d (keys ++ keys') (ms ++ ms') where
  keys_sublist := by
    rw [Members.keys, List.map_append]
    exact h.keys_sublist.append h'.keys_sublist
  restores := List.forall_mem_append.mpr ⟨h.restores, h'.restores⟩

theorem obj (h : MembersRestore d keys ms) (hkeys : keys.Nodup) : Restores (d + 1) (.obj ms) :=
  .obj (h.keys_sublist.nodup hkeys) h.restores

end MembersRestore

end Json

end ExtractionContract
