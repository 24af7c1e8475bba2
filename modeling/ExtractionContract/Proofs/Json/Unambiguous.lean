import ExtractionContract.Proofs.Json.NumberText

/-!
# Compact texts are unambiguous

A value whose numbers are finite is determined by its compact text, also when more text follows
that no number or word goes on with: the first character tells the kind of value, a literal is
read back as its string, numbers go on to a boundary, and after a bracket's items or members
stands a comma or the closing bracket.

* `literal_append_inj`: string literals, whatever follows.
* `chars_append_inj`: values, before a boundary.
* `toUTF8_text_inj`: values are told apart by the bytes of their texts.
-/

namespace ExtractionContract

namespace Json

open Text

/-! ### Strings -/

/-- The three ways to write a character inside a literal. -/
inductive EscapedAs (c : Char) : List Char → Prop
  | short {e : Char} : e ≠ 'u' → shortEscape e = some c → EscapedAs c ['\\', e]
  | numeric {x y : Char} :
    hexQuad '0' '0' x y = some c.toNat → c.toNat < 0x20 → EscapedAs c ['\\', 'u', '0', '0', x, y]
  | plain : c ≠ '"' → c ≠ '\\' → ¬c.toNat < 0x20 → EscapedAs c [c]

theorem hexQuad_hexDigit : ∀ n < 0x20,
    hexQuad '0' '0' (hexDigit (n / 16)) (hexDigit (n % 16)) = some n := by
  decide

theorem escapedAs_escapeChar (c : Char) : EscapedAs c (escapeChar c) := by
  unfold escapeChar
  -- Seven characters have a short escape.
  iterate 7
    split
    · next h =>
      subst h
      exact .short (by decide) rfl
  split
  · next h => exact .numeric (hexQuad_hexDigit _ h) h
  · exact .plain ‹_› ‹_› ‹_›

/-- **An escaped character is read back.** -/
theorem EscapedAs.stringBody {c : Char} {w : List Char} (h : EscapedAs c w) (rest : List Char) :
    stringBody (w ++ rest) = before c (stringBody rest) := by
  cases h with
  | short hne hshort =>
    rw [List.cons_append, stringBody.eq_def]
    simp [hne, hshort]
  | numeric hquad hcontrol =>
    have hlow : isLowSurrogate c.toNat = false := by simp [isLowSurrogate]; omega
    have hhigh : isHighSurrogate c.toNat = false := by simp [isHighSurrogate]; omega
    rw [List.cons_append, stringBody.eq_def]
    simp [hquad, hlow, hhigh]
  | plain hquote hslash hcontrol => exact stringBody_char hquote hslash hcontrol

theorem EscapedAs.content {c : Char} {w raw : List Char} (h : EscapedAs c w)
    (hraw : Content isQuote raw) : Content isQuote (w ++ raw) := by
  cases h with
  | short => exact .escape hraw
  | numeric hquad => exact .escape (.hexQuad hquad hraw)
  | plain hquote hslash => exact .char hslash (by simpa [isQuote] using hquote) hraw

/-- **A string's literal is read back as the string.** -/
theorem readsString_flatMap (s : List Char) : ReadsString (s.flatMap escapeChar) s := by
  induction s with
  | nil => exact ⟨.nil, fun _ => stringBody_quote⟩
  | cons c s ih =>
    refine ⟨(escapedAs_escapeChar c).content ih.content, fun rest => ?_⟩
    rw [List.flatMap_cons, List.append_assoc, (escapedAs_escapeChar c).stringBody, ih.read]
    rfl

theorem literal_append (s : String) (rest : List Char) :
    literal s ++ rest = '"' :: (s.toList.flatMap escapeChar ++ '"' :: rest) := by
  simp [literal]

/-- String literals are told apart, whatever follows. -/
theorem literal_append_inj {s s' : String} {rest rest' : List Char}
    (h : literal s ++ rest = literal s' ++ rest') : s = s' ∧ rest = rest' := by
  rw [literal_append, literal_append] at h
  have hread := (readsString_flatMap s.toList).read rest
  rw [(List.cons.inj h).2, (readsString_flatMap s'.toList).read rest'] at hread
  obtain ⟨hchars, hrest⟩ := Prod.mk.inj (Except.ok.inj hread)
  exact ⟨String.toList_inj.mp hchars.symm, hrest.symm⟩

/-! ### The first character -/

/-- The kind of the value that a character begins, if it can begin one. -/
def kindAt (c : Char) : Option Kind :=
  if c = 'n' then some .null
  else if c = 't' ∨ c = 'f' then some .bool
  else if c = '"' then some .str
  else if c = '[' then some .arr
  else if c = '{' then some .obj
  else if c = '-' ∨ isAsciiDigit c = true then some .num
  else none

theorem kindAt_of_digit {c : Char} (h : isAsciiDigit c = true) : kindAt c = some .num := by
  have hne : ∀ d : Char, isAsciiDigit d = false → c ≠ d := by
    rintro d hd rfl
    exact absurd h (by simp [hd])
  simp [kindAt, h, hne 'n' (by decide), hne 't' (by decide), hne 'f' (by decide),
    hne '"' (by decide), hne '[' (by decide), hne '\x7b' (by decide)]

theorem Written.exists_cons {n : Number} {cs : List Char} (h : Written n cs) :
    ∃ c rest, cs = c :: rest ∧ kindAt c = some .num := by
  have hsigned : ∀ {b : Bool} {body : List Char}, startsWithDigit body = true →
      ∃ c rest, signed b body = c :: rest ∧ kindAt c = some .num := by
    intro b body hbody
    cases b with
    | true => exact ⟨'-', body, rfl, rfl⟩
    | false =>
      cases body with
      | nil => cases hbody
      | cons c rest => exact ⟨c, rest, rfl, kindAt_of_digit hbody⟩
  cases h with
  | int i => exact hsigned (startsWithDigit_toDigits _)
  | real hdenotes => exact hsigned hdenotes.startsWithDigit

/-- **The first character tells the kind of value.** -/
theorem exists_chars_cons {v : Json} (hv : v.Finite) :
    ∃ c rest, v.chars = c :: rest ∧ kindAt c = some v.kind := by
  cases v with
  | null => exact ⟨'n', _, rfl, rfl⟩
  | bool b => cases b <;> exact ⟨_, _, rfl, rfl⟩
  | num n => exact (written_numberChars hv).exists_cons
  | str s => exact ⟨'"', _, rfl, rfl⟩
  | arr items => exact ⟨'[', _, rfl, rfl⟩
  | obj members => exact ⟨'\x7b', _, rfl, rfl⟩

theorem kind_eq_of_chars_append {v w : Json} {rest rest' : List Char} (hv : v.Finite)
    (hw : w.Finite) (h : v.chars ++ rest = w.chars ++ rest') : v.kind = w.kind := by
  obtain ⟨c, cs, hcs, hc⟩ := exists_chars_cons hv
  obtain ⟨d, ds, hds, hd⟩ := exists_chars_cons hw
  rw [hcs, hds] at h
  obtain rfl := (List.cons.inj h).1
  exact Option.some.inj (hc.symm.trans hd)

/-- No value begins with the character that closes a list of items or members. -/
theorem chars_append_ne_cons {v : Json} {c : Char} {rest rest' : List Char} (hv : v.Finite)
    (hc : kindAt c = none) : v.chars ++ rest ≠ c :: rest' := by
  intro h
  obtain ⟨d, ds, hds, hd⟩ := exists_chars_cons hv
  rw [hds] at h
  obtain rfl := (List.cons.inj h).1
  cases hc.symm.trans hd

/-! ### Whole values -/

theorem atBoundary_moreItemsChars (vs : List Json) (rest : List Char) :
    atBoundary (moreItemsChars vs ++ rest) = true := by
  cases vs <;> rfl

theorem atBoundary_moreMembersChars (ms : List (String × Json)) (rest : List Char) :
    atBoundary (moreMembersChars ms ++ rest) = true := by
  cases ms <;> rfl

/-- What follows an item tells whether there are more, and then they follow a comma. -/
theorem itemsChars_append_of_more {vs ws : List Json} {rest rest' : List Char}
    (h : moreItemsChars vs ++ rest = moreItemsChars ws ++ rest') :
    itemsChars vs ++ rest = itemsChars ws ++ rest' := by
  cases vs <;> cases ws
  · exact h
  · cases h
  · cases h
  · exact (List.cons.inj h).2

theorem membersChars_append_of_more {ms ns : List (String × Json)} {rest rest' : List Char}
    (h : moreMembersChars ms ++ rest = moreMembersChars ns ++ rest') :
    membersChars ms ++ rest = membersChars ns ++ rest' := by
  cases ms <;> cases ns
  · exact h
  · cases h
  · cases h
  · exact (List.cons.inj h).2

mutual

/-- **Values are told apart** by their texts, and where the texts end is known. -/
theorem chars_append_inj : ∀ {v w : Json} {rest rest' : List Char}, v.Finite → w.Finite →
    atBoundary rest = true → atBoundary rest' = true → v.chars ++ rest = w.chars ++ rest' →
    v = w ∧ rest = rest'
  | v, w, rest, rest', hv, hw, hb, hb', h => by
    -- The kinds are the same, so there are six cases and not thirty-six.
    have hkind := kind_eq_of_chars_append hv hw h
    match v, w with
    | null, null => exact ⟨rfl, List.append_cancel_left h⟩
    | bool b, bool b' =>
      cases b <;> cases b'
      · exact ⟨rfl, List.append_cancel_left h⟩
      · cases h
      · cases h
      · exact ⟨rfl, List.append_cancel_left h⟩
    | num n, num n' =>
      obtain ⟨hchars, hrest⟩ := scalar_unique (written_numberChars hv).isScalarChar
        (written_numberChars hw).isScalarChar hb hb' h
      exact ⟨congrArg num (numberChars_inj hv hw hchars), hrest⟩
    | str s, str s' =>
      obtain ⟨rfl, hrest⟩ := literal_append_inj h
      exact ⟨rfl, hrest⟩
    | arr vs, arr ws =>
      obtain ⟨rfl, hrest⟩ := itemsChars_append_inj hv hw (List.cons.inj h).2
      exact ⟨rfl, hrest⟩
    | obj ms, obj ns =>
      obtain ⟨rfl, hrest⟩ := membersChars_append_inj hv hw (List.cons.inj h).2
      exact ⟨rfl, hrest⟩

theorem itemsChars_append_inj : ∀ {vs ws : List Json} {rest rest' : List Char}, FiniteItems vs →
    FiniteItems ws → itemsChars vs ++ rest = itemsChars ws ++ rest' → vs = ws ∧ rest = rest'
  | [], [], _, _, _, _, h => ⟨rfl, (List.cons.inj h).2⟩
  | [], w :: ws, rest, rest', _, hw, h => by
    simp only [itemsChars, List.append_assoc] at h
    exact absurd h.symm (chars_append_ne_cons hw.1 rfl)
  | v :: vs, [], rest, rest', hv, _, h => by
    simp only [itemsChars, List.append_assoc] at h
    exact absurd h (chars_append_ne_cons hv.1 rfl)
  | v :: vs, w :: ws, rest, rest', hv, hw, h => by
    simp only [itemsChars, List.append_assoc] at h
    -- A comma or a bracket ends the item, also where it is a number.
    obtain ⟨rfl, hmore⟩ := chars_append_inj hv.1 hw.1 (atBoundary_moreItemsChars vs rest)
      (atBoundary_moreItemsChars ws rest') h
    obtain ⟨rfl, hrest⟩ := itemsChars_append_inj hv.2 hw.2 (itemsChars_append_of_more hmore)
    exact ⟨rfl, hrest⟩

theorem membersChars_append_inj : ∀ {ms ns : List (String × Json)} {rest rest' : List Char},
    FiniteMembers ms → FiniteMembers ns → membersChars ms ++ rest = membersChars ns ++ rest' →
    ms = ns ∧ rest = rest'
  | [], [], _, _, _, _, h => ⟨rfl, (List.cons.inj h).2⟩
  | [], _ :: _, _, _, _, _, h => by cases h
  | _ :: _, [], _, _, _, _, h => by cases h
  | (k, v) :: ms, (l, w) :: ns, rest, rest', hv, hw, h => by
    simp only [membersChars, List.append_assoc, List.cons_append] at h
    obtain ⟨rfl, hvalue⟩ := literal_append_inj h
    obtain ⟨rfl, hmore⟩ := chars_append_inj hv.1 hw.1 (atBoundary_moreMembersChars ms rest)
      (atBoundary_moreMembersChars ns rest') (List.cons.inj hvalue).2
    obtain ⟨rfl, hrest⟩ := membersChars_append_inj hv.2 hw.2 (membersChars_append_of_more hmore)
    exact ⟨rfl, hrest⟩

end

/-! ### Bytes -/

theorem toList_loop_eq (bytes : ByteArray) (i : Nat) (read : List UInt8) :
    ByteArray.toList.loop bytes i read = read.reverse ++ bytes.data.toList.drop i := by
  fun_induction ByteArray.toList.loop bytes i read with
  | case1 i read hlt ih =>
    have hlength : i < bytes.data.toList.length := by simpa using hlt
    have hget : bytes.get! i = bytes.data.toList[i] := getElem!_pos bytes.data i hlt
    rw [ih, List.drop_eq_getElem_cons hlength, hget, List.reverse_cons, List.append_assoc,
      List.singleton_append]
  | case2 i read hge =>
    rw [List.drop_of_length_le (by simpa using hge), List.append_nil]

/-- **The bytes of its compact text determine a value.** -/
theorem toUTF8_text_inj {v w : Json} (hv : v.Finite) (hw : w.Finite)
    (h : v.text.toUTF8.toList = w.text.toUTF8.toList) : v = w := by
  have hbytes : v.text.toUTF8 = w.text.toUTF8 := by
    rw [ByteArray.toList, ByteArray.toList, toList_loop_eq, toList_loop_eq] at h
    exact ByteArray.ext (Array.toList_inj.mp h)
  have htext : v.text = w.text := String.toByteArray_inj.mp hbytes
  have hchars : v.chars = w.chars := String.ofList_injective htext
  exact (chars_append_inj hv hw rfl rfl (congrArg (· ++ []) hchars)).1

end Json

end ExtractionContract
