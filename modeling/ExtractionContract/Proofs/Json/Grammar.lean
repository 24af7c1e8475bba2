import ExtractionContract.Proofs.Json.Numerals
import Mathlib.Data.List.Chain

/-!
# The grammar of JSON texts

`Spells` says what a run of tokens says: one rule for each kind of value, with the items of an
array and the members of an object up to the bracket that closes them. `document_eq_ok` is the
reader's correctness: a text is a document exactly when its tokens spell a value, and it says
that value.

* `readsSpelled`: what is read of a text is spelled by the tokens at its beginning, by induction
  on the fuel.
* `Spells.readFirst`: what tokens spell is read wherever they stand, by induction on the rules.
-/

namespace ExtractionContract

namespace Json

open Text

/-! ### Strings -/

/-- The content of a literal is read as a string. -/
structure ReadsString (raw s : List Char) : Prop where
  content : Content isQuote raw
  read : ∀ rest, stringBody (raw ++ '"' :: rest) = .ok (s, rest)

theorem stringBody_quote {r : List Char} : stringBody ('"' :: r) = .ok ([], r) := by
  rw [stringBody.eq_def]
  rfl

theorem stringBody_char {c : Char} {r : List Char} (hquote : c ≠ '"') (hslash : c ≠ '\\')
    (hcontrol : ¬c.toNat < 0x20) : stringBody (c :: r) = before c (stringBody r) := by
  rw [stringBody.eq_def]
  simp [hquote, hslash, hcontrol]

theorem before_eq_ok {c : Char} {step : Step (List Char)} {s rest : List Char} :
    before c step = .ok (s, rest) ↔ ∃ s', step = .ok (s', rest) ∧ c :: s' = s := by
  cases step with
  | error stop => simp [before]
  | ok p =>
    obtain ⟨s', r⟩ := p
    constructor
    · rintro h
      cases h
      exact ⟨s', rfl, rfl⟩
    · rintro ⟨_, h, rfl⟩
      cases h
      rfl

/-- Hexadecimal digits are content. -/
theorem content_of_hexValue {x : Char} {n : Nat} (h : hexValue x = some n) :
    x ≠ '\\' ∧ isQuote x = false := by
  refine ⟨?_, ?_⟩
  · rintro rfl
    simp [hexValue, isAsciiDigit] at h
  · rw [← Bool.not_eq_true]
    intro hquote
    obtain rfl : x = '"' := by simpa [isQuote] using hquote
    simp [hexValue, isAsciiDigit] at h

theorem Content.hexQuad {a b c d : Char} {n : Nat} {raw : List Char}
    (h : hexQuad a b c d = some n) (hraw : Content isQuote raw) :
    Content isQuote (a :: b :: c :: d :: raw) := by
  unfold Json.hexQuad at h
  split at h
  · next ha hb hc hd =>
    obtain ⟨ha, ha'⟩ := content_of_hexValue ha
    obtain ⟨hb, hb'⟩ := content_of_hexValue hb
    obtain ⟨hc, hc'⟩ := content_of_hexValue hc
    obtain ⟨hd, hd'⟩ := content_of_hexValue hd
    exact .char ha ha' (.char hb hb' (.char hc hc' (.char hd hd' hraw)))
  · cases h

theorem badQuad_ne_ok {α : Type} {cs : List Char} {p : α × List Char} :
    badQuad cs ≠ .ok p := by
  unfold badQuad stopAtEnd
  split <;> simp

/-- A character of a string, or what stands for one, before what is read of it. -/
theorem exists_readsString_before {c : Char} {cs s rest : List Char} (piece : List Char)
    (h : before c (stringBody cs) = .ok (s, rest))
    (ih : ∀ {s}, stringBody cs = .ok (s, rest) → ∃ raw, cs = raw ++ '"' :: rest ∧ ReadsString raw s)
    (hcontent : ∀ raw, Content isQuote raw → Content isQuote (piece ++ raw))
    (hread : ∀ r, stringBody (piece ++ r) = before c (stringBody r)) :
    ∃ raw, piece ++ cs = raw ++ '"' :: rest ∧ ReadsString raw s := by
  obtain ⟨s', hs', rfl⟩ := before_eq_ok.mp h
  obtain ⟨raw, rfl, hraw⟩ := ih hs'
  refine ⟨piece ++ raw, (List.append_assoc ..).symm, hcontent raw hraw.content, fun r => ?_⟩
  rw [List.append_assoc, hread, hraw.read]
  rfl

/-- **A string that has been read is a literal of its own**: its content is read as the same
string whatever stands after the quote. -/
theorem exists_readsString {cs s rest : List Char} (h : stringBody cs = .ok (s, rest)) :
    ∃ raw, cs = raw ++ '"' :: rest ∧ ReadsString raw s := by
  -- A string ends at its quote. Before it stand a pair of quads, one quad, a short escape or a
  -- plain character; every other case is a fault.
  fun_induction stringBody cs generalizing s with
  | case2 r =>
    cases h
    exact ⟨[], rfl, .nil, fun _ => stringBody_quote⟩
  | case9 a b c d m hquad hlow hhigh a' b' c' d' r m' hquad' hlow' hne ih =>
    exact exists_readsString_before ['\\', 'u', a, b, c, d, '\\', 'u', a', b', c', d'] h ih
      (fun _ hraw => .escape (.hexQuad hquad (.escape (.hexQuad hquad' hraw))))
      fun r => by simp [stringBody, hquad, hlow, hhigh, hquad', hlow']
  | case14 a b c d r m hquad hlow hhigh hne ih =>
    exact exists_readsString_before ['\\', 'u', a, b, c, d] h ih
      (fun _ hraw => .escape (.hexQuad hquad hraw))
      fun r => by simp [stringBody, hquad, hlow, hhigh]
  | case16 e r he x hshort hne ih =>
    exact exists_readsString_before ['\\', e] h ih (fun _ hraw => .escape hraw)
      fun r => by rw [List.cons_append, stringBody.eq_def]; simp [he, hshort]
  | case19 c r hquote hslash hcontrol ih =>
    exact exists_readsString_before [c] h ih
      (fun _ hraw => .char hslash (by simpa [isQuote] using hquote) hraw)
      fun _ => stringBody_char hquote hslash hcontrol
  | _ => simp [stopAtEnd, stopAt, badQuad_ne_ok] at h

/-! ### Numbers and words -/

/-- What a number or a word says. -/
inductive Says : List Char → Json → Prop
  | null : Says ['n', 'u', 'l', 'l'] null
  | truth : Says ['t', 'r', 'u', 'e'] (bool true)
  | falsity : Says ['f', 'a', 'l', 's', 'e'] (bool false)
  | number {w : List Char} {n : Number} :
    (∀ c ∈ w, isScalarChar c = true) → ReadsAs number w n → Says w (num n)

theorem word_eq_ok {ws cs rest : List Char} {u : Unit} :
    word ws cs = .ok (u, rest) ↔ cs = ws ++ rest := by
  induction ws generalizing cs with
  | nil => simp [word]
  | cons w ws ih =>
    cases cs with
    | nil => simp [word, stopAtEnd]
    | cons c cs =>
      rw [word, List.cons_append, List.cons.injEq]
      split
      · next h => rw [ih, and_iff_right h]
      · next h => simp [stopAt, h]

theorem andThen_ok {α β : Type} {a : α} {rest : List Char} {next : α → List Char → Step β} :
    andThen (.ok (a, rest)) next = next a rest :=
  rfl

theorem andThen_eq_ok {α β : Type} {step : Step α} {next : α → List Char → Step β}
    {p : β × List Char} :
    andThen step next = .ok p ↔ ∃ a rest, step = .ok (a, rest) ∧ next a rest = .ok p := by
  cases step with
  | error stop => simp [andThen]
  | ok q =>
    obtain ⟨a, r⟩ := q
    constructor
    · exact fun h => ⟨a, r, rfl, h⟩
    · rintro ⟨_, _, h, hnext⟩
      cases h
      exact hnext

theorem Says.chars {w : List Char} {v : Json} (h : Says w v) : ∀ c ∈ w, isScalarChar c = true := by
  cases h with
  | number hw _ => exact hw
  | _ => exact List.all_eq_true.mp rfl

/-- A numeral has a first character. -/
theorem ReadsAs.exists_cons {w : List Char} {n : Number} (h : ReadsAs number w n) :
    ∃ c w', w = c :: w' ∧ (decide (c = '-') || isAsciiDigit c) = true := by
  have hread := h [] rfl
  rw [List.append_nil] at hread
  exact exists_cons_of_number hread

theorem Says.ne_nil {w : List Char} {v : Json} (h : Says w v) : w ≠ [] := by
  cases h with
  | number _ hread =>
    obtain ⟨c, w', rfl, -⟩ := hread.exists_cons
    exact List.cons_ne_nil c w'
  | _ => exact List.cons_ne_nil _ _

/-- A value that begins like a number is read as one. -/
theorem valueAt_of_number {fuel depth : Nat} {c : Char} {r : List Char}
    (hc : (decide (c = '-') || isAsciiDigit c) = true) :
    valueAt (fuel + 1) depth (c :: r) =
      andThen (number (c :: r)) fun n rest => .ok (num n, rest) := by
  have hne : c ≠ '"' ∧ c ≠ '[' ∧ c ≠ '{' ∧ c ≠ 'n' ∧ c ≠ 't' ∧ c ≠ 'f' := by
    refine ⟨?_, ?_, ?_, ?_, ?_, ?_⟩ <;> rintro rfl <;> exact absurd hc (by decide)
  obtain ⟨h₁, h₂, h₃, h₄, h₅, h₆⟩ := hne
  rw [valueAt, if_neg h₁, if_neg h₂, if_neg h₃, if_neg h₄, if_neg h₅, if_neg h₆, if_pos hc]

theorem Says.valueAt {fuel depth : Nat} {w rest : List Char} {v : Json} (h : Says w v)
    (hrest : atBoundary rest = true) :
    valueAt (fuel + 1) depth (w ++ rest) = .ok (v, rest) := by
  cases h with
  | number _ hread =>
    obtain ⟨c, w, rfl, hc⟩ := hread.exists_cons
    rw [List.cons_append, valueAt_of_number hc, ← List.cons_append, hread rest hrest]
    rfl
  | _ => rfl

/-! ### Phrases -/

/-- What a run of tokens can say: a value, the items of an array up to and with its bracket, or
the members of an object up to and with its brace. -/
inductive Phrase where
  | value (v : Json)
  | items (vs : List Json)
  | members (ms : List (String × Json))

/-- What a run of tokens says, when at most some number of containers is nested in it. -/
inductive Spells : Nat → List Token → Phrase → Prop
  | string {d : Nat} {raw s : List Char} :
    ReadsString raw s → Spells d [.literal raw] (.value (str (String.ofList s)))
  | scalar {d : Nat} {w : List Char} {v : Json} : Says w v → Spells d [.scalar w] (.value v)
  | emptyArray {d : Nat} : Spells (d + 1) [.punct '[', .punct ']'] (.value (arr []))
  | array {d : Nat} {ts : List Token} {vs : List Json} :
    Spells d ts (.items vs) → Spells (d + 1) (.punct '[' :: ts) (.value (arr vs))
  | emptyObject {d : Nat} : Spells (d + 1) [.punct '{', .punct '}'] (.value (obj []))
  | object {d : Nat} {ts : List Token} {ms : List (String × Json)} :
    Spells d ts (.members ms) →
    Spells (d + 1) (.punct '{' :: ts) (.value (obj (Members.collapse ms)))
  | lastItem {d : Nat} {ts : List Token} {v : Json} :
    Spells d ts (.value v) → Spells d (ts ++ [.punct ']']) (.items [v])
  | item {d : Nat} {ts ts' : List Token} {v : Json} {vs : List Json} :
    Spells d ts (.value v) → Spells d ts' (.items vs) →
    Spells d (ts ++ .punct ',' :: ts') (.items (v :: vs))
  | lastMember {d : Nat} {raw k : List Char} {ts : List Token} {v : Json} :
    ReadsString raw k → Spells d ts (.value v) →
    Spells d (.literal raw :: .punct ':' :: (ts ++ [.punct '}']))
      (.members [(String.ofList k, v)])
  | member {d : Nat} {raw k : List Char} {ts ts' : List Token} {v : Json}
    {ms : List (String × Json)} :
    ReadsString raw k → Spells d ts (.value v) → Spells d ts' (.members ms) →
    Spells d (.literal raw :: .punct ':' :: (ts ++ .punct ',' :: ts'))
      (.members ((String.ofList k, v) :: ms))

/-! ### What is read is spelled out -/

theorem atBoundary_of_skipSpace_cons {c : Char} {cs r : List Char} (h : skipSpace cs = c :: r)
    (hc : isScalarChar c = false) : atBoundary cs = true := by
  cases cs with
  | nil => rfl
  | cons x cs =>
    rw [atBoundary, Bool.not_eq_true']
    cases hx : isSpace x with
    | true =>
      rw [← Bool.not_eq_true]
      intro hchar
      simp [isSpace_of_isScalarChar hchar] at hx
    | false =>
      rw [skipSpace_cons_of_not_space hx] at h
      cases h
      exact hc

theorem atBoundary_of_skipSpace_nil {cs : List Char} (h : skipSpace cs = []) :
    atBoundary cs = true := by
  cases cs with
  | nil => rfl
  | cons x cs =>
    rw [atBoundary, Bool.not_eq_true', ← Bool.not_eq_true]
    intro hchar
    rw [skipSpace_cons_of_not_space (isSpace_of_isScalarChar hchar)] at h
    cases h

/-- The beginning of a text spells a phrase: put before the tokens of the rest, its tokens are
those of the text. -/
def Begins (depth : Nat) (phrase : Phrase) (cs rest : List Char) : Prop :=
  ∃ ts, Spells depth ts phrase ∧
    ∀ ts', Laid ts' rest → atBoundary rest = true → Laid (ts ++ ts') cs

section

variable {depth : Nat} {cs r rest : List Char}

theorem Begins.value {v : Json} {w : List Char} (h : Says w v) :
    Begins depth (.value v) (w ++ rest) rest :=
  ⟨[.scalar w], .scalar h, fun _ hl hb => .scalar h.ne_nil h.chars hb hl⟩

theorem Begins.string {raw s : List Char} (h : ReadsString raw s) :
    Begins depth (.value (str (String.ofList s))) ('"' :: (raw ++ '"' :: rest)) rest :=
  ⟨[.literal raw], .string h, fun _ hl _ => .literal h.content hl⟩

theorem Begins.array {vs : List Json} (h : Begins depth (.items vs) (skipSpace cs) rest) :
    Begins (depth + 1) (.value (arr vs)) ('[' :: cs) rest := by
  obtain ⟨ts, hts, hlaid⟩ := h
  exact ⟨_, .array hts, fun ts' hl hb => .punct rfl (.of_skipSpace (hlaid ts' hl hb))⟩

theorem Begins.object {ms : List (String × Json)}
    (h : Begins depth (.members ms) (skipSpace cs) rest) :
    Begins (depth + 1) (.value (obj (Members.collapse ms))) ('{' :: cs) rest := by
  obtain ⟨ts, hts, hlaid⟩ := h
  exact ⟨_, .object hts, fun ts' hl hb => .punct rfl (.of_skipSpace (hlaid ts' hl hb))⟩

/-- A token of one character that stands next, blanks passed over. -/
theorem Laid.skipped {ts : List Token} {c : Char} (h : Json.skipSpace cs = c :: r)
    (hc : isPunct c = true) (hl : Laid ts r) : Laid (.punct c :: ts) cs :=
  .of_skipSpace (h ▸ .punct hc hl)

theorem Begins.emptyArray (h : Json.skipSpace cs = ']' :: rest) :
    Begins (depth + 1) (.value (arr [])) ('[' :: cs) rest :=
  ⟨_, .emptyArray, fun _ hl _ => .punct rfl (.skipped h rfl hl)⟩

theorem Begins.emptyObject (h : Json.skipSpace cs = '}' :: rest) :
    Begins (depth + 1) (.value (obj [])) ('{' :: cs) rest :=
  ⟨_, .emptyObject, fun _ hl _ => .punct rfl (.skipped h rfl hl)⟩

theorem Begins.lastItem {v : Json} (h : Begins depth (.value v) cs r)
    (hr : skipSpace r = ']' :: rest) : Begins depth (.items [v]) cs rest := by
  obtain ⟨ts, hts, hlaid⟩ := h
  refine ⟨_, .lastItem hts, fun ts' hl _ => ?_⟩
  rw [List.append_assoc]
  exact hlaid _ (.skipped hr rfl hl) (atBoundary_of_skipSpace_cons hr (by decide))

theorem Begins.item {v : Json} {vs : List Json} {r' : List Char}
    (h : Begins depth (.value v) cs r) (hr : skipSpace r = ',' :: r')
    (hvs : Begins depth (.items vs) (skipSpace r') rest) :
    Begins depth (.items (v :: vs)) cs rest := by
  obtain ⟨ts, hts, hlaid⟩ := h
  obtain ⟨ts₂, hts₂, hlaid₂⟩ := hvs
  refine ⟨_, .item hts hts₂, fun ts' hl hb => ?_⟩
  rw [List.append_assoc]
  exact hlaid _ (.skipped hr rfl (.of_skipSpace (hlaid₂ ts' hl hb)))
    (atBoundary_of_skipSpace_cons hr (by decide))

theorem Begins.lastMember {raw k r₁ r₂ r₃ : List Char} {v : Json} (hk : ReadsString raw k)
    (hr₁ : skipSpace r₁ = ':' :: r₂) (h : Begins depth (.value v) (skipSpace r₂) r₃)
    (hr₃ : skipSpace r₃ = '}' :: rest) :
    Begins depth (.members [(String.ofList k, v)]) ('"' :: (raw ++ '"' :: r₁)) rest := by
  obtain ⟨ts, hts, hlaid⟩ := h
  refine ⟨_, .lastMember hk hts, fun ts' hl _ => ?_⟩
  rw [List.cons_append, List.cons_append, List.append_assoc]
  exact .literal hk.content (.skipped hr₁ rfl (.of_skipSpace
    (hlaid _ (.skipped hr₃ rfl hl) (atBoundary_of_skipSpace_cons hr₃ (by decide)))))

theorem Begins.member {raw k r₁ r₂ r₃ r₄ : List Char} {v : Json} {ms : List (String × Json)}
    (hk : ReadsString raw k) (hr₁ : skipSpace r₁ = ':' :: r₂)
    (h : Begins depth (.value v) (skipSpace r₂) r₃) (hr₃ : skipSpace r₃ = ',' :: r₄)
    (hms : Begins depth (.members ms) (skipSpace r₄) rest) :
    Begins depth (.members ((String.ofList k, v) :: ms)) ('"' :: (raw ++ '"' :: r₁)) rest := by
  obtain ⟨ts, hts, hlaid⟩ := h
  obtain ⟨ts₂, hts₂, hlaid₂⟩ := hms
  refine ⟨_, .member hk hts hts₂, fun ts' hl hb => ?_⟩
  rw [List.cons_append, List.cons_append, List.append_assoc]
  exact .literal hk.content (.skipped hr₁ rfl (.of_skipSpace
    (hlaid _ (.skipped hr₃ rfl (.of_skipSpace (hlaid₂ ts' hl hb)))
      (atBoundary_of_skipSpace_cons hr₃ (by decide)))))

theorem Begins.word {c : Char} {ws : List Char} {v v' : Json} (hw : Says (c :: ws) v)
    (h : andThen (word ws cs) (fun _ r => Except.ok (v, r)) = .ok (v', rest)) :
    Begins depth (.value v') (c :: cs) rest := by
  obtain ⟨_, r, hread, hv⟩ := andThen_eq_ok.mp h
  obtain rfl := word_eq_ok.mp hread
  cases hv
  exact .value hw

end

/-- What the reader returns with some fuel is spelled out at the beginning of the text. -/
structure ReadsSpelled (fuel : Nat) : Prop where
  value : ∀ {depth cs v rest}, valueAt fuel depth cs = .ok (v, rest) →
    Begins depth (.value v) cs rest
  items : ∀ {depth cs vs rest}, itemsAt fuel depth cs = .ok (vs, rest) →
    Begins depth (.items vs) cs rest
  members : ∀ {depth cs ms rest}, membersAt fuel depth cs = .ok (ms, rest) →
    Begins depth (.members ms) cs rest

theorem ReadsSpelled.valueAt_succ {fuel depth : Nat} (ih : ReadsSpelled fuel) {cs rest : List Char}
    {v : Json} (h : valueAt (fuel + 1) depth cs = .ok (v, rest)) :
    Begins depth (.value v) cs rest := by
  cases cs with
  | nil => simp [valueAt, stopAtEnd] at h
  | cons c r =>
    -- The first character decides: a quote, a bracket, a brace, the three words, then numbers.
    unfold valueAt at h
    split at h
    · next hc =>
      obtain ⟨s, r', hs, hv⟩ := andThen_eq_ok.mp h
      obtain ⟨raw, rfl, hraw⟩ := exists_readsString hs
      cases hv
      subst hc
      exact .string hraw
    split at h
    · next hc =>
      subst hc
      split at h
      · simp [stopAt] at h
      next hdepth =>
      obtain ⟨d, rfl⟩ := Nat.exists_eq_succ_of_ne_zero hdepth
      split at h
      · simp [stopAtEnd] at h
      · next hr =>
        cases h
        exact .emptyArray hr
      · obtain ⟨vs, r', hvs, hv⟩ := andThen_eq_ok.mp h
        cases hv
        exact .array (ih.items hvs)
    split at h
    · next hc =>
      subst hc
      split at h
      · simp [stopAt] at h
      next hdepth =>
      obtain ⟨d, rfl⟩ := Nat.exists_eq_succ_of_ne_zero hdepth
      split at h
      · simp [stopAtEnd] at h
      · next hr =>
        cases h
        exact .emptyObject hr
      · obtain ⟨ms, r', hms, hv⟩ := andThen_eq_ok.mp h
        cases hv
        exact .object (ih.members hms)
    split at h
    · next hc => exact hc ▸ Begins.word .null h
    split at h
    · next hc => exact hc ▸ Begins.word .truth h
    split at h
    · next hc => exact hc ▸ Begins.word .falsity h
    split at h
    · obtain ⟨n, r', hn, hv⟩ := andThen_eq_ok.mp h
      obtain ⟨w, hcs, hw, hread⟩ := Taken.number hn
      cases hv
      rw [hcs]
      exact .value (.number hw hread)
    · simp [stopAt] at h

theorem ReadsSpelled.itemsAt_succ {fuel depth : Nat} (ih : ReadsSpelled fuel) {cs rest : List Char}
    {vs : List Json} (h : itemsAt (fuel + 1) depth cs = .ok (vs, rest)) :
    Begins depth (.items vs) cs rest := by
  rw [itemsAt] at h
  obtain ⟨v, r, hv, h⟩ := andThen_eq_ok.mp h
  split at h
  · simp [stopAtEnd] at h
  · next hr =>
    cases h
    exact .lastItem (ih.value hv) hr
  · next hr =>
    split at h
    · simp [stopAtEnd] at h
    · simp [stopAt] at h
    · obtain ⟨vs', r', hvs, h⟩ := andThen_eq_ok.mp h
      cases h
      exact .item (ih.value hv) hr (ih.items hvs)
  · simp [stopAt] at h

theorem ReadsSpelled.membersAt_succ {fuel depth : Nat} (ih : ReadsSpelled fuel)
    {cs rest : List Char} {ms : List (String × Json)}
    (h : membersAt (fuel + 1) depth cs = .ok (ms, rest)) :
    Begins depth (.members ms) cs rest := by
  cases cs with
  | nil => simp [membersAt, stopAtEnd] at h
  | cons c r =>
    -- A key, a colon and a value, then the end of the object or a comma before another key.
    rw [membersAt] at h
    split at h
    · next hc =>
      subst hc
      obtain ⟨k, r₁, hk, hmember⟩ := andThen_eq_ok.mp h
      obtain ⟨raw, rfl, hraw⟩ := exists_readsString hk
      split at hmember
      · simp [stopAtEnd] at hmember
      · next hr₁ =>
        obtain ⟨v, r₃, hv, hnext⟩ := andThen_eq_ok.mp hmember
        split at hnext
        · simp [stopAtEnd] at hnext
        · next hr₃ =>
          cases hnext
          exact .lastMember hraw hr₁ (ih.value hv) hr₃
        · next hr₃ =>
          split at hnext
          · simp [stopAtEnd] at hnext
          · simp [stopAt] at hnext
          · obtain ⟨ms', r', hms, hcons⟩ := andThen_eq_ok.mp hnext
            cases hcons
            exact .member hraw hr₁ (ih.value hv) hr₃ (ih.members hms)
        · simp [stopAt] at hnext
      · simp [stopAt] at hmember
    · simp [stopAt] at h

theorem readsSpelled (fuel : Nat) : ReadsSpelled fuel := by
  induction fuel with
  | zero =>
    refine ⟨fun h => ?_, fun h => ?_, fun h => ?_⟩
    · simp [valueAt, stopAt] at h
    · simp [itemsAt, stopAt] at h
    · simp [membersAt, stopAt] at h
  | succ fuel ih => exact ⟨ih.valueAt_succ, ih.itemsAt_succ, ih.membersAt_succ⟩

/-! ### What is spelled out is read -/

section

variable {fuel depth : Nat} {cs r rest : List Char}

theorem ne_of_itemsAt {vs : List Json} (h : itemsAt fuel depth cs = .ok (vs, rest)) :
    cs ≠ [] ∧ ∀ r, cs ≠ ']' :: r := by
  cases fuel with
  | zero => simp [itemsAt, stopAt] at h
  | succ fuel =>
    obtain ⟨v, r, hv, -⟩ := andThen_eq_ok.mp (itemsAt.eq_2 .. ▸ h)
    cases fuel with
    | zero => simp [valueAt, stopAt] at hv
    | succ fuel =>
      refine ⟨?_, ?_⟩
      · rintro rfl
        simp [valueAt, stopAtEnd] at hv
      · rintro _ rfl
        simp [valueAt, stopAt, isAsciiDigit] at hv

theorem ne_of_membersAt {ms : List (String × Json)}
    (h : membersAt fuel depth cs = .ok (ms, rest)) : cs ≠ [] ∧ ∀ r, cs ≠ '}' :: r := by
  cases fuel with
  | zero => simp [membersAt, stopAt] at h
  | succ fuel =>
    refine ⟨?_, ?_⟩
    · rintro rfl
      simp [membersAt, stopAtEnd] at h
    · rintro _ rfl
      simp [membersAt, stopAt] at h

theorem valueAt_array {vs : List Json} (h : itemsAt fuel depth (skipSpace r) = .ok (vs, rest)) :
    valueAt (fuel + 1) (depth + 1) ('[' :: r) = .ok (arr vs, rest) := by
  obtain ⟨hnil, hclose⟩ := ne_of_itemsAt h
  rw [valueAt, if_neg (by decide), if_pos rfl, if_neg (Nat.succ_ne_zero _)]
  split
  · next heq => exact absurd heq hnil
  · next heq => exact absurd heq (hclose _)
  · rw [Nat.add_sub_cancel, h]
    rfl

theorem valueAt_object {ms : List (String × Json)}
    (h : membersAt fuel depth (skipSpace r) = .ok (ms, rest)) :
    valueAt (fuel + 1) (depth + 1) ('{' :: r) = .ok (obj (Members.collapse ms), rest) := by
  obtain ⟨hnil, hclose⟩ := ne_of_membersAt h
  rw [valueAt, if_neg (by decide), if_neg (by decide), if_pos rfl, if_neg (Nat.succ_ne_zero _)]
  split
  · next heq => exact absurd heq hnil
  · next heq => exact absurd heq (hclose _)
  · rw [Nat.add_sub_cancel, h]
    rfl

theorem valueAt_emptyArray (h : skipSpace r = ']' :: rest) :
    valueAt (fuel + 1) (depth + 1) ('[' :: r) = .ok (arr [], rest) := by
  rw [valueAt, if_neg (by decide), if_pos rfl, if_neg (Nat.succ_ne_zero _), h]
  rfl

theorem valueAt_emptyObject (h : skipSpace r = '}' :: rest) :
    valueAt (fuel + 1) (depth + 1) ('{' :: r) = .ok (obj [], rest) := by
  rw [valueAt, if_neg (by decide), if_neg (by decide), if_pos rfl, if_neg (Nat.succ_ne_zero _), h]
  rfl

theorem itemsAt_last {v : Json} (h : valueAt fuel depth cs = .ok (v, r))
    (hr : skipSpace r = ']' :: rest) : itemsAt (fuel + 1) depth cs = .ok ([v], rest) := by
  simp only [itemsAt, h, andThen_ok, hr]

theorem itemsAt_more {v : Json} {vs : List Json} {r' : List Char}
    (h : valueAt fuel depth cs = .ok (v, r)) (hr : skipSpace r = ',' :: r')
    (hvs : itemsAt fuel depth (skipSpace r') = .ok (vs, rest)) :
    itemsAt (fuel + 1) depth cs = .ok (v :: vs, rest) := by
  -- After a comma the reader first looks whether the array is closed.
  obtain ⟨hnil, hclose⟩ := ne_of_itemsAt hvs
  simp only [itemsAt, h, andThen_ok, hr, hvs]

theorem membersAt_last {raw k r₁ r₂ : List Char} {v : Json} (hk : ReadsString raw k)
    (hr₁ : skipSpace r₁ = ':' :: r₂) (h : valueAt fuel depth (skipSpace r₂) = .ok (v, r))
    (hr : skipSpace r = '}' :: rest) :
    membersAt (fuel + 1) depth ('"' :: (raw ++ '"' :: r₁)) =
      .ok ([(String.ofList k, v)], rest) := by
  rw [membersAt, if_pos rfl, hk.read]
  simp only [andThen_ok, hr₁, h, hr]

theorem membersAt_more {raw k r₁ r₂ r' : List Char} {v : Json} {ms : List (String × Json)}
    (hk : ReadsString raw k) (hr₁ : skipSpace r₁ = ':' :: r₂)
    (h : valueAt fuel depth (skipSpace r₂) = .ok (v, r)) (hr : skipSpace r = ',' :: r')
    (hms : membersAt fuel depth (skipSpace r') = .ok (ms, rest)) :
    membersAt (fuel + 1) depth ('"' :: (raw ++ '"' :: r₁)) =
      .ok ((String.ofList k, v) :: ms, rest) := by
  obtain ⟨hnil, hclose⟩ := ne_of_membersAt hms
  rw [membersAt, if_pos rfl, hk.read]
  simp only [andThen_ok, hr₁, h, hr, hms]

/-- A phrase is read from the beginning of a text. -/
def ReadsAt (fuel depth : Nat) (cs rest : List Char) : Phrase → Prop
  | .value v => valueAt fuel depth cs = .ok (v, rest)
  | .items vs => itemsAt fuel depth cs = .ok (vs, rest)
  | .members ms => membersAt fuel depth cs = .ok (ms, rest)

/-- A phrase is read from every text in which its tokens stand first, with fuel for each token. -/
def ReadFirst (depth : Nat) (ts : List Token) (phrase : Phrase) : Prop :=
  ∀ {fuel ts' cs}, ts.length ≤ fuel → Laid (ts ++ ts') cs →
    ∃ rest, ReadsAt fuel depth (skipSpace cs) rest phrase ∧ Laid ts' rest

section

variable {ts ts₂ : List Token} {raw k : List Char} {v : Json}

/-- The key of a member, and the colon. -/
theorem Laid.eq_key (h : Laid (.literal raw :: .punct ':' :: ts) cs) :
    ∃ r₁ r₂, Json.skipSpace cs = '"' :: (raw ++ '"' :: r₁) ∧ Json.skipSpace r₁ = ':' :: r₂ ∧
      Laid ts r₂ := by
  obtain ⟨r₁, hcs, -, h⟩ := h.eq_literal
  obtain ⟨r₂, hr₁, h⟩ := h.eq_punct
  exact ⟨r₁, r₂, hcs, hr₁, h⟩

theorem ReadFirst.lastItem (hv : ReadFirst depth ts (.value v)) :
    ReadFirst depth (ts ++ [.punct ']']) (.items [v]) := by
  rintro (_ | fuel) ts' cs hfuel hl
  · simp at hfuel
  rw [List.append_assoc] at hl
  have hts : ts.length ≤ fuel := by simpa using hfuel
  obtain ⟨r, hread, hl⟩ := hv hts hl
  obtain ⟨rest, hr, hl⟩ := Laid.eq_punct hl
  exact ⟨rest, itemsAt_last hread hr, hl⟩

theorem ReadFirst.item {vs : List Json} (hv : ReadFirst depth ts (.value v))
    (hvs : ReadFirst depth ts₂ (.items vs)) :
    ReadFirst depth (ts ++ .punct ',' :: ts₂) (.items (v :: vs)) := by
  rintro (_ | fuel) ts' cs hfuel hl
  · simp at hfuel
  rw [List.append_assoc] at hl
  simp only [List.length_append, List.length_cons] at hfuel
  have hts : ts.length ≤ fuel := by omega
  have hts₂ : ts₂.length ≤ fuel := by omega
  obtain ⟨r, hread, hl⟩ := hv hts hl
  obtain ⟨r', hr, hl⟩ := Laid.eq_punct hl
  obtain ⟨rest, hreads, hl⟩ := hvs hts₂ hl
  exact ⟨rest, itemsAt_more hread hr hreads, hl⟩

theorem ReadFirst.lastMember (hk : ReadsString raw k) (hv : ReadFirst depth ts (.value v)) :
    ReadFirst depth (.literal raw :: .punct ':' :: (ts ++ [.punct '}']))
      (.members [(String.ofList k, v)]) := by
  rintro (_ | fuel) ts' cs hfuel hl
  · simp at hfuel
  rw [List.cons_append, List.cons_append, List.append_assoc] at hl
  simp only [List.length_append, List.length_cons] at hfuel
  have hts : ts.length ≤ fuel := by omega
  obtain ⟨r₁, r₂, hcs, hr₁, hl⟩ := Laid.eq_key hl
  obtain ⟨r, hread, hl⟩ := hv hts hl
  obtain ⟨rest, hr, hl⟩ := Laid.eq_punct hl
  exact ⟨rest, hcs ▸ membersAt_last hk hr₁ hread hr, hl⟩

theorem ReadFirst.member {ms : List (String × Json)} (hk : ReadsString raw k)
    (hv : ReadFirst depth ts (.value v)) (hms : ReadFirst depth ts₂ (.members ms)) :
    ReadFirst depth (.literal raw :: .punct ':' :: (ts ++ .punct ',' :: ts₂))
      (.members ((String.ofList k, v) :: ms)) := by
  rintro (_ | fuel) ts' cs hfuel hl
  · simp at hfuel
  rw [List.cons_append, List.cons_append, List.append_assoc] at hl
  simp only [List.length_append, List.length_cons] at hfuel
  have hts : ts.length ≤ fuel := by omega
  have hts₂ : ts₂.length ≤ fuel := by omega
  obtain ⟨r₁, r₂, hcs, hr₁, hl⟩ := Laid.eq_key hl
  obtain ⟨r, hread, hl⟩ := hv hts hl
  obtain ⟨r', hr, hl⟩ := Laid.eq_punct hl
  obtain ⟨rest, hreads, hl⟩ := hms hts₂ hl
  exact ⟨rest, hcs ▸ membersAt_more hk hr₁ hread hr hreads, hl⟩

end

/-- **What tokens say is read from every text in which they stand first.** -/
theorem Spells.readFirst {ts : List Token} {phrase : Phrase} (h : Spells depth ts phrase) :
    ReadFirst depth ts phrase := by
  -- The fuel is at least the number of tokens. A phrase has a token, so some fuel is left to it.
  induction h with
  | string hs =>
    rintro (_ | fuel) ts' cs hfuel hl
    · simp at hfuel
    obtain ⟨r, hcs, -, hl⟩ := Laid.eq_literal hl
    refine ⟨r, ?_, hl⟩
    rw [hcs, ReadsAt, valueAt, if_pos rfl, hs.read]
    rfl
  | scalar hw =>
    rintro (_ | fuel) ts' cs hfuel hl
    · simp at hfuel
    obtain ⟨r, hcs, -, hb, hl⟩ := Laid.eq_scalar hl
    exact ⟨r, hcs ▸ hw.valueAt hb, hl⟩
  | emptyArray =>
    rintro (_ | fuel) ts' cs hfuel hl
    · simp at hfuel
    obtain ⟨r, hcs, hl⟩ := Laid.eq_punct hl
    obtain ⟨rest, hr, hl⟩ := Laid.eq_punct hl
    exact ⟨rest, hcs ▸ valueAt_emptyArray hr, hl⟩
  | emptyObject =>
    rintro (_ | fuel) ts' cs hfuel hl
    · simp at hfuel
    obtain ⟨r, hcs, hl⟩ := Laid.eq_punct hl
    obtain ⟨rest, hr, hl⟩ := Laid.eq_punct hl
    exact ⟨rest, hcs ▸ valueAt_emptyObject hr, hl⟩
  | array _ ih =>
    rintro (_ | fuel) ts' cs hfuel hl
    · simp at hfuel
    obtain ⟨r, hcs, hl⟩ := Laid.eq_punct hl
    obtain ⟨rest, hread, hl⟩ := ih (Nat.le_of_succ_le_succ hfuel) hl
    exact ⟨rest, hcs ▸ valueAt_array hread, hl⟩
  | object _ ih =>
    rintro (_ | fuel) ts' cs hfuel hl
    · simp at hfuel
    obtain ⟨r, hcs, hl⟩ := Laid.eq_punct hl
    obtain ⟨rest, hread, hl⟩ := ih (Nat.le_of_succ_le_succ hfuel) hl
    exact ⟨rest, hcs ▸ valueAt_object hread, hl⟩
  | lastItem _ ih => exact ih.lastItem
  | item _ _ ih ihs => exact ih.item ihs
  | lastMember hk _ ih => exact ReadFirst.lastMember hk ih
  | member hk _ _ ih ihs => exact ReadFirst.member hk ih ihs

end

/-! ### Documents -/

/-- **A text is a document when its tokens spell a value**, and then it says that value. -/
theorem document_eq_ok {cs : List Char} {v : Json} :
    document cs = .ok v ↔ ∃ ts, Spells depthLimit ts (.value v) ∧ Laid ts cs := by
  constructor
  · intro h
    unfold document at h
    split at h
    · cases h
    · next v' rest hread =>
      split at h
      · next hrest =>
        cases h
        obtain ⟨ts, hts, hlaid⟩ := (readsSpelled _).value hread
        have hl := hlaid [] (.of_skipSpace (hrest ▸ .done)) (atBoundary_of_skipSpace_nil hrest)
        exact ⟨ts, hts, .of_skipSpace (List.append_nil ts ▸ hl)⟩
      · cases h
  · rintro ⟨ts, hts, hl⟩
    -- No text has more tokens than characters, so the fuel of a document is enough.
    have hfuel : ts.length ≤ 2 * cs.length + 2 := by
      have := hl.length_le
      omega
    obtain ⟨rest, hread, hrest⟩ := hts.readFirst hfuel ((List.append_nil ts).symm ▸ hl)
    rw [ReadsAt] at hread
    simp only [document, hread, hrest.eq_nil]

theorem parse_eq_ok {s : String} {v : Json} :
    parse s = .ok v ↔ ∃ ts, Spells depthLimit ts (.value v) ∧ Laid ts s.toList := by
  rw [← document_eq_ok, parse]
  cases document s.toList <;> simp

/-! ### Commas -/

/-- Whether a character closes an array or an object. -/
def isCloser (c : Char) : Bool :=
  c == ']' || c == '}'

/-- Whether a token is not a closing bracket. -/
def Token.staysOpen : Token → Bool
  | .punct c => !isCloser c
  | _ => true

/-- No closing bracket stands right after a comma. -/
def NoTrailingComma (ts : List Token) : Prop :=
  ts.IsChain fun t t' => t = .punct ',' → t'.staysOpen = true

theorem NoTrailingComma.cons {t : Token} {ts : List Token} (ht : t ≠ .punct ',')
    (h : NoTrailingComma ts) : NoTrailingComma (t :: ts) :=
  List.isChain_cons.mpr ⟨fun _ _ hcomma => absurd hcomma ht, h⟩

theorem NoTrailingComma.comma {ts : List Token} (ht : ∀ t ∈ ts.head?, t.staysOpen = true)
    (h : NoTrailingComma ts) : NoTrailingComma (.punct ',' :: ts) :=
  List.isChain_cons.mpr ⟨fun t hmem _ => ht t hmem, h⟩

/-- The tokens of a phrase begin with no closing bracket and bring no trailing comma. -/
theorem Spells.noTrailingComma_append {d : Nat} {ts : List Token} {phrase : Phrase}
    (h : Spells d ts phrase) : ∀ {ts'}, NoTrailingComma ts' →
      NoTrailingComma (ts ++ ts') ∧ ∀ t ∈ (ts ++ ts').head?, t.staysOpen = true := by
  induction h with
  | string _ | scalar _ => exact fun h => ⟨h.cons (by simp), by simp [Token.staysOpen]⟩
  | emptyArray | emptyObject =>
    exact fun h => ⟨(h.cons (by simp)).cons (by simp), by simp [Token.staysOpen]; decide⟩
  | array _ ih | object _ ih =>
    exact fun h => ⟨(ih h).1.cons (by simp), by simp [Token.staysOpen]; decide⟩
  | lastItem _ ih =>
    intro ts' h
    rw [List.append_assoc]
    exact ih (h.cons (by simp))
  | item _ _ ih ihs =>
    intro ts' h
    rw [List.append_assoc]
    -- What follows the comma does not begin with a closing token.
    exact ih ((ihs h).1.comma (ihs h).2)
  | lastMember _ _ ih =>
    intro ts' h
    rw [List.cons_append, List.cons_append, List.append_assoc]
    exact ⟨((ih (h.cons (by simp))).1.cons (by simp)).cons (by simp), by simp [Token.staysOpen]⟩
  | member _ _ _ ih ihs =>
    intro ts' h
    rw [List.cons_append, List.cons_append, List.append_assoc]
    exact ⟨((ih ((ihs h).1.comma (ihs h).2)).1.cons (by simp)).cons (by simp),
      by simp [Token.staysOpen]⟩

/-- **No comma of a document is trailing.** -/
theorem Spells.noTrailingComma {d : Nat} {ts : List Token} {phrase : Phrase}
    (h : Spells d ts phrase) : NoTrailingComma ts :=
  List.append_nil ts ▸ (h.noTrailingComma_append .nil).1

end Json

end ExtractionContract
