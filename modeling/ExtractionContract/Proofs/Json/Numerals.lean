import ExtractionContract.Proofs.Json.Tokens

/-!
# Numbers are read up to their boundary

What the reader takes for a number depends on nothing that stands after it, so long as no
character of numbers and words comes next. Each part of the number reader is shown to have
`Taken` a run of characters, which it would have read as the same before any other boundary.

* `Taken.number`: a number that has been read is a numeral of its own.
-/

namespace ExtractionContract

namespace Json

open Text Decimal

/-- A part of the reader reads some characters as `a` before every boundary. -/
def ReadsAs {α : Type} (read : List Char → Step α) (w : List Char) (a : α) : Prop :=
  ∀ rest, atBoundary rest = true → read (w ++ rest) = .ok (a, rest)

/-- A part of the reader has taken characters of numbers and words from the beginning of a
text, and reads them as `a` before every boundary. -/
def Taken {α : Type} (read : List Char → Step α) (cs : List Char) (a : α) (rest : List Char) :
    Prop :=
  ∃ w, cs = w ++ rest ∧ (∀ c ∈ w, isScalarChar c = true) ∧ ReadsAs read w a

/-! ### Digits -/

/-- Whether a text begins with a digit. -/
def startsWithDigit : List Char → Bool
  | [] => false
  | c :: _ => isAsciiDigit c

theorem isScalarChar_of_isAsciiDigit {c : Char} (h : isAsciiDigit c = true) :
    isScalarChar c = true := by
  simp only [isAsciiDigit, Bool.and_eq_true, decide_eq_true_eq] at h
  have : c.isDigit = true := by simp [Char.isDigit]; exact h
  simp [isScalarChar, Char.isAlphanum, this]

theorem startsWithDigit_of_atBoundary {cs : List Char} (h : atBoundary cs = true) :
    startsWithDigit cs = false := by
  cases cs with
  | nil => rfl
  | cons c r =>
    rw [startsWithDigit, ← Bool.not_eq_true]
    intro hc
    simp [atBoundary, isScalarChar_of_isAsciiDigit hc] at h

/-- The digits of a text are split off where they end. -/
theorem digits_spec (cs : List Char) :
    cs = (digits cs).1 ++ (digits cs).2 ∧ (∀ c ∈ (digits cs).1, isAsciiDigit c = true) ∧
      startsWithDigit (digits cs).2 = false := by
  induction cs with
  | nil => simp [digits, startsWithDigit]
  | cons c r ih =>
    by_cases hc : isAsciiDigit c = true
    · simp only [digits, hc, if_true]
      refine ⟨?_, ?_, ih.2.2⟩
      · rw [List.cons_append, ← ih.1]
      · exact List.forall_mem_cons.mpr ⟨hc, ih.2.1⟩
    · simp [digits, hc, startsWithDigit]

theorem digits_append {ds rest : List Char} (hds : ∀ c ∈ ds, isAsciiDigit c = true)
    (hrest : startsWithDigit rest = false) : digits (ds ++ rest) = (ds, rest) := by
  induction ds with
  | nil =>
    cases rest with
    | nil => rfl
    | cons c r =>
      rw [startsWithDigit] at hrest
      simp [digits, hrest]
  | cons d ds ih =>
    obtain ⟨hd, hds⟩ := List.forall_mem_cons.mp hds
    simp [digits, hd, ih hds]

/-- Where a text splits neither into nothing nor before its first character, it has digits. -/
theorem ne_nil_of_split {ds rest : List Char} (hnil : ds = [] → rest = [] → False)
    (hcons : ∀ c r, ds = [] → rest = c :: r → False) : ds ≠ [] := by
  rintro rfl
  cases rest with
  | nil => exact hnil rfl rfl
  | cons c r => exact hcons c r rfl rfl

/-- A sign is split off where it ends. -/
theorem sign_spec (cs : List Char) :
    ∃ sg, cs = sg ++ (sign cs).2 ∧ (∀ c ∈ sg, isScalarChar c = true) ∧
      ∀ body, startsWithDigit body = true → sign (sg ++ body) = ((sign cs).1, body) := by
  unfold sign
  split
  · exact ⟨['-'], rfl, by simp; decide, fun body _ => rfl⟩
  · exact ⟨['+'], rfl, by simp; decide, fun body _ => rfl⟩
  · refine ⟨[], rfl, List.forall_mem_nil _, fun body hbody => ?_⟩
    rw [List.nil_append]
    split
    · simp [startsWithDigit, isAsciiDigit] at hbody
    · simp [startsWithDigit, isAsciiDigit] at hbody
    · rfl

/-! ### What the parts of a number amount to -/

section

variable {negative : Bool} {s : Scaled} {ds cs rest : List Char} {n : Number}

/-- The real number that scaled digits make, unless it is too large. -/
def realNumber? (negative : Bool) (s : Scaled) : Option Number :=
  s.magnitude?.map (realOf negative)

/-- The number that whole digits make by themselves, unless it is too large. -/
def wholeNumber? (negative : Bool) (ds : List Char) : Option Number :=
  if wordLimit < value ds then realNumber? negative (Scaled.ofDigits ds [])
  else if negative then
    if value ds = 0 || twoTo 63 < value ds then
      some (realOf true (Binary64.roundRatio (value ds) 1))
    else some (.int (-value ds))
  else some (.int (value ds))

/-- The number that scaled digits and the digits of an exponent make, unless it is too large. -/
def exponentNumber? (negative : Bool) (s : Scaled) (down : Bool) (ds : List Char) :
    Option Number :=
  match afterOverflow 0 ds with
  | some _ => if s.significand = 0 || down then some (realOf negative 0) else none
  | none =>
    let e : Int := value ds
    realNumber? negative ⟨s.significand, if down then s.exponent - e else s.exponent + e⟩

theorem realStep_eq_ok :
    realStep negative s cs = .ok (n, rest) ↔ realNumber? negative s = some n ∧ cs = rest := by
  unfold realStep realNumber?
  cases s.magnitude? <;> simp

theorem wholeStep_eq_ok :
    wholeStep negative ds cs = .ok (n, rest) ↔ wholeNumber? negative ds = some n ∧ cs = rest := by
  simp only [wholeStep, wholeNumber?]
  split
  · exact realStep_eq_ok
  · split
    · split <;> simp
    · simp

theorem exponentStep_eq_ok :
    exponentStep negative s cs = .ok (n, rest) ↔
      ∃ ds, digits (sign cs).2 = (ds, rest) ∧ ds ≠ [] ∧
        exponentNumber? negative s (sign cs).1 ds = some n := by
  simp only [exponentStep]
  split
  · next h => simp [stopAtEnd, h]
  · next h => simp [stopAt, h]
  · next ds r hnil hcons h =>
    have hne : ds ≠ [] := ne_nil_of_split hnil hcons
    -- An exponent past the limit makes zero or a fault, any other one is taken as it is.
    refine Iff.trans (b := exponentNumber? negative s (sign cs).1 ds = some n ∧ r = rest) ?_ ?_
    · unfold exponentNumber?
      cases afterOverflow 0 ds with
      | none => exact realStep_eq_ok
      | some left =>
        dsimp only
        split <;> simp
    · rw [h]
      constructor
      · rintro ⟨hn, rfl⟩
        exact ⟨ds, rfl, hne, hn⟩
      · rintro ⟨ds', heq, -, hn⟩
        cases heq
        exact ⟨hn, rfl⟩

/-- A number or a word ends before no exponent. -/
theorem numberTail_of_atBoundary (h : atBoundary cs = true) :
    numberTail negative s cs = realStep negative s cs := by
  unfold numberTail
  split
  · exact absurd h (by simp [atBoundary]; decide)
  · exact absurd h (by simp [atBoundary]; decide)
  · rfl

theorem afterWhole_of_atBoundary (h : atBoundary cs = true) :
    afterWhole negative ds cs = wholeStep negative ds cs := by
  unfold afterWhole
  split
  · exact absurd h (by simp [atBoundary]; decide)
  · exact absurd h (by simp [atBoundary]; decide)
  · exact absurd h (by simp [atBoundary]; decide)
  · rfl

/-! ### Reading up to the boundary -/

theorem Taken.realStep (h : realStep negative s cs = .ok (n, rest)) :
    Taken (numberTail negative s) cs n rest := by
  obtain ⟨hn, rfl⟩ := realStep_eq_ok.mp h
  refine ⟨[], rfl, List.forall_mem_nil _, fun r hr => ?_⟩
  rw [List.nil_append, numberTail_of_atBoundary hr, realStep_eq_ok]
  exact ⟨hn, rfl⟩

theorem Taken.wholeStep (h : wholeStep negative ds cs = .ok (n, rest)) :
    Taken (afterWhole negative ds) cs n rest := by
  obtain ⟨hn, rfl⟩ := wholeStep_eq_ok.mp h
  refine ⟨[], rfl, List.forall_mem_nil _, fun r hr => ?_⟩
  rw [List.nil_append, afterWhole_of_atBoundary hr, wholeStep_eq_ok]
  exact ⟨hn, rfl⟩

theorem Taken.exponentStep (h : exponentStep negative s cs = .ok (n, rest)) :
    Taken (exponentStep negative s) cs n rest := by
  obtain ⟨sg, hcs, hsg, hsign⟩ := sign_spec cs
  obtain ⟨ds, hread, hne, hn⟩ := exponentStep_eq_ok.mp h
  obtain ⟨hbody, hds, -⟩ := digits_spec (sign cs).2
  rw [hread] at hbody hds
  refine ⟨sg ++ ds, ?_, ?_, fun r hr => ?_⟩
  · rw [List.append_assoc, ← hbody, ← hcs]
  · exact List.forall_mem_append.mpr ⟨hsg, fun c hc => isScalarChar_of_isAsciiDigit (hds c hc)⟩
  · obtain ⟨d, ds', rfl⟩ := List.exists_cons_of_ne_nil hne
    have hdigit : startsWithDigit (d :: ds' ++ r) = true := hds d List.mem_cons_self
    rw [List.append_assoc, exponentStep_eq_ok, hsign _ hdigit]
    exact ⟨_, digits_append hds (startsWithDigit_of_atBoundary hr), hne, hn⟩

/-- Characters that a part of the reader passes before it goes on. -/
theorem Taken.prepend {read read' : List Char → Step Number} {w : List Char}
    (h : Taken read cs n rest) (hw : ∀ c ∈ w, isScalarChar c = true)
    (heq : ∀ cs', startsWithDigit cs' = startsWithDigit cs ∨ startsWithDigit cs' = false →
      read' (w ++ cs') = read cs') :
    Taken read' (w ++ cs) n rest := by
  obtain ⟨w', rfl, hw', hread⟩ := h
  refine ⟨w ++ w', (List.append_assoc ..).symm, List.forall_mem_append.mpr ⟨hw, hw'⟩,
    fun r hr => ?_⟩
  rw [List.append_assoc, heq, hread r hr]
  -- What was taken begins as the text did, unless nothing was taken.
  cases w' with
  | nil => exact .inr (startsWithDigit_of_atBoundary hr)
  | cons c w' => exact .inl rfl

theorem Taken.numberTail (h : numberTail negative s cs = .ok (n, rest)) :
    Taken (numberTail negative s) cs n rest := by
  unfold Json.numberTail at h
  split at h
  · exact (Taken.exponentStep h).prepend (w := ['e']) (List.all_eq_true.mp rfl) fun _ _ => rfl
  · exact (Taken.exponentStep h).prepend (w := ['E']) (List.all_eq_true.mp rfl) fun _ _ => rfl
  · exact Taken.realStep h

theorem afterWhole_point {fs : List Char} (hfs : ∀ c ∈ fs, isAsciiDigit c = true)
    (hne : fs ≠ []) (hcs : startsWithDigit cs = false) :
    afterWhole negative ds ('.' :: (fs ++ cs)) =
      Json.numberTail negative (Scaled.ofDigits ds fs) cs := by
  obtain ⟨d, fs, rfl⟩ := List.exists_cons_of_ne_nil hne
  simp only [afterWhole, digits_append hfs hcs]

theorem Taken.afterWhole (h : afterWhole negative ds cs = .ok (n, rest)) :
    Taken (afterWhole negative ds) cs n rest := by
  unfold Json.afterWhole at h
  split at h
  · next r =>
    obtain ⟨hr, hfs, hend⟩ := digits_spec r
    split at h
    · simp [stopAtEnd] at h
    · simp [stopAt] at h
    · next fs tail hnil hcons hread =>
      rw [hread] at hr hfs hend
      have hne : fs ≠ [] := ne_nil_of_split hnil hcons
      rw [hr]
      refine (Taken.numberTail h).prepend (w := '.' :: fs) ?_ fun cs' hcs' => ?_
      · exact List.forall_mem_cons.mpr
          ⟨by decide, fun c hc => isScalarChar_of_isAsciiDigit (hfs c hc)⟩
      · exact afterWhole_point hfs hne (hcs'.elim (·.trans hend) id)
  · exact (Taken.exponentStep h).prepend (w := ['e']) (List.all_eq_true.mp rfl) fun _ _ => rfl
  · exact (Taken.exponentStep h).prepend (w := ['E']) (List.all_eq_true.mp rfl) fun _ _ => rfl
  · exact Taken.wholeStep h

theorem unsignedNumber_append (hds : ∀ c ∈ ds, isAsciiDigit c = true) (hne : ds ≠ [])
    (hzero : ∀ d ds', ds ≠ '0' :: d :: ds') (hcs : startsWithDigit cs = false) :
    unsignedNumber negative (ds ++ cs) = Json.afterWhole negative ds cs := by
  simp only [unsignedNumber, digits_append hds hcs]
  split
  · next heq => exact absurd (congrArg Prod.fst heq) hne
  · next heq => exact absurd (congrArg Prod.fst heq) hne
  · next heq => exact absurd (congrArg Prod.fst heq) (hzero _ _)
  · next heq => cases heq; rfl

theorem Taken.unsignedNumber (h : unsignedNumber negative cs = .ok (n, rest)) :
    Taken (unsignedNumber negative) cs n rest := by
  obtain ⟨hcs, hds, hend⟩ := digits_spec cs
  unfold Json.unsignedNumber at h
  split at h
  · simp [stopAtEnd] at h
  · simp [stopAt] at h
  · simp [stopAt] at h
  · next ds tail hnil hcons hzero hread =>
    rw [hread] at hcs hds hend
    have hne : ds ≠ [] := ne_nil_of_split hnil hcons
    rw [hcs]
    exact (Taken.afterWhole h).prepend (fun c hc => isScalarChar_of_isAsciiDigit (hds c hc))
      fun cs' hcs' => unsignedNumber_append hds hne hzero (hcs'.elim (·.trans hend) id)

/-- **A number that has been read is a numeral of its own**: it is read as the same number
before whatever ends it. -/
theorem Taken.number (h : number cs = .ok (n, rest)) : Taken number cs n rest := by
  unfold Json.number at h
  split at h
  · exact (Taken.unsignedNumber h).prepend (w := ['-']) (List.all_eq_true.mp rfl) fun _ _ => rfl
  · next hminus =>
    obtain ⟨w, rfl, hw, hread⟩ := Taken.unsignedNumber h
    refine ⟨w, rfl, hw, fun r hr => ?_⟩
    cases w with
    | nil => exact absurd (hread [] rfl) (by simp [Json.unsignedNumber, digits, stopAtEnd])
    | cons c w =>
      rw [← hread r hr, Json.number]
      intro r' hr'
      cases hr'
      exact hminus _ rfl

/-- A numeral begins with a minus or a digit. -/
theorem exists_cons_of_number (h : number cs = .ok (n, rest)) :
    ∃ c r, cs = c :: r ∧ (c == '-' || isAsciiDigit c) = true := by
  unfold number at h
  split at h
  · exact ⟨_, _, rfl, rfl⟩
  · cases cs with
    | nil => simp [unsignedNumber, digits, stopAtEnd] at h
    | cons c r =>
      refine ⟨c, r, rfl, ?_⟩
      cases hc : isAsciiDigit c with
      | true => simp
      | false => simp [unsignedNumber, digits, hc, stopAt] at h

end

end Json

end ExtractionContract
