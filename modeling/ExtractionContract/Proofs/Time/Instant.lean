import ExtractionContract.Proofs.Json.NumberText
import ExtractionContract.Proofs.Time.Calendar

/-!
# Instants are read back

The text of an instant is read as the instant. Each part of the text is read by its part of the
reader, which leaves what stands after it: numbers are padded to a fixed number of digits, or end
before a mark, and the fraction of a second has as many digits as it needs. The seconds of a leap
second are written as sixty and read as the last of the minute.

* `Instant.Shown`: the instants that a clock can show.
* `Instant.parse_text`: these are read back.
-/

namespace ExtractionContract

namespace Instant

open Text Decimal
open Json (startsWithDigit)

variable {α β : Type} {cs rest : List Char}

/-- What has been read is handed on. -/
theorem bind_of_read {read : Reading α} {a : α} (next : α → Reading β)
    (h : read cs = .ok (a, rest)) : (read >>= next) cs = next a rest := by
  change (read cs >>= fun p => next p.1 p.2) = _
  rw [h]
  rfl

theorem run'_of_read {read : Reading α} {a : α} (h : read cs = .ok (a, rest)) :
    read.run' cs = .ok a := by
  rw [StateT.run', h]
  rfl

/-! ### Padded numbers -/

theorem allDigits_padded (width n : Nat) : AllDigits (padded width n) :=
  (allDigits_replicate _).append (allDigits_toDigits n)

theorem numberOf_padded (width n : Nat) : numberOf (padded width n) = n := by
  change value (List.replicate _ '0' ++ Nat.toDigits 10 n) = n
  rw [value_append, value_replicate, value_toDigits, Nat.mul_zero, Nat.zero_add]

theorem length_padded {width n : Nat} (hwidth : 0 < width) (hn : n < 10 ^ width) :
    (padded width n).length = width := by
  have hle : (Nat.toDigits 10 n).length ≤ width :=
    (Nat.length_toDigits_le_iff (by decide) hwidth).mpr hn
  rw [padded, List.length_append, List.length_replicate, Nat.sub_add_cancel hle]

theorem padded_ne_nil (width n : Nat) : padded width n ≠ [] := by
  have h : Nat.toDigits 10 n ≠ [] := Nat.toDigits_ne_nil
  exact List.append_ne_nil_of_right_ne_nil _ h

/-- Digits are split off where there are as many as are read, or where they end. -/
theorem digitsUpTo_append {most : Nat} {ds : List Char} (hds : AllDigits ds)
    (hlength : ds.length ≤ most)
    (hend : ds.length = most ∨ startsWithDigit rest = false) :
    digitsUpTo most (ds ++ rest) = (ds, rest) := by
  induction ds generalizing most with
  | nil =>
    cases most with
    | zero => rfl
    | succ most =>
      -- More digits would be read, so none may stand here.
      have hrest : startsWithDigit rest = false := hend.resolve_left (by simp)
      cases rest with
      | nil => rfl
      | cons c r =>
        rw [startsWithDigit] at hrest
        simp [digitsUpTo, hrest]
  | cons d ds ih =>
    obtain ⟨hd, hds⟩ := List.forall_mem_cons.mp hds
    cases most with
    | zero => simp at hlength
    | succ most =>
      have hread := ih hds (Nat.le_of_succ_le_succ hlength) (hend.imp_left Nat.succ.inj)
      simp [digitsUpTo, hd, hread]

theorem isBlank_of_isAsciiDigit {c : Char} (h : isAsciiDigit c = true) : isBlank c = false := by
  simp only [isAsciiDigit, Bool.and_eq_true, decide_eq_true_eq, Char.le_def,
    UInt32.le_iff_toNat_le] at h
  have hge : 48 ≤ c.toNat := h.1
  have hle : c.toNat ≤ 57 := h.2
  simp [isBlank]
  omega

theorem skipBlanks_cons {c : Char} (h : isBlank c = false) :
    skipBlanks (c :: rest) = .ok ((), c :: rest) := by
  change Except.ok ((), trimStart (c :: rest)) = _
  rw [trimStart, List.dropWhile_cons, h]
  rfl

theorem startsWithDigit_padded (width n : Nat) (rest : List Char) :
    startsWithDigit (padded width n ++ rest) = true := by
  have hdigits := allDigits_padded width n
  obtain ⟨d, ds, hcons⟩ := List.exists_cons_of_ne_nil (padded_ne_nil width n)
  rw [hcons] at hdigits ⊢
  exact hdigits d List.mem_cons_self

theorem skipBlanks_of_startsWithDigit (h : startsWithDigit cs = true) :
    skipBlanks cs = .ok ((), cs) := by
  cases cs with
  | nil => cases h
  | cons c r => exact skipBlanks_cons (isBlank_of_isAsciiDigit h)

/-- A padded number is read up to its end. -/
theorem readNumber_padded {most width n : Nat} (hn : n < twoTo 63)
    (hlength : (padded width n).length ≤ most)
    (hend : (padded width n).length = most ∨ startsWithDigit rest = false) :
    readNumber most (padded width n ++ rest) = .ok (n, rest) := by
  have hdigits := digitsUpTo_append (allDigits_padded width n) hlength hend
  have hvalue := numberOf_padded width n
  obtain ⟨d, ds, hcons⟩ := List.exists_cons_of_ne_nil (padded_ne_nil width n)
  rw [hcons] at hdigits hvalue ⊢
  unfold readNumber
  simp only [List.cons_append] at hdigits ⊢
  rw [hdigits]
  simp only [hvalue, Nat.not_le.mpr hn, if_false]

/-! ### The parts of the text -/

theorem readBetween_padded {low high n : Nat} (hlow : low ≤ n) (hhigh : n ≤ high) (hn : n < 100) :
    readBetween low high (padded 2 n ++ rest) = .ok (n, rest) := by
  have hlength : (padded 2 n).length = 2 := length_padded (by decide) hn
  have hsmall : n < twoTo 63 := hn.trans (by decide)
  rw [readBetween, bind_of_read _ (skipBlanks_of_startsWithDigit (startsWithDigit_padded 2 n rest)),
    bind_of_read _ (readNumber_padded hsmall hlength.le (.inl hlength))]
  simp only [hlow, hhigh, decide_true, Bool.and_self, if_true]
  rfl

theorem readMark_cons {mark : Char} (h : isBlank mark = false) :
    readMark mark (mark :: rest) = .ok ((), rest) := by
  rw [readMark, bind_of_read _ (skipBlanks_cons h), readMarkOf, beq_self_eq_true, if_pos rfl]

theorem readSignedYear_of_startsWithDigit (h : startsWithDigit cs = true) :
    readSignedYear cs = (readNumber 4 cs).map fun p => ((p.1 : Int), p.2) := by
  unfold readSignedYear
  split
  · exact absurd h Bool.false_ne_true
  · exact absurd h Bool.false_ne_true
  · rfl

theorem skipBlanks_yearChars (y : Int) :
    skipBlanks (yearChars y ++ rest) = .ok ((), yearChars y ++ rest) := by
  unfold yearChars
  split
  · exact skipBlanks_of_startsWithDigit (startsWithDigit_padded _ _ _)
  · split <;> exact skipBlanks_cons (by decide)

/-- A year is read up to the mark after it. Where it has a sign, this mark ends its digits. -/
theorem readSignedYear_yearChars {y : Int} (hy : y.natAbs < twoTo 63) :
    readSignedYear (yearChars y ++ '-' :: rest) = .ok (y, '-' :: rest) := by
  unfold yearChars
  split
  · next hshort =>
    obtain ⟨hge, hle⟩ : 0 ≤ y ∧ y ≤ 9999 := by simpa using hshort
    have hlength : (padded 4 y.toNat).length = 4 := length_padded (by decide) (by omega)
    rw [readSignedYear_of_startsWithDigit (startsWithDigit_padded _ _ _),
      readNumber_padded (by omega) hlength.le (.inl hlength)]
    exact congrArg (fun n => Except.ok (n, '-' :: rest)) (Int.toNat_of_nonneg hge)
  · -- After a sign any number of digits may stand: as many as the text has characters.
    obtain ⟨body, hbody⟩ : ∃ body, padded 4 y.natAbs ++ '-' :: rest = body := ⟨_, rfl⟩
    have hlength : (padded 4 y.natAbs).length ≤ body.length := by
      rw [← hbody, List.length_append]
      exact Nat.le_add_right _ _
    have hread := readNumber_padded hy hlength
      (.inr (show startsWithDigit ('-' :: rest) = false from rfl))
    rw [hbody] at hread
    have hsigned : ∀ sign : Nat → Int, sign y.natAbs = y →
        (readNumber body.length body).map (fun p => (sign p.1, p.2)) = .ok (y, '-' :: rest) := by
      intro sign hsign
      rw [hread, Except.map, hsign]
    rw [List.cons_append, hbody]
    split
    · exact hsigned (fun n => -(n : Int)) (by omega)
    · exact hsigned (fun n => (n : Int)) (by omega)

theorem readYear_yearChars {y : Int} (hge : firstYear ≤ y) (hle : y ≤ lastYear) :
    readYear (yearChars y ++ '-' :: rest) = .ok (y, '-' :: rest) := by
  have hge : -262143 ≤ y := hge
  have hle : y ≤ 262142 := hle
  have hsmall : y.natAbs < twoTo 63 := by
    have : twoTo 63 = 2 ^ 63 := rfl
    omega
  have hbounds : (decide (-(twoTo 31) ≤ y) && decide (y < twoTo 31)) = true := by
    have : (twoTo 31 : Int) = 2 ^ 31 := rfl
    simp
    omega
  rw [readYear, bind_of_read _ (skipBlanks_yearChars y),
    bind_of_read _ (readSignedYear_yearChars hsmall), if_pos hbounds]
  rfl

/-- The digits after the point, before the mark of universal time. -/
theorem readFraction_digits {ds : List Char} (hds : AllDigits ds) (hne : ds ≠ [])
    (hlength : ds.length ≤ 9) :
    readFraction ('.' :: (ds ++ ['Z'])) = .ok (numberOf ds * tenTo (9 - ds.length), ['Z']) := by
  have hdigits : digitsUpTo 9 (ds ++ ['Z']) = (ds, ['Z']) :=
    digitsUpTo_append hds hlength (.inr rfl)
  obtain ⟨d, ds, rfl⟩ := List.exists_cons_of_ne_nil hne
  simp only [readFraction, List.cons_append] at hdigits ⊢
  rw [hdigits]
  rfl

/-- A fraction of a second, in as many digits as show all of it. -/
theorem readFraction_padded {width n nano : Nat} (hwidth : 0 < width) (hle : width ≤ 9)
    (hn : n < 10 ^ width) (hnano : n * 10 ^ (9 - width) = nano) :
    readFraction ('.' :: (padded width n ++ ['Z'])) = .ok (nano, ['Z']) := by
  have hlength : (padded width n).length = width := length_padded hwidth hn
  have hpower : tenTo (9 - width) = 10 ^ (9 - width) := rfl
  rw [readFraction_digits (allDigits_padded width n) (padded_ne_nil width n)
    (hlength.le.trans hle), numberOf_padded, hlength, hpower, hnano]

theorem readFraction_fractionChars {nano : Nat} (h : nano < 1000000000) :
    readFraction (fractionChars nano ++ ['Z']) = .ok (nano, ['Z']) := by
  -- The shorter fractions leave out digits that are zero.
  have hexact : ∀ {unit : Nat}, (nano % unit == 0) = true → nano / unit * unit = nano :=
    fun hzero => Nat.div_mul_cancel (Nat.dvd_of_mod_eq_zero (beq_iff_eq.mp hzero))
  unfold fractionChars
  split
  · next hzero =>
    rw [beq_iff_eq.mp hzero]
    rfl
  · split
    · next hmilli =>
      exact readFraction_padded (by decide) (by decide) (by omega) (hexact hmilli)
    · split
      · next hmicro =>
        exact readFraction_padded (by decide) (by decide) (by omega) (hexact hmicro)
      · exact readFraction_padded (by decide) (by decide) (by omega) (Nat.mul_one nano)

/-! ### Instants -/

/-- An instant that a clock can show: its year stands in the calendar, its second is one of the
day, and a second has more than a thousand million parts only at the end of a minute. -/
structure Shown (t : Instant) : Prop where
  year_ge : firstYear ≤ (dateOf t.day).year
  year_le : (dateOf t.day).year ≤ lastYear
  second_lt : t.second < 86400
  nano_lt : t.nano < 2000000000
  leap : 1000000000 ≤ t.nano → t.second % 60 = 59

/-- The day, the seconds and their parts make the instant, in universal time. -/
theorem ofLocal_dateOf {t : Instant} (h : t.Shown) (nano : Nat) :
    ofLocal (dateOf t.day) t.second nano 0 = .ok ⟨t.day, t.second, nano⟩ := by
  have hsecond := h.second_lt
  -- Days and seconds of the day can be told from all the seconds.
  have hday : (t.day * 86400 + t.second - 0) / 86400 = t.day := by omega
  have hrest : ((t.day * 86400 + t.second - 0) % 86400).toNat = t.second := by omega
  have hyear : ¬((dateOf t.day).year < firstYear ∨ lastYear < (dateOf t.day).year) :=
    fun h' => h'.elim (not_lt.mpr h.year_ge) (not_lt.mpr h.year_le)
  rw [ofLocal, isDate_dateOf h.year_ge h.year_le, dayNumber_dateOf]
  dsimp only
  rw [hday, hrest, if_neg (by decide), if_neg (by simpa using hyear)]

/-- The second that is shown, with its parts, tells whether it is a leap second. -/
theorem Shown.second_nano {t : Instant} (h : t.Shown) :
    ∃ second nano, (t.second % 60 + if 1000000000 ≤ t.nano then 1 else 0) = second ∧
      (if 1000000000 ≤ t.nano then t.nano - 1000000000 else t.nano) = nano ∧
      second ≤ 60 ∧ nano < 1000000000 ∧ (if second == 60 then 59 else second) = t.second % 60 ∧
      nano + (if second == 60 then 1000000000 else 0) = t.nano := by
  refine ⟨_, _, rfl, rfl, ?_⟩
  have hnano := h.nano_lt
  by_cases hleap : 1000000000 ≤ t.nano
  · -- A leap second is the sixtieth after the last of a minute.
    rw [if_pos hleap, if_pos hleap, h.leap hleap]
    exact ⟨by decide, by omega, rfl, Nat.sub_add_cancel hleap⟩
  · have hne : (t.second % 60 + 0 == 60) = false := by
      rw [beq_eq_false_iff_ne]
      omega
    rw [if_neg hleap, if_neg hleap, hne]
    exact ⟨by omega, Nat.not_le.mp hleap, rfl, rfl⟩

/-- **An instant is read back from its text.** -/
theorem parse_text {t : Instant} (h : t.Shown) : parse t.text = .ok t := by
  obtain ⟨hmonth, hmonth', hday, hday'⟩ := date_bounds t.day
  obtain ⟨second, nano, hsecond, hnano, hle, hlt, hclock, hparts⟩ := h.second_nano
  have hhour : t.second / 3600 ≤ 23 := by
    have := h.second_lt
    omega
  have hminute : t.second / 60 % 60 ≤ 59 := by omega
  have hsum : t.second / 3600 * 3600 + t.second / 60 % 60 * 60 + t.second % 60 = t.second := by
    omega
  have hread : readInstant t.text.toList = .ok (t, []) := by
    rw [text, String.toList_ofList, readInstant]
    simp only [List.append_assoc, List.cons_append, hsecond, hnano]
    -- Each part is read in its turn, up to the mark after it.
    rw [bind_of_read _ (readYear_yearChars h.year_ge h.year_le),
      bind_of_read _ (readMark_cons (by decide)),
      bind_of_read _ (readBetween_padded hmonth hmonth' (by omega)),
      bind_of_read _ (readMark_cons (by decide)),
      bind_of_read _ (readBetween_padded hday hday' (by omega)),
      bind_of_read _ (show readSeparator ('T' :: _) = .ok ((), _) from rfl),
      bind_of_read _ (readBetween_padded (Nat.zero_le _) hhour (by omega)),
      bind_of_read _ (readMark_cons (by decide)),
      bind_of_read _ (readBetween_padded (Nat.zero_le _) hminute (by omega)),
      bind_of_read _ (readMark_cons (by decide)),
      bind_of_read _ (readBetween_padded (Nat.zero_le _) hle (by omega)),
      bind_of_read _ (readFraction_fractionChars hlt),
      bind_of_read _ (skipBlanks_cons (by decide)),
      bind_of_read _ (show readOffset ['Z'] = .ok (0, []) from rfl),
      hclock, hparts, hsum, ofLocal_dateOf h t.nano]
    rfl
  exact run'_of_read hread

end Instant

end ExtractionContract
