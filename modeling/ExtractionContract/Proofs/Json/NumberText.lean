import ExtractionContract.Json.Text
import ExtractionContract.Proofs.Decimal.Shortest
import ExtractionContract.Proofs.Json.Readable
import Mathlib.Data.List.TakeWhile

/-!
# Numbers are told apart by their texts

The text of a binary64 number is a numeral with a point or an exponent, and a numeral denotes
one rational number (`Denotes.unique`). For the shortest numeral of a number that rational
number reads back as the number, so different numbers have different numerals. The text of a
whole number has neither point nor exponent.

* `Layout.denotes_text`: what the text of some digits denotes.
* `numberChars_inj`: finite numbers with the same text are the same.
-/

namespace ExtractionContract

namespace Decimal

open Text Json

/-! ### Digits -/

/-- Every character is one of the ten digits. -/
def AllDigits (ds : List Char) : Prop :=
  ∀ c ∈ ds, isAsciiDigit c = true

theorem AllDigits.append {ds es : List Char} (hds : AllDigits ds) (hes : AllDigits es) :
    AllDigits (ds ++ es) :=
  List.forall_mem_append.mpr ⟨hds, hes⟩

theorem AllDigits.take {ds : List Char} (h : AllDigits ds) (n : Nat) : AllDigits (ds.take n) :=
  fun c hc => h c (List.mem_of_mem_take hc)

theorem AllDigits.drop {ds : List Char} (h : AllDigits ds) (n : Nat) : AllDigits (ds.drop n) :=
  fun c hc => h c (List.mem_of_mem_drop hc)

theorem allDigits_replicate (n : Nat) : AllDigits (List.replicate n '0') := by
  intro c hc
  obtain rfl := List.eq_of_mem_replicate hc
  decide

theorem allDigits_toDigits (n : Nat) : AllDigits (Nat.toDigits 10 n) := by
  intro c hc
  have hdigit := Nat.isDigit_of_mem_toDigits (by decide) (by decide) hc
  simpa [Char.isDigit, isAsciiDigit, Char.le_def] using hdigit

theorem digits_of_allDigits {ds : List Char} (hds : AllDigits ds) : digits ds = (ds, []) := by
  simpa using digits_append hds (show startsWithDigit [] = false from rfl)

theorem extend_eq_ofDigitChars (n : Nat) (ds : List Char) :
    extend n ds = Nat.ofDigitChars 10 ds n := by
  simp only [extend, Nat.ofDigitChars_eq_foldl, asciiDigitValue, Nat.mul_comm]

theorem value_append (ds es : List Char) :
    value (ds ++ es) = 10 ^ es.length * value ds + value es := by
  simp only [value, extend_eq_ofDigitChars, Nat.ofDigitChars_append]
  exact Nat.ofDigitChars_eq_ofDigitChars_zero

theorem value_replicate (n : Nat) : value (List.replicate n '0') = 0 := by
  rw [value, extend_eq_ofDigitChars, Nat.ofDigitChars_replicate_zero, Nat.mul_zero]

theorem value_toDigits (n : Nat) : value (Nat.toDigits 10 n) = n := by
  rw [value, extend_eq_ofDigitChars, Nat.ofDigitChars_ten_toDigits]

/-! ### What a numeral denotes -/

/-- The end of a numeral, without or with an exponent. -/
inductive EndsWith : List Char → Int → Prop
  | nothing : EndsWith [] 0
  | exponent (e : Int) :
    EndsWith ('e' :: (if e < 0 then '-' else '+') :: Nat.toDigits 10 e.natAbs) e

theorem EndsWith.exponent? {tail : List Char} {e : Int} (h : EndsWith tail e) :
    exponent? tail = some e := by
  cases h with
  | nothing => rfl
  | exponent =>
    have hread := digits_of_allDigits (allDigits_toDigits e.natAbs)
    obtain ⟨d, ds, hds⟩ :=
      List.exists_cons_of_ne_nil (Nat.toDigits_ne_nil (n := e.natAbs) (b := 10))
    have hvalue := value_toDigits e.natAbs
    rw [hds] at hread hvalue
    rw [hds]
    split
    · simp only [Decimal.exponent?, sign, hread, hvalue]
      rw [if_pos (by decide), if_pos trivial]
      exact congrArg some (by omega)
    · simp only [Decimal.exponent?, sign, hread, hvalue]
      rw [if_pos (by decide), if_neg Bool.false_ne_true]
      exact congrArg some (by omega)

theorem EndsWith.startsWithDigit {tail : List Char} {e : Int} (h : EndsWith tail e) :
    startsWithDigit tail = false := by
  cases h <;> rfl

theorem EndsWith.isScalarChar {tail : List Char} {e : Int} (h : EndsWith tail e) :
    ∀ c ∈ tail, isScalarChar c = true := by
  cases h with
  | nothing => exact List.forall_mem_nil _
  | exponent =>
    refine List.forall_mem_cons.mpr ⟨by decide, List.forall_mem_cons.mpr ⟨?_, fun c hc => ?_⟩⟩
    · split <;> decide
    · exact isScalarChar_of_isAsciiDigit (allDigits_toDigits _ c hc)

/-- A numeral with a point or an exponent, and the rational number that it denotes. -/
inductive Denotes : List Char → ℚ → Prop
  | point {whole fraction tail : List Char} {e : Int} :
    whole ≠ [] → AllDigits whole → AllDigits fraction → EndsWith tail e →
    Denotes (whole ++ '.' :: (fraction ++ tail))
      (value (whole ++ fraction) * 10 ^ (e - fraction.length))
  | noPoint {whole : List Char} (e : Int) :
    whole ≠ [] → AllDigits whole →
    Denotes (whole ++ 'e' :: (if e < 0 then '-' else '+') :: Nat.toDigits 10 e.natAbs)
      (value whole * 10 ^ e)

/-- The digits behind a point, if one begins a text, and the rest. -/
def fractionDigits : List Char → List Char × List Char
  | '.' :: rest => digits rest
  | rest => ([], rest)

/-- The rational number that an unsigned numeral denotes. -/
def numeralValue (cs : List Char) : ℚ :=
  let (whole, rest) := digits cs
  let (fraction, tail) := fractionDigits rest
  value (whole ++ fraction) * 10 ^ ((exponent? tail).getD 0 - fraction.length)

namespace Denotes

variable {cs : List Char} {r r' : ℚ}

theorem numeralValue_eq (h : Denotes cs r) : numeralValue cs = r := by
  cases h with
  | point hne hwhole hfraction htail =>
    rw [numeralValue, digits_append hwhole rfl]
    simp only [fractionDigits, digits_append hfraction htail.startsWithDigit, htail.exponent?,
      Option.getD_some]
  | noPoint e hne hwhole =>
    rw [numeralValue, digits_append hwhole rfl]
    change (value (_ ++ []) : ℚ) *
      10 ^ ((exponent? ('e' :: _)).getD 0 - ([] : List Char).length) = _
    rw [(EndsWith.exponent e).exponent?, Option.getD_some, List.append_nil, List.length_nil,
      Nat.cast_zero, sub_zero]

/-- **A numeral denotes one number.** -/
theorem unique (h : Denotes cs r) (h' : Denotes cs r') : r = r' :=
  h.numeralValue_eq.symm.trans h'.numeralValue_eq

theorem startsWithDigit (h : Denotes cs r) : startsWithDigit cs = true := by
  cases h with
  | point hne hwhole =>
    obtain ⟨d, ds, rfl⟩ := List.exists_cons_of_ne_nil hne
    exact hwhole d List.mem_cons_self
  | noPoint e hne hwhole =>
    obtain ⟨d, ds, rfl⟩ := List.exists_cons_of_ne_nil hne
    exact hwhole d List.mem_cons_self

theorem isScalarChar (h : Denotes cs r) : ∀ c ∈ cs, isScalarChar c = true := by
  cases h with
  | point hne hwhole hfraction htail =>
    refine List.forall_mem_append.mpr ⟨fun c hc => isScalarChar_of_isAsciiDigit (hwhole c hc),
      List.forall_mem_cons.mpr ⟨by decide, List.forall_mem_append.mpr ⟨?_, htail.isScalarChar⟩⟩⟩
    exact fun c hc => isScalarChar_of_isAsciiDigit (hfraction c hc)
  | noPoint e hne hwhole =>
    exact List.forall_mem_append.mpr ⟨fun c hc => isScalarChar_of_isAsciiDigit (hwhole c hc),
      (EndsWith.exponent e).isScalarChar⟩

/-- There is a point or an exponent. -/
theorem not_allDigits (h : Denotes cs r) : ¬AllDigits cs := by
  intro hdigits
  cases h with
  | point => exact absurd (hdigits '.' (by simp)) (by decide)
  | noPoint => exact absurd (hdigits 'e' (by simp)) (by decide)

end Denotes

/-! ### The text of digits -/

/-- The digits are digits, and there are some. -/
structure Digits.Proper (d : Digits) : Prop where
  ne_nil : d.digits ≠ []
  allDigits : AllDigits d.digits

/-- The rational number that digits and the place of the point stand for. -/
def Digits.toRat (d : Digits) : ℚ :=
  value d.digits * 10 ^ (d.point - d.digits.length)

/-- A text's zeros at the end can be split off. -/
theorem exists_zeros (ds : List Char) :
    ∃ z, ds = (ds.reverse.dropWhile (· == '0')).reverse ++ List.replicate z '0' := by
  have hzeros : ds.reverse.takeWhile (· == '0') =
      List.replicate (ds.reverse.takeWhile (· == '0')).length '0' :=
    List.eq_replicate_of_mem fun c hc => by simpa using List.mem_takeWhile_imp hc
  refine ⟨(ds.reverse.takeWhile (· == '0')).length, ?_⟩
  rw [← List.reverse_replicate, ← hzeros, ← List.reverse_append, List.takeWhile_append_dropWhile,
    List.reverse_reverse]

/-- The digits of a grid integer stand for it, in units of the grid. -/
theorem Digits.toRat_ofGrid (n : Nat) (power : Int) (count : Nat) :
    (Digits.ofGrid n power count).toRat = n * 10 ^ (power + 1 - count) := by
  obtain ⟨z, hz⟩ := exists_zeros (Nat.toDigits 10 n)
  have hvalue := value_toDigits n
  have hlength := congrArg List.length hz
  -- The zeros that are left out raise the power of ten by their number.
  rw [hz, value_append, value_replicate, Nat.add_zero, List.length_replicate] at hvalue
  rw [List.length_append, List.length_replicate] at hlength
  unfold Digits.toRat Digits.ofGrid
  dsimp only
  generalize ((Nat.toDigits 10 n).reverse.dropWhile (· == '0')).reverse = ds at *
  rw [hlength, ← hvalue, show power + 1 + (((ds.length + z : Nat) : Int) - count) - ds.length =
    z + (power + 1 - count) by omega, zpow_add₀ (by norm_num), zpow_natCast]
  push_cast
  ring

theorem Digits.proper_ofGrid {n : Nat} (hn : 0 < n) (power : Int) (count : Nat) :
    (Digits.ofGrid n power count).Proper := by
  obtain ⟨z, hz⟩ := exists_zeros (Nat.toDigits 10 n)
  have hvalue := value_toDigits n
  have hdigits := allDigits_toDigits n
  refine ⟨fun hnil => ?_, fun c hc => hdigits c ?_⟩
  · -- All zeros would stand for zero.
    change (Nat.toDigits 10 n |>.reverse.dropWhile (· == '0')).reverse = [] at hnil
    rw [hz, hnil, List.nil_append, value_replicate] at hvalue
    exact hn.ne hvalue
  · rw [hz]
    exact List.mem_append_left _ hc

section

variable {ds : List Char}

/-- The digits stand behind the point and some zeros. -/
theorem denotes_behind (hdigits : AllDigits ds) (k : Nat) :
    Denotes (['0', '.'] ++ List.replicate k '0' ++ ds)
      (value ds * 10 ^ (-(k : Int) - ds.length)) := by
  have h := Denotes.point (List.cons_ne_nil '0' []) (allDigits_replicate 1)
    ((allDigits_replicate k).append hdigits) .nothing
  have hvalue : value (['0'] ++ (List.replicate k '0' ++ ds)) = value ds := by
    rw [← List.append_assoc, value_append, value_append, value_replicate]
    simp [value, extend, asciiDigitValue]
  have hexponent : 0 - (((List.replicate k '0' ++ ds).length : Nat) : Int) =
      -(k : Int) - ds.length := by
    rw [List.length_append, List.length_replicate]
    omega
  rw [hvalue, hexponent, List.append_nil] at h
  exact h

/-- The point stands among the digits, or behind them and some zeros. -/
theorem denotes_among (hne : ds ≠ []) (hdigits : AllDigits ds) {n : Nat} (hn : 0 < n) :
    Denotes (ds.take n ++ List.replicate (n - ds.length) '0' ++ ['.'] ++
      (if (ds.drop n).isEmpty then ['0'] else ds.drop n))
      (value ds * 10 ^ ((n : Int) - ds.length)) := by
  have hlength := List.length_pos_iff.mpr hne
  by_cases hlong : n < ds.length
  · -- The point stands between two digits.
    have htake : ds.take n ≠ [] := by
      rw [← List.length_pos_iff, List.length_take]
      omega
    have hdrop : (ds.drop n).isEmpty = false := by
      rw [List.isEmpty_eq_false_iff, ← List.length_pos_iff, List.length_drop]
      omega
    have h := Denotes.point htake (hdigits.take n) (hdigits.drop n) .nothing
    have hexponent : 0 - ((ds.drop n).length : Int) = n - ds.length := by
      rw [List.length_drop]
      omega
    rw [List.take_append_drop, hexponent, List.append_nil] at h
    rw [hdrop, Nat.sub_eq_zero_of_le hlong.le]
    simpa using h
  · -- Zeros are put behind the digits, and one behind the point.
    have hshort := Nat.le_of_not_lt hlong
    have hne' : ds ++ List.replicate (n - ds.length) '0' ≠ [] := by simp [hne]
    have h := Denotes.point hne' (hdigits.append (allDigits_replicate _)) (allDigits_replicate 1)
      .nothing
    have hvalue : (value (ds ++ List.replicate (n - ds.length) '0' ++ List.replicate 1 '0') : ℚ) *
        10 ^ (0 - ((List.replicate 1 '0').length : Int)) =
          value ds * 10 ^ ((n : Int) - ds.length) := by
      rw [value_append, value_append, value_replicate, value_replicate,
        ← Nat.cast_sub hshort, zpow_natCast, List.length_replicate, List.length_replicate]
      push_cast
      field_simp
      ring
    rw [hvalue, List.append_nil] at h
    rw [List.take_of_length_le hshort, List.drop_of_length_le hshort]
    simpa using h

/-- One digit stands before the point, and a power of ten behind the digits. -/
theorem denotes_scientific (hne : ds ≠ []) (hdigits : AllDigits ds) (e : Int) :
    Denotes (ds.take 1 ++ (if (ds.drop 1).isEmpty then [] else '.' :: ds.drop 1) ++
      ['e', if e < 0 then '-' else '+'] ++ Nat.toDigits 10 e.natAbs)
      (value ds * 10 ^ (e + 1 - ds.length)) := by
  obtain ⟨d, fraction, rfl⟩ := List.exists_cons_of_ne_nil hne
  obtain ⟨hd, hfraction⟩ := List.forall_mem_cons.mp hdigits
  have hone : AllDigits [d] := List.forall_mem_singleton.mpr hd
  cases fraction with
  | nil =>
    have h := Denotes.noPoint e (List.cons_ne_nil d []) hone
    simpa using h
  | cons f fs =>
    have h := Denotes.point (List.cons_ne_nil d []) hone hfraction (.exponent e)
    have hexponent : e - ((f :: fs).length : Int) = e + 1 - (d :: f :: fs).length := by
      simp only [List.length_cons]
      omega
    rw [hexponent] at h
    simpa using h

end

/-- **The text of digits** is a numeral that denotes the number they stand for. -/
theorem Layout.denotes_text (layout : Layout) {d : Digits} (hd : d.Proper) :
    Denotes (layout.text d) d.toRat := by
  unfold Layout.text Digits.toRat
  dsimp only
  split
  · split
    · next hpoint =>
      obtain ⟨k, hk⟩ := Int.eq_ofNat_of_zero_le (Int.neg_nonneg_of_nonpos hpoint)
      rw [hk, Int.toNat_natCast, show d.point = -(k : Int) by omega]
      exact denotes_behind hd.allDigits k
    · next hpoint =>
      obtain ⟨n, hn⟩ := Int.eq_ofNat_of_zero_le (Int.le_of_not_le hpoint)
      rw [hn, Int.toNat_natCast]
      exact denotes_among hd.ne_nil hd.allDigits (by omega)
  · have h := denotes_scientific hd.ne_nil hd.allDigits (d.point - 1)
    rwa [Int.sub_add_cancel] at h

end Decimal

/-! ### Binary64 numbers -/

namespace Binary64

theorem ext_of_sign_magnitude {x y : Binary64} (hsign : x.isNegative = y.isNegative)
    (hmagnitude : x.magnitude = y.magnitude) : x = y := by
  have hword : ∀ z : Binary64,
      z.bits.toNat = z.magnitude + if z.isNegative then signWeight else 0 := by
    intro z
    have hbits : z.bits.toNat < 2 ^ 64 := z.bits.toNat_lt
    have hweight : signWeight = 2 ^ 63 := rfl
    unfold magnitude isNegative
    rw [hweight]
    split <;> simp_all <;> omega
  have hbits : x.bits = y.bits :=
    UInt64.toNat_inj.mp (by rw [hword x, hword y, hsign, hmagnitude])
  cases x
  cases y
  exact congrArg Binary64.mk hbits

/-- A rational number is nearest to a magnitude's number, which may be zero. -/
def StandsFor (m : Nat) (r : ℚ) : Prop :=
  if m = 0 then r = 0 else ReadsBack m r

theorem StandsFor.unique {m m' : Nat} {r : ℚ} (h : StandsFor m r) (h' : StandsFor m' r) :
    m = m' := by
  have hpos : ∀ {k : Nat}, k ≠ 0 → StandsFor k r → ReadsBack k r ∧ 0 < r := by
    intro k hk hr
    rw [StandsFor, if_neg hk] at hr
    exact ⟨hr, hr.pos (Nat.pos_of_ne_zero hk)⟩
  by_cases hm : m = 0
  · by_cases hm' : m' = 0
    · rw [hm, hm']
    · rw [StandsFor, if_pos hm] at h
      exact absurd (hpos hm' h').2 (by rw [h]; exact lt_irrefl 0)
  · by_cases hm' : m' = 0
    · rw [StandsFor, if_pos hm'] at h'
      exact absurd (hpos hm h).2 (by rw [h']; exact lt_irrefl 0)
    · exact (hpos hm h).1.unique (hpos hm' h').1

end Binary64

namespace Json

open Decimal Text

/-! ### The texts of numbers -/

/-- A text with a minus before it or without one. -/
def signed (negative : Bool) (body : List Char) : List Char :=
  if negative then '-' :: body else body

/-- A text that begins with a digit is told apart from its sign. -/
theorem signed_inj {b b' : Bool} {body body' : List Char}
    (hbody : startsWithDigit body = true) (hbody' : startsWithDigit body' = true)
    (h : signed b body = signed b' body') : b = b' ∧ body = body' := by
  have hminus : ∀ cs, startsWithDigit ('-' :: cs) ≠ true := fun _ => by
    simp only [startsWithDigit]
    decide
  cases b <;> cases b'
  · exact ⟨rfl, h⟩
  · change body = '-' :: body' at h
    exact absurd (h ▸ hbody) (hminus body')
  · change '-' :: body = body' at h
    exact absurd (h ▸ hbody') (hminus body)
  · exact ⟨rfl, (List.cons.inj h).2⟩

theorem isScalarChar_signed {b : Bool} {body : List Char}
    (h : ∀ c ∈ body, isScalarChar c = true) : ∀ c ∈ signed b body, isScalarChar c = true := by
  unfold signed
  split
  · exact List.forall_mem_cons.mpr ⟨by decide, h⟩
  · exact h

theorem startsWithDigit_toDigits (n : Nat) : startsWithDigit (Nat.toDigits 10 n) = true := by
  have hdigits := allDigits_toDigits n
  obtain ⟨d, ds, hds⟩ := List.exists_cons_of_ne_nil (Nat.toDigits_ne_nil (n := n) (b := 10))
  rw [hds] at hdigits ⊢
  exact hdigits d List.mem_cons_self

/-- The text of a number is its sign and the digits of a whole number, or its sign and a numeral
that denotes a rational number nearest to it. -/
inductive Written : Number → List Char → Prop
  | int (i : Int) : Written (.int i) (signed (i < 0) (Nat.toDigits 10 i.natAbs))
  | real {x : Binary64} {body : List Char} {r : ℚ} :
    Denotes body r → Binary64.StandsFor x.magnitude r →
    Written (.real x) (signed x.isNegative body)

/-- A finite magnitude is written as a numeral that is nearest to it. -/
theorem exists_denotes {m : Nat} (hm : m < Binary64.infinityMagnitude) :
    ∃ r, Denotes (if m == 0 then ['0', '.', '0'] else realLayout.text (shortest m)) r ∧
      Binary64.StandsFor m r := by
  by_cases hzero : m = 0
  · have hdenotes := denotes_among (List.cons_ne_nil '0' []) (allDigits_replicate 1) Nat.one_pos
    refine ⟨0, ?_, by rw [Binary64.StandsFor, if_pos hzero]⟩
    rw [hzero]
    simpa [value, extend, asciiDigitValue] using hdenotes
  · obtain ⟨n, power, count, hshortest, hreads⟩ := exists_shortest (Nat.pos_of_ne_zero hzero) hm
    have hn : 0 < n := by
      have hpos := hreads.pos (Nat.pos_of_ne_zero hzero)
      refine Nat.pos_of_ne_zero fun hn => ?_
      rw [hn, Nat.cast_zero, zero_mul] at hpos
      exact lt_irrefl 0 hpos
    have hdenotes := realLayout.denotes_text (Digits.proper_ofGrid hn power count)
    rw [Digits.toRat_ofGrid, ← hshortest] at hdenotes
    refine ⟨_, ?_, by rwa [Binary64.StandsFor, if_neg hzero]⟩
    rwa [if_neg (by simpa using hzero)]

theorem written_numberChars {n : Number} (hn : n.isFinite = true) : Written n (numberChars n) := by
  cases n with
  | int i =>
    have hsigned : numberChars (.int i) = signed (i < 0) (Nat.toDigits 10 i.natAbs) := by
      simp only [numberChars, intChars, signed, decide_eq_true_eq]
    exact hsigned ▸ .int i
  | real x =>
    have hfin : x.isFinite = true := hn
    obtain ⟨r, hdenotes, hstands⟩ := exists_denotes (of_decide_eq_true hfin)
    have hsigned : numberChars (.real x) = signed x.isNegative
        (if x.magnitude == 0 then ['0', '.', '0'] else realLayout.text (shortest x.magnitude)) := by
      simp only [numberChars, realChars, hfin, signed, Binary64.isZero]
      rfl
    exact hsigned ▸ .real hdenotes hstands

theorem Written.isScalarChar {n : Number} {cs : List Char} (h : Written n cs) :
    ∀ c ∈ cs, isScalarChar c = true := by
  cases h with
  | int i =>
    exact isScalarChar_signed fun c hc => isScalarChar_of_isAsciiDigit (allDigits_toDigits _ c hc)
  | real hdenotes => exact isScalarChar_signed hdenotes.isScalarChar

/-- A number is determined by its text. -/
theorem Written.unique {n n' : Number} {cs cs' : List Char} (h : Written n cs)
    (h' : Written n' cs') (heq : cs = cs') : n = n' := by
  cases h with
  | int i =>
    cases h' with
    | int i' =>
      obtain ⟨hsign, hdigits⟩ :=
        signed_inj (startsWithDigit_toDigits _) (startsWithDigit_toDigits _) heq
      have habs : i.natAbs = i'.natAbs := by
        rw [← value_toDigits i.natAbs, hdigits, value_toDigits]
      rw [decide_eq_decide] at hsign
      exact congrArg Number.int (by omega)
    | real hdenotes =>
      -- The digits of a whole number have neither point nor exponent.
      obtain ⟨-, hbody⟩ := signed_inj (startsWithDigit_toDigits _) hdenotes.startsWithDigit heq
      exact absurd (hbody ▸ allDigits_toDigits _) hdenotes.not_allDigits
  | real hdenotes hstands =>
    cases h' with
    | int i' =>
      obtain ⟨-, hbody⟩ := signed_inj hdenotes.startsWithDigit (startsWithDigit_toDigits _) heq
      exact absurd (hbody ▸ allDigits_toDigits _) hdenotes.not_allDigits
    | real hdenotes' hstands' =>
      obtain ⟨hsign, rfl⟩ := signed_inj hdenotes.startsWithDigit hdenotes'.startsWithDigit heq
      obtain rfl := hdenotes.unique hdenotes'
      exact congrArg Number.real (Binary64.ext_of_sign_magnitude hsign (hstands.unique hstands'))

/-- **Finite numbers with the same text are the same.** -/
theorem numberChars_inj {n n' : Number} (hn : n.isFinite = true) (hn' : n'.isFinite = true)
    (h : numberChars n = numberChars n') : n = n' :=
  (written_numberChars hn).unique (written_numberChars hn') h

end Json

end ExtractionContract
