import ExtractionContract.Decimal.Power

/-!
# Binary64 numbers

A number is its 64-bit word: a sign, eleven bits of exponent and fifty-two of fraction. All
arithmetic is done on exact ratios of natural numbers and rounded once, to the nearest number
and to the even one of two equally near.

A *magnitude* is the word without its sign bit. Magnitudes of finite numbers are ordered as
the numbers are, the word of infinity comes next, and the words above it are not numbers.

* `roundRatio`: the magnitude nearest to a ratio.
* `ratio`: the ratio that a finite magnitude stands for, exactly.
* `ofInt`, `ofDecimal`: the number nearest to an integer, and to a decimal fraction.
-/

namespace ExtractionContract

/-- A 64-bit binary floating-point number, as its word. -/
structure Binary64 where
  bits : UInt64
deriving DecidableEq

namespace Binary64

/-- The number of fractions between two powers of two. -/
def fractionCount : Nat := twoTo 52

/-- The magnitude of infinity. -/
def infinityMagnitude : Nat := 2047 * fractionCount

/-- The weight of the sign bit. -/
def signWeight : Nat := twoTo 63

/-- The number with the given sign and magnitude. -/
def ofMagnitude (negative : Bool) (magnitude : Nat) : Binary64 :=
  ⟨UInt64.ofNat (magnitude + if negative then signWeight else 0)⟩

/-- Whether the sign bit is set. -/
def isNegative (x : Binary64) : Bool :=
  signWeight ≤ x.bits.toNat

/-- The word without its sign bit. -/
def magnitude (x : Binary64) : Nat :=
  x.bits.toNat % signWeight

/-- Whether the word stands for a number, and not for an infinity or for no number at all. -/
def isFinite (x : Binary64) : Bool :=
  x.magnitude < infinityMagnitude

/-- Whether the number is one of the two zeros. -/
def isZero (x : Binary64) : Bool :=
  x.magnitude == 0

/-- The integer significand of a finite magnitude. -/
def significand (magnitude : Nat) : Nat :=
  if magnitude < fractionCount then magnitude
  else fractionCount + magnitude % fractionCount

/-- The power of two that the significand of a finite magnitude is multiplied by. -/
def scale (magnitude : Nat) : Int :=
  (max 1 (magnitude / fractionCount) : Nat) - 1075

/-- The ratio `n * 2 ^ e`. -/
def timesPowerOfTwo (n : Nat) (e : Int) : Nat × Nat :=
  if 0 ≤ e then (n * twoTo e.toNat, 1) else (n, twoTo (-e).toNat)

/-- The exact value of a finite magnitude, as numerator and denominator. -/
def ratio (magnitude : Nat) : Nat × Nat :=
  timesPowerOfTwo (significand magnitude) (scale magnitude)

/-! ### Rounding -/

/-- A quotient rounded to the nearest integer, and to the even one of two equally near. -/
def roundDiv (num den : Nat) : Nat :=
  let q := num / den
  let r := num % den
  if den < 2 * r || (den == 2 * r && q % 2 == 1) then q + 1 else q

/-- The power of two to divide `num / den` by so that fifty-three bits of it remain before
the point, or as many as the smallest numbers have. -/
def roundingScale (num den : Nat) : Int :=
  let guess := (Nat.log2 num : Int) - Nat.log2 den - 53
  let (n, d) := if 0 ≤ guess then (num, den * twoTo guess.toNat)
    else (num * twoTo (-guess).toNat, den)
  -- The logarithms are rounded down, so the guess is right or one too small.
  let exact := if n / d < twoTo 53 then guess else guess + 1
  max exact (-1074)

/-- The magnitude nearest to `num / den`. The significand is added to the exponent's field, so
that a significand that rounds up to the next power of two carries into the exponent. -/
def roundRatio (num den : Nat) : Nat :=
  if num == 0 then 0
  else
    let e := roundingScale num den
    let m := if 0 ≤ e then roundDiv num (den * twoTo e.toNat)
      else roundDiv (num * twoTo (-e).toNat) den
    -- The leading bit of `m` adds one to the exponent's field of a number that has it.
    min ((e + 1074).toNat * fractionCount + m) infinityMagnitude

/-- The number nearest to an integer. -/
def ofInt (i : Int) : Binary64 :=
  ofMagnitude (i < 0) (roundRatio i.natAbs 1)

/-- The magnitude nearest to `digits * 10 ^ exponent`. Exponents that put the number far
outside the range are answered without computing the power. -/
def ofDecimal (digits : Nat) (exponent : Int) : Nat :=
  if digits == 0 then 0
  else
    let size := (Nat.toDigits 10 digits).length + exponent
    if 400 < size then infinityMagnitude
    else if size < -400 then 0
    else if 0 ≤ exponent then roundRatio (digits * tenTo exponent.toNat) 1
    else roundRatio digits (tenTo (-exponent).toNat)

/-- The magnitude nearest to the product of two finite magnitudes. -/
def mulMagnitude (a b : Nat) : Nat :=
  roundRatio ((ratio a).1 * (ratio b).1) ((ratio a).2 * (ratio b).2)

/-- The magnitude nearest to the quotient of two finite magnitudes, the second not zero. -/
def divMagnitude (a b : Nat) : Nat :=
  roundRatio ((ratio a).1 * (ratio b).2) ((ratio a).2 * (ratio b).1)

example : ofInt 1 = ⟨0x3FF0000000000000⟩ := by decide +kernel
example : ofInt (-2) = ⟨0xC000000000000000⟩ := by decide +kernel
example : ofInt (twoTo 53 + 1) = ofInt (twoTo 53) := by decide +kernel
example : ofDecimal 5 (-324) = 1 := by decide +kernel
example : ofDecimal 17976931348623159 292 = infinityMagnitude := by decide +kernel

end Binary64

end ExtractionContract
