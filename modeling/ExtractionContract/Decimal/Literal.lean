import ExtractionContract.Decimal.Binary64
import ExtractionContract.Text.DecimalDigit

/-!
# Written decimal numbers

Two readings of a decimal numeral as a binary64 number.

* `Scaled.magnitude?` is the quick reading of a document's numbers: the leading digits that fit
  a 64-bit word, as a binary number, times or over a power of ten, as a binary number. It can
  miss the nearest number by a little and says when the number is too large.
* `thresholdOf?` is the exact reading of a number typed as text: the nearest number, or an
  infinity where it is too large. It also takes the words for infinity and for no number.
-/

namespace ExtractionContract

open Text

namespace Decimal

/-! ### Digits -/

/-- The digits a text begins with, and the rest of it. -/
def digits : List Char → List Char × List Char
  | [] => ([], [])
  | c :: rest =>
    if isAsciiDigit c then
      let (ds, r) := digits rest
      (c :: ds, r)
    else ([], c :: rest)

/-- The number that decimal digits stand for, after those already read. -/
def extend (n : Nat) (ds : List Char) : Nat :=
  ds.foldl (fun n c => n * 10 + asciiDigitValue c) n

/-- The number that decimal digits stand for. -/
def value (ds : List Char) : Nat :=
  extend 0 ds

/-! ### The quick reading -/

/-- The largest 64-bit word. -/
def wordLimit : Nat := twoTo 64 - 1

/-- A significand that fits a word, times a power of ten. -/
structure Scaled where
  significand : Nat
  exponent : Int

namespace Scaled

/-- Reads the digits before the point. From the first digit that would not fit the word on,
each only raises the exponent. -/
def addWhole (s : Scaled) : List Char → Scaled
  | [] => s
  | c :: rest =>
    let next := s.significand * 10 + asciiDigitValue c
    if wordLimit < next then ⟨s.significand, s.exponent + (rest.length + 1 : Nat)⟩
    else addWhole ⟨next, s.exponent⟩ rest

/-- Reads the digits after the point. From the first digit that would not fit the word on,
they are dropped. -/
def addFraction (s : Scaled) : List Char → Scaled
  | [] => s
  | c :: rest =>
    let next := s.significand * 10 + asciiDigitValue c
    if wordLimit < next then s else addFraction ⟨next, s.exponent - 1⟩ rest

/-- A numeral's digits before and after the point, as a significand and a power of ten. -/
def ofDigits (whole fraction : List Char) : Scaled :=
  ((⟨0, 0⟩ : Scaled).addWhole whole).addFraction fraction

/-- The largest power of ten that is a finite number. -/
def largestPower : Nat := 308

/-- The magnitude of a power of ten up to the largest. -/
def powerOfTen (n : Nat) : Nat :=
  Binary64.roundRatio (tenTo n) 1

/-- Divides by the largest power of ten a number of times, or until nothing is left. -/
def divideDown (magnitude : Nat) : Nat → Nat
  | 0 => magnitude
  | steps + 1 =>
    if magnitude == 0 then 0
    else divideDown (Binary64.divMagnitude magnitude (powerOfTen largestPower)) steps

/-- The magnitude that a significand and a power of ten give, or nothing when it would not be
finite. A power beyond the largest one is applied in steps. -/
def magnitude? (s : Scaled) : Option Nat :=
  let m := Binary64.roundRatio s.significand 1
  let n := s.exponent.natAbs
  if m == 0 then some 0
  else if 0 ≤ s.exponent then
    if largestPower < n then none
    else
      let product := Binary64.mulMagnitude m (powerOfTen n)
      if product < Binary64.infinityMagnitude then some product else none
  else
    let steps := (n - 1) / largestPower
    some (Binary64.divMagnitude (divideDown m steps) (powerOfTen (n - steps * largestPower)))

example : (ofDigits ['1'] ['5']).magnitude? = some 0x3FF8000000000000 := by decide +kernel
example : (⟨1, 400⟩ : Scaled).magnitude? = none := by decide +kernel
example : (⟨1, -400⟩ : Scaled).magnitude? = some 0 := by decide +kernel
example : (⟨5, -324⟩ : Scaled).magnitude? = some 1 := by decide +kernel

end Scaled

/-! ### The exact reading -/

/-- A sign at the start of a text, as whether it is a minus, and the rest. -/
def sign : List Char → Bool × List Char
  | '-' :: rest => (true, rest)
  | '+' :: rest => (false, rest)
  | cs => (false, cs)

/-- The exponent that ends a numeral, nothing being left after it. -/
def exponent? : List Char → Option Int
  | [] => some 0
  | c :: rest =>
    if c == 'e' || c == 'E' then
      let (negative, body) := sign rest
      match digits body with
      | ([], _) => none
      | (ds, []) => some (if negative then -(value ds : Int) else value ds)
      | (_, _ :: _) => none
    else none

/-- The magnitude of an unsigned numeral: digits with at most one point among or beside them,
and an exponent. -/
def numeral? (cs : List Char) : Option Nat :=
  let (whole, rest) := digits cs
  let (fraction, tail) := match rest with
    | '.' :: r => digits r
    | r => ([], r)
  if whole.isEmpty && fraction.isEmpty then none
  else (exponent? tail).map fun e =>
    Binary64.ofDecimal (value (whole ++ fraction)) (e - fraction.length)

/-- The magnitude of a word for infinity or for no number, in any case. -/
def word? (cs : List Char) : Option Nat :=
  let w := cs.map Char.toLower
  if w == ['i', 'n', 'f'] || w == ['i', 'n', 'f', 'i', 'n', 'i', 't', 'y'] then
    some Binary64.infinityMagnitude
  else if w == ['n', 'a', 'n'] then some (Binary64.infinityMagnitude + Binary64.fractionCount / 2)
  else none

/-- The number nearest to a typed numeral, if the text is one. -/
def thresholdOf? (cs : List Char) : Option Binary64 :=
  let (negative, body) := sign cs
  ((word? body).orElse fun _ => numeral? body).map (Binary64.ofMagnitude negative)

example : thresholdOf? ['.', '5'] = some ⟨0x3FE0000000000000⟩ := by decide +kernel
example : thresholdOf? ['.'] = none := by decide +kernel
example : thresholdOf? ['1', 'e'] = none := by decide +kernel

end Decimal

end ExtractionContract
