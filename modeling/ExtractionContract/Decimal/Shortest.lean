import ExtractionContract.Decimal.Binary64

/-!
# The shortest decimal numeral

`shortest` finds the fewest decimal digits that read back as a given number: of all decimals
that lie between the midpoints to its two neighbours, those with the fewest digits, and of
those the one nearest to the number. A decimal on a midpoint reads back only when the
number's significand is even.

The search tries one digit, then two, up to seventeen, which always suffice. With a given
number of digits only the two decimals around the number need to be tried.
-/

namespace ExtractionContract

namespace Decimal

/-- A positive number and the midpoints to its neighbours, over one denominator. -/
structure Surroundings where
  below : Nat
  here : Nat
  above : Nat
  denominator : Nat
  /-- Whether a decimal on a midpoint reads back as the number. -/
  closed : Bool

/-- The surroundings of a positive finite magnitude. The gap below a power of two is half the
gap above it. -/
def Surroundings.of (magnitude : Nat) : Surroundings :=
  let m := Binary64.significand magnitude
  let q := Binary64.scale magnitude
  let narrow := magnitude % Binary64.fractionCount == 0 && Binary64.fractionCount < magnitude
  let (unit, den) := Binary64.timesPowerOfTwo 1 (q - 2)
  { below := (4 * m - if narrow then 1 else 2) * unit
    here := 4 * m * unit
    above := (4 * m + 2) * unit
    denominator := den
    closed := m % 2 == 0 }

/-- The power of ten of the leading decimal digit of `num / den`. -/
def leadingPower (num den : Nat) : Int :=
  -- The decimal logarithm of two is a little less than 0.30103.
  let guess := ((Nat.log2 num : Int) - Nat.log2 den) * 30103 / 100000
  let reaches (p : Int) : Bool :=
    if 0 ≤ p then den * tenTo p.toNat ≤ num else den ≤ num * tenTo (-p).toNat
  if reaches (guess + 1) then guess + 1 else if reaches guess then guess else guess - 1

/-- The surroundings with the number's unit moved so that the decimals `count` digits long
become the integers. -/
def Surroundings.grid (s : Surroundings) (power : Int) (count : Nat) : Surroundings :=
  let k := (count : Int) - 1 - power
  if 0 ≤ k then
    let f := tenTo k.toNat
    { s with below := s.below * f, here := s.here * f, above := s.above * f }
  else { s with denominator := s.denominator * tenTo (-k).toNat }

/-- Whether an integer of the grid reads back as the number. -/
def Surroundings.holds (s : Surroundings) (n : Nat) : Bool :=
  let x := n * s.denominator
  (s.below < x && x < s.above) || (s.closed && (x == s.below || x == s.above))

/-- The integer of the grid that reads back as the number, if one does: the nearer of two, and
the even one of two equally near. -/
def Surroundings.nearest? (s : Surroundings) : Option Nat :=
  let low := s.here / s.denominator
  let high := low + 1
  let toLow := s.here - low * s.denominator
  let toHigh := high * s.denominator - s.here
  match s.holds low, s.holds high with
  | true, true => some (if toLow < toHigh || (toLow == toHigh && low % 2 == 0) then low else high)
  | true, false => some low
  | false, true => some high
  | false, false => none

/-- Decimal digits, without zeros at the end, and the position of the point before them: the
number is `0.d₁d₂… * 10 ^ point`. -/
structure Digits where
  digits : List Char
  point : Int

/-- The digits of a grid integer. -/
def Digits.ofGrid (n : Nat) (power : Int) (count : Nat) : Digits :=
  let ds := Nat.toDigits 10 n
  { digits := (ds.reverse.dropWhile (· == '0')).reverse
    point := power + 1 + ((ds.length : Int) - count) }

/-- The fewest digits that read back as a positive finite magnitude. -/
def shortest (magnitude : Nat) : Digits :=
  let s := Surroundings.of magnitude
  let power := leadingPower s.here s.denominator
  let found := (List.range 17).findSome? fun i =>
    ((s.grid power (i + 1)).nearest?).map fun n => Digits.ofGrid n power (i + 1)
  found.getD ⟨[], 0⟩

/-- How numbers are laid out: those with the point between two bounds positionally. -/
structure Layout where
  lowestPoint : Int
  highestPoint : Int

/-- The text of a positive number's digits. A positional text has at least one digit on each
side of the point; any other has one digit before it and a signed power of ten. -/
def Layout.text (layout : Layout) (d : Digits) : List Char :=
  if layout.lowestPoint ≤ d.point && d.point ≤ layout.highestPoint then
    if d.point ≤ 0 then
      ['0', '.'] ++ List.replicate (-d.point).toNat '0' ++ d.digits
    else
      let n := d.point.toNat
      let whole := d.digits.take n
      let fraction := d.digits.drop n
      whole ++ List.replicate (n - d.digits.length) '0' ++ ['.'] ++
        (if fraction.isEmpty then ['0'] else fraction)
  else
    let fraction := d.digits.drop 1
    let e := d.point - 1
    d.digits.take 1 ++ (if fraction.isEmpty then [] else '.' :: fraction) ++
      ['e', if e < 0 then '-' else '+'] ++ Nat.toDigits 10 e.natAbs

example : (shortest 0x3FB999999999999A).digits = ['1'] := by decide +kernel
example : (shortest 1).digits = ['5'] ∧ (shortest 1).point = -323 := by decide +kernel

end Decimal

end ExtractionContract
