/-!
# Ranges of code points

Character classes are lists of inclusive ranges of code points, and case mappings are lists
of spans that shift every member by the same amount.

* `inRanges`: membership of a character in a list of ranges.
* `Span.shift?`: the code point that a span maps a character to.
-/

namespace ExtractionContract.Text

/-- Whether a character lies in one of the given inclusive ranges of code points. -/
def inRanges (ranges : List (Nat × Nat)) (c : Char) : Bool :=
  ranges.any fun r => r.1 ≤ c.toNat && c.toNat ≤ r.2

/-- Every `step`-th code point from `first` to `last`, each shifted by `delta`. -/
structure Span where
  first : Nat
  last : Nat
  step : Nat
  delta : Int

/-- The code point a span maps `n` to, if `n` is one of its members. -/
def Span.shift? (s : Span) (n : Nat) : Option Nat :=
  if s.first ≤ n && n ≤ s.last && (n - s.first) % s.step == 0 then
    some (Int.toNat (n + s.delta))
  else none

/-- The character that the first matching span maps `c` to, or `c` itself. -/
def shiftBy (spans : List Span) (c : Char) : Char :=
  match spans.findSome? fun s => s.shift? c.toNat with
  | some n => Char.ofNat n
  | none => c

end ExtractionContract.Text
