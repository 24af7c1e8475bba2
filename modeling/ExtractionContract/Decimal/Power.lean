/-!
# Powers of two and of ten

The two bases that numbers of machines and of texts are written to.
-/

namespace ExtractionContract

/-- Two to the power `n`. -/
def twoTo (n : Nat) : Nat := Nat.pow 2 n

/-- Ten to the power `n`. -/
def tenTo (n : Nat) : Nat := Nat.pow 10 n

theorem twoTo_pos (n : Nat) : 0 < twoTo n :=
  Nat.pow_pos (by decide)

theorem tenTo_pos (n : Nat) : 0 < tenTo n :=
  Nat.pow_pos (by decide)

end ExtractionContract
