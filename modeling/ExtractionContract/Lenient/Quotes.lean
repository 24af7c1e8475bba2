import ExtractionContract.Lenient.Literal

/-!
# Typographic quotes

`straightenQuotes` writes plain quotes for typographic ones wherever they bound a literal in
the typographic reading, and plain single quotes for typographic ones outside literals. It
changes characters one by one, so the text keeps its length.
-/

namespace ExtractionContract

namespace Lenient

/-- What is written for a character at a place. -/
def straighten : Place → Char → Char
  | .outside, c => if isDoubleQuote c then '"' else if isCurlySingle c then '\'' else c
  | .inside curly, c => if closes curly c then '"' else c
  | .escaped _, c => c

/-- Straightens the quotes of a text that begins at a place. -/
def straightenFrom (p : Place) : List Char → List Char
  | [] => []
  | c :: rest => straighten p c :: straightenFrom (p.next .typographic c) rest

/-- A text with its quotes straightened. -/
def straightenQuotes (s : String) : String :=
  String.ofList (straightenFrom .outside s.toList)

/-- **Straightening keeps the length.** -/
theorem length_straightenFrom (p : Place) (cs : List Char) :
    (straightenFrom p cs).length = cs.length := by
  induction cs generalizing p with
  | nil => rfl
  | cons c rest ih => simp [straightenFrom, ih]

end Lenient

end ExtractionContract
