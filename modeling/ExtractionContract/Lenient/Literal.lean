/-!
# String literals in a text that may not be JSON

The repairs of a text leave its string literals alone, so each has to know where literals
begin and end in any text at all. There are two readings.

* In the plain reading a literal begins with `"` and ends with the next `"` that no backslash
  escapes.
* In the typographic reading a literal may also begin with a typographic double quote, and one
  that does may also end with one.

A literal that is never closed runs to the end of the text. `Place.next` is the step from one
character to the next.
-/

namespace ExtractionContract

namespace Lenient

/-- The plain double quote and the four typographic ones. -/
def isDoubleQuote (c : Char) : Bool :=
  c == '"' || c == '\u201c' || c == '\u201d' || c == '\u201e' || c == '\u201f'

/-- The two typographic single quotes. -/
def isCurlySingle (c : Char) : Bool :=
  c == '\u2018' || c == '\u2019'

/-- The readings of a text's literals. -/
inductive Reading where
  | plain
  | typographic
deriving DecidableEq

/-- Whether a character outside literals begins one. -/
def Reading.opens : Reading → Char → Bool
  | plain, c => c == '"'
  | typographic, c => isDoubleQuote c

/-- Where a character stands: outside literals, in one, or in one after an escaping backslash.
A literal remembers whether a typographic quote began it. -/
inductive Place where
  | outside
  | inside (curly : Bool)
  | escaped (curly : Bool)
deriving DecidableEq

/-- Whether a character ends a literal that stands before no backslash. -/
def closes (curly : Bool) (c : Char) : Bool :=
  c == '"' || (curly && isDoubleQuote c)

/-- Where the character after a given one stands. -/
def Place.next (reading : Reading) : Place → Char → Place
  | outside, c => if reading.opens c then inside (c != '"') else outside
  | inside curly, c =>
    if c == '\\' then escaped curly else if closes curly c then outside else inside curly
  | escaped curly, _ => inside curly

/-- The place after a whole text. -/
def Place.after (reading : Reading) (p : Place) (cs : List Char) : Place :=
  cs.foldl (Place.next reading) p

end Lenient

end ExtractionContract
