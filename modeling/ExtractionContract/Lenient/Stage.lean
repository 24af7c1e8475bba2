import ExtractionContract.Lenient.Comments
import ExtractionContract.Lenient.Commas
import ExtractionContract.Lenient.Quotes

/-!
# Stages of repair

A text that may have been edited by hand is read as it is, then with its quotes straightened
and its trailing commas dropped, and then with its comments dropped before that.
-/

namespace ExtractionContract

namespace Lenient

/-- How far a text is repaired before it is read. -/
inductive Stage where
  | asIs
  | quotesAndCommas
  | comments
deriving DecidableEq

namespace Stage

/-- The name of a stage. -/
def name : Stage → String
  | asIs => "as-is"
  | quotesAndCommas => "quote/comma normalization"
  | comments => "comment stripping"

/-- The text that a stage reads. -/
def candidate : Stage → String → String
  | asIs, s => s
  | quotesAndCommas, s => dropTrailingCommas (straightenQuotes s)
  | comments, s => dropTrailingCommas (straightenQuotes (dropComments s))

end Stage

end Lenient

end ExtractionContract
