import ExtractionContract.Lenient.Literal

/-!
# Comments

`dropComments` drops what two slashes begin up to the end of the line, and writes a blank for
what stands between a slash with a star and a star with a slash. Comments begin only outside
literals, in the typographic reading, and no quote in a comment begins a literal.
-/

namespace ExtractionContract

namespace Lenient

/-- Where a character stands in a text with comments. A block comment remembers whether the
character before was a star. -/
inductive CommentPlace where
  | text (p : Place)
  | line
  | block (star : Bool)
deriving DecidableEq

/-- Drops the comments of a text that begins at a place. -/
def commentsFrom : CommentPlace → List Char → List Char
  | _, [] => []
  | .line, c :: rest =>
    if c = '\n' then '\n' :: commentsFrom (.text .outside) rest else commentsFrom .line rest
  | .block star, c :: rest =>
    if star && c == '/' then commentsFrom (.text .outside) rest
    else commentsFrom (.block (c == '*')) rest
  | .text .outside, '/' :: '/' :: rest => commentsFrom .line rest
  | .text .outside, '/' :: '*' :: rest => ' ' :: commentsFrom (.block false) rest
  | .text p, c :: rest => c :: commentsFrom (.text (p.next .typographic c)) rest

/-- A text without its comments. -/
def dropComments (s : String) : String :=
  String.ofList (commentsFrom (.text .outside) s.toList)

end Lenient

end ExtractionContract
