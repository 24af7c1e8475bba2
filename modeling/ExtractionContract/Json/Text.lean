import ExtractionContract.Decimal.Shortest
import ExtractionContract.Json.Basic
import ExtractionContract.Text.Quoted

/-!
# The text of a JSON value

* `Json.text`: the compact text, with no blank in it.
* `Json.pretty`: the text with one member or item a line, indented by two blanks a level. An
  empty array or object stays on one line.

A string is written with a backslash before quotes and backslashes, with the short escapes
for five controls and a numeric escape for the others, and with every other character as it is.
-/

namespace ExtractionContract

namespace Json

open Text

/-! ### Strings -/

/-- A hexadecimal digit, in lower case. -/
def hexDigit (n : Nat) : Char :=
  Nat.digitChar n

/-- How a character stands inside a string literal. -/
def escapeChar (c : Char) : List Char :=
  if c = '"' then ['\\', '"']
  else if c = '\\' then ['\\', '\\']
  else if c = '\n' then ['\\', 'n']
  else if c = '\r' then ['\\', 'r']
  else if c = '\t' then ['\\', 't']
  else if c = '\x08' then ['\\', 'b']
  else if c = '\x0c' then ['\\', 'f']
  else if c.toNat < 0x20 then
    ['\\', 'u', '0', '0', hexDigit (c.toNat / 16), hexDigit (c.toNat % 16)]
  else [c]

/-- A string literal. -/
def literal (s : String) : List Char :=
  '"' :: s.toList.flatMap escapeChar ++ ['"']

/-! ### Numbers -/

/-- Numbers from a hundred-thousandth up to ten to the sixteenth are written positionally. -/
def realLayout : Decimal.Layout := ⟨-4, 16⟩

/-- The text of a binary64 number. Infinities and words that are no numbers have none and are
written as `null`. -/
def realChars (x : Binary64) : List Char :=
  if !x.isFinite then ['n', 'u', 'l', 'l']
  else
    let body := if x.isZero then ['0', '.', '0']
      else realLayout.text (Decimal.shortest x.magnitude)
    if x.isNegative then '-' :: body else body

/-- The text of a whole number. -/
def intChars (i : Int) : List Char :=
  if i < 0 then '-' :: Nat.toDigits 10 i.natAbs else Nat.toDigits 10 i.natAbs

/-- The text of a number. -/
def numberChars : Number → List Char
  | .int i => intChars i
  | .real x => realChars x

/-! ### The compact text -/

mutual

/-- The compact text of a value. -/
def chars : Json → List Char
  | null => ['n', 'u', 'l', 'l']
  | bool true => ['t', 'r', 'u', 'e']
  | bool false => ['f', 'a', 'l', 's', 'e']
  | num n => numberChars n
  | str s => literal s
  | arr items => '[' :: itemsChars items
  | obj members => '{' :: membersChars members

/-- The items of an array, up to and with its bracket. -/
def itemsChars : List Json → List Char
  | [] => [']']
  | v :: rest => chars v ++ moreItemsChars rest

/-- The items after the first, each after a comma. -/
def moreItemsChars : List Json → List Char
  | [] => [']']
  | v :: rest => ',' :: chars v ++ moreItemsChars rest

/-- The members of an object, up to and with its brace. -/
def membersChars : List (String × Json) → List Char
  | [] => ['}']
  | (k, v) :: rest => literal k ++ ':' :: chars v ++ moreMembersChars rest

/-- The members after the first, each after a comma. -/
def moreMembersChars : List (String × Json) → List Char
  | [] => ['}']
  | (k, v) :: rest => ',' :: literal k ++ ':' :: chars v ++ moreMembersChars rest

end

/-- The compact text of a value. -/
def text (v : Json) : String :=
  String.ofList v.chars

/-! ### The indented text -/

/-- A new line, indented for a level. -/
def newline (level : Nat) : List Char :=
  '\n' :: List.replicate (2 * level) ' '

mutual

/-- The indented text of a value that stands at a level. -/
def prettyChars (level : Nat) : Json → List Char
  | arr [] => ['[', ']']
  | arr (v :: rest) =>
    '[' :: newline (level + 1) ++ prettyChars (level + 1) v ++ prettyItems level rest
  | obj [] => ['{', '}']
  | obj ((k, v) :: rest) =>
    '{' :: newline (level + 1) ++ literal k ++ [':', ' '] ++ prettyChars (level + 1) v ++
      prettyMembers level rest
  | v => chars v

/-- The items after the first, each on a line of its own, and the bracket. -/
def prettyItems (level : Nat) : List Json → List Char
  | [] => newline level ++ [']']
  | v :: rest =>
    ',' :: newline (level + 1) ++ prettyChars (level + 1) v ++ prettyItems level rest

/-- The members after the first, each on a line of its own, and the brace. -/
def prettyMembers (level : Nat) : List (String × Json) → List Char
  | [] => newline level ++ ['}']
  | (k, v) :: rest =>
    ',' :: newline (level + 1) ++ literal k ++ [':', ' '] ++ prettyChars (level + 1) v ++
      prettyMembers level rest

end

/-- The indented text of a value. -/
def pretty (v : Json) : String :=
  String.ofList (v.prettyChars 0)

example : chars (obj [("a", arr [null])]) =
    ['{', '"', 'a', '"', ':', '[', 'n', 'u', 'l', 'l', ']', '}'] := by
  decide +kernel

end Json

end ExtractionContract
