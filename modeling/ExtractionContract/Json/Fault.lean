/-!
# Faults of a JSON text

A fault says what is wrong with a text and where. Places are counted in bytes of UTF-8: a
line is one more than the line feeds before the place, a column the bytes since the last of
them.

* `Fault.message`: what is wrong, in words.
* `Position.after`: the place a number of bytes into a text.
* `ReadError.message`: a fault with its place.
-/

namespace ExtractionContract

namespace Json

/-- What can be wrong with a JSON text. -/
inductive Fault where
  | endInValue
  | endInString
  | endInList
  | endInObject
  | noValue
  | noWord
  | badNumber
  | numberTooLarge
  | controlInString
  | badEscape
  | loneSurrogate
  | noSecondSurrogate
  | noColon
  | noCommaInList
  | noCommaInObject
  | keyNotString
  | trailingComma
  | trailingText
  | tooDeep
deriving DecidableEq

/-- What is wrong, in words. -/
def Fault.message : Fault → String
  | endInValue => "EOF while parsing a value"
  | endInString => "EOF while parsing a string"
  | endInList => "EOF while parsing a list"
  | endInObject => "EOF while parsing an object"
  | noValue => "expected value"
  | noWord => "expected ident"
  | badNumber => "invalid number"
  | numberTooLarge => "number out of range"
  | controlInString => "control character (\\u0000-\\u001F) found while parsing a string"
  | badEscape => "invalid escape"
  | loneSurrogate => "lone leading surrogate in hex escape"
  | noSecondSurrogate => "unexpected end of hex escape"
  | noColon => "expected `:`"
  | noCommaInList => "expected `,` or `]`"
  | noCommaInObject => "expected `,` or `\x7d`"
  | keyNotString => "key must be a string"
  | trailingComma => "trailing comma"
  | trailingText => "trailing characters"
  | tooDeep => "recursion limit exceeded"

/-- A place in a text. -/
structure Position where
  line : Nat
  column : Nat
deriving DecidableEq

/-- The place a number of bytes after another, along a text. A place may lie inside a
character of several bytes. -/
def Position.advance (p : Position) : Nat → List Char → Position
  | _, [] => p
  | bytes, c :: rest =>
    if bytes = 0 then p
    else if c = '\n' then advance ⟨p.line + 1, 0⟩ (bytes - 1) rest
    else advance ⟨p.line, p.column + min c.utf8Size bytes⟩ (bytes - c.utf8Size) rest

/-- The place a number of bytes into a text. -/
def Position.after (bytes : Nat) (text : List Char) : Position :=
  Position.advance ⟨1, 0⟩ bytes text

/-- A fault and the place where the reader noticed it. -/
structure ReadError where
  fault : Fault
  position : Position
deriving DecidableEq

/-- A fault with its place, in words. -/
def ReadError.message (e : ReadError) : String :=
  let line := e.position.line
  let column := e.position.column
  s!"{e.fault.message} at line {line} column {column}"

/-- The number of bytes of a text. -/
def byteCount (cs : List Char) : Nat :=
  cs.foldl (fun n c => n + c.utf8Size) 0

end Json

end ExtractionContract
