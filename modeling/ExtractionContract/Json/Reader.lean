import ExtractionContract.Decimal.Literal
import ExtractionContract.Json.Basic
import ExtractionContract.Json.Fault

/-!
# Reading JSON texts

`Json.parse` reads a text as one value with nothing but blanks around it, or says what is
wrong with it and where.

* Blanks are the space, the tab, the line feed and the carriage return.
* At most 127 containers may be nested.
* Object members keep their order; a repeated key keeps its first place and takes its last
  value.
* A number without point and exponent that fits sixty-four bits is a whole number. Every other
  number is real, and so is minus zero.

Each part of the reader takes the characters from a place on and returns what it read with the
characters left. A fault carries the characters from the one it was noticed at, and how many
bytes of them the reader had already taken.
-/

namespace ExtractionContract

namespace Json

open Text Decimal

/-- Where and why reading stopped. -/
structure Stop where
  fault : Fault
  /-- The characters from the place on that the fault is counted from. -/
  rest : List Char
  /-- The bytes of those characters already taken. -/
  taken : Nat

/-- The outcome of one part of the reader: what was read and the characters left. -/
abbrev Step (α : Type) := Except Stop (α × List Char)

/-- Stops at a character that does not fit. At the end of a text there is nothing to take. -/
def stopAt {α : Type} (fault : Fault) (rest : List Char) : Step α :=
  .error ⟨fault, rest, 1⟩

/-- Stops at the end of the text. -/
def stopAtEnd {α : Type} (fault : Fault) : Step α :=
  .error ⟨fault, [], 0⟩

/-- One part of the reader after another. -/
def andThen {α β : Type} (step : Step α) (next : α → List Char → Step β) : Step β :=
  match step with
  | .ok (a, rest) => next a rest
  | .error stop => .error stop

/-! ### Blanks and words -/

/-- The blanks that may stand between the parts of a text. -/
def isSpace (c : Char) : Bool :=
  c == ' ' || c == '\n' || c == '\t' || c == '\r'

/-- The characters from the first that is not a blank on. -/
def skipSpace (cs : List Char) : List Char :=
  cs.dropWhile isSpace

/-- Reads the rest of a word. -/
def word : List Char → List Char → Step Unit
  | [], cs => .ok ((), cs)
  | _ :: _, [] => stopAtEnd .endInValue
  | w :: ws, c :: rest => if c = w then word ws rest else stopAt .noWord (c :: rest)

/-! ### Strings -/

/-- The value of a hexadecimal digit, in either case. -/
def hexValue (c : Char) : Option Nat :=
  if isAsciiDigit c then some (asciiDigitValue c)
  else if 'a' ≤ c && c ≤ 'f' then some (c.toNat - 'a'.toNat + 10)
  else if 'A' ≤ c && c ≤ 'F' then some (c.toNat - 'A'.toNat + 10)
  else none

/-- The number that four hexadecimal digits stand for. -/
def hexQuad (a b c d : Char) : Option Nat :=
  match hexValue a, hexValue b, hexValue c, hexValue d with
  | some x, some y, some z, some w => some (((x * 16 + y) * 16 + z) * 16 + w)
  | _, _, _, _ => none

/-- The fault of a numeric escape that is not four hexadecimal digits: the text ends in it, or
a wrong byte stands in it. -/
def badQuad {α : Type} (cs : List Char) : Step α :=
  if byteCount cs < 4 then stopAtEnd .endInString else .error ⟨.badEscape, cs, 4⟩

/-- The character that a short escape stands for. -/
def shortEscape (c : Char) : Option Char :=
  if c = '"' then some '"'
  else if c = '\\' then some '\\'
  else if c = '/' then some '/'
  else if c = 'b' then some '\x08'
  else if c = 'f' then some '\x0c'
  else if c = 'n' then some '\n'
  else if c = 'r' then some '\r'
  else if c = 't' then some '\t'
  else none

/-- Whether a number is the first half of a pair that stands for one character. -/
def isHighSurrogate (n : Nat) : Bool :=
  0xD800 ≤ n && n ≤ 0xDBFF

/-- Whether a number is the second half of such a pair. -/
def isLowSurrogate (n : Nat) : Bool :=
  0xDC00 ≤ n && n ≤ 0xDFFF

/-- The character that a pair of halves stands for. -/
def joinSurrogates (high low : Nat) : Char :=
  Char.ofNat (0x10000 + (high - 0xD800) * 0x400 + (low - 0xDC00))

/-- Puts a character before a string read. -/
def before (c : Char) : Step (List Char) → Step (List Char)
  | .ok (cs, rest) => .ok (c :: cs, rest)
  | .error stop => .error stop

/-- Reads a string from after its opening quote on, with its closing quote. -/
def stringBody : List Char → Step (List Char)
  | [] => stopAtEnd .endInString
  | c :: r =>
    if c = '"' then .ok ([], r)
    else if c = '\\' then
      match r with
      | [] => stopAtEnd .endInString
      | e :: r₁ =>
        if e = 'u' then
          match r₁ with
          | x₁ :: x₂ :: x₃ :: x₄ :: r₂ =>
            match hexQuad x₁ x₂ x₃ x₄ with
            | none => badQuad r₁
            | some n =>
              if isLowSurrogate n then .error ⟨.loneSurrogate, r₂, 0⟩
              else if isHighSurrogate n then
                match r₂ with
                | [] => stopAtEnd .endInString
                | b :: r₃ =>
                  if b = '\\' then
                    match r₃ with
                    | [] => stopAtEnd .endInString
                    | u :: r₄ =>
                      if u = 'u' then
                        match r₄ with
                        | y₁ :: y₂ :: y₃ :: y₄ :: r₅ =>
                          match hexQuad y₁ y₂ y₃ y₄ with
                          | none => badQuad r₄
                          | some m =>
                            if isLowSurrogate m then before (joinSurrogates n m) (stringBody r₅)
                            else .error ⟨.loneSurrogate, r₅, 0⟩
                        | _ => badQuad r₄
                      else stopAt .noSecondSurrogate (u :: r₄)
                  else stopAt .noSecondSurrogate (b :: r₃)
              else before (Char.ofNat n) (stringBody r₂)
          | _ => badQuad r₁
        else
          match shortEscape e with
          | some x => before x (stringBody r₁)
          | none => stopAt .badEscape (e :: r₁)
    else if c.toNat < 0x20 then stopAt .controlInString (c :: r)
    else before c (stringBody r)

/-! ### Numbers -/

/-- The largest power of ten that an exponent may give before it counts as endless. -/
def exponentLimit : Nat := twoTo 31 - 1

/-- The digits of an exponent after those that make it endless, if any do. -/
def afterOverflow (n : Nat) : List Char → Option (List Char)
  | [] => none
  | d :: ds =>
    let next := n * 10 + asciiDigitValue d
    if exponentLimit < next then some ds else afterOverflow next ds

/-- The number that a magnitude and a sign make. -/
def realOf (negative : Bool) (magnitude : Nat) : Number :=
  .real (Binary64.ofMagnitude negative magnitude)

/-- A real number given by its digits, or the fault that it is too large. -/
def realStep (negative : Bool) (s : Scaled) (rest : List Char) : Step Number :=
  match s.magnitude? with
  | some m => .ok (realOf negative m, rest)
  | none => .error ⟨.numberTooLarge, rest, 0⟩

/-- A whole number: real when it does not fit sixty-four bits, and when it is minus zero. -/
def wholeStep (negative : Bool) (ds rest : List Char) : Step Number :=
  let n := value ds
  if wordLimit < n then realStep negative (Scaled.ofDigits ds []) rest
  else if negative then
    -- Minus zero keeps its sign only as a real number.
    if n = 0 || twoTo 63 < n then .ok (realOf true (Binary64.roundRatio n 1), rest)
    else .ok (.int (-n), rest)
  else .ok (.int n, rest)

/-- Reads an exponent from after its letter on, and the number with it. -/
def exponentStep (negative : Bool) (s : Scaled) (cs : List Char) : Step Number :=
  let (down, body) := sign cs
  match digits body with
  | ([], []) => stopAtEnd .endInValue
  | ([], c :: r) => stopAt .badNumber (c :: r)
  | (ds, rest) =>
    match afterOverflow 0 ds with
    | some left =>
      -- Zero stays zero under any power, and any number becomes zero under an endless negative one.
      if s.significand = 0 || down then .ok (realOf negative 0, rest)
      else .error ⟨.numberTooLarge, left ++ rest, 0⟩
    | none =>
      let e : Int := value ds
      realStep negative ⟨s.significand, if down then s.exponent - e else s.exponent + e⟩ rest

/-- Reads what may follow the digits of a number, and the number with it. -/
def numberTail (negative : Bool) (s : Scaled) : List Char → Step Number
  | 'e' :: r => exponentStep negative s r
  | 'E' :: r => exponentStep negative s r
  | rest => realStep negative s rest

/-- Reads a number from after its whole digits on. -/
def afterWhole (negative : Bool) (ds : List Char) : List Char → Step Number
  | '.' :: r =>
    match digits r with
    | ([], []) => stopAtEnd .endInValue
    | ([], c :: rest) => stopAt .badNumber (c :: rest)
    | (fs, rest) => numberTail negative (Scaled.ofDigits ds fs) rest
  | 'e' :: r => exponentStep negative (Scaled.ofDigits ds []) r
  | 'E' :: r => exponentStep negative (Scaled.ofDigits ds []) r
  | rest => wholeStep negative ds rest

/-- Reads a number from after its sign on. A leading zero stands alone. -/
def unsignedNumber (negative : Bool) (cs : List Char) : Step Number :=
  match digits cs with
  | ([], []) => stopAtEnd .endInValue
  | ([], c :: r) => stopAt .badNumber (c :: r)
  | ('0' :: d :: ds, rest) => stopAt .badNumber (d :: ds ++ rest)
  | (ds, rest) => afterWhole negative ds rest

/-- Reads a number. -/
def number : List Char → Step Number
  | '-' :: r => unsignedNumber true r
  | cs => unsignedNumber false cs

/-! ### Values -/

/-- The number of containers that may be nested. -/
def depthLimit : Nat := 127

mutual

/-- Reads a value that begins at the first character. The first argument bounds the length of
the recursion, the second the containers that may still be opened. -/
def valueAt : Nat → Nat → List Char → Step Json
  | 0, _, cs => stopAt .noValue cs
  | _ + 1, _, [] => stopAtEnd .endInValue
  | fuel + 1, depth, c :: r =>
    if c = '"' then
      andThen (stringBody r) fun s rest => .ok (str (String.ofList s), rest)
    else if c = '[' then
      if depth = 0 then stopAt .tooDeep (c :: r)
      else match skipSpace r with
        | [] => stopAtEnd .endInList
        | ']' :: rest => .ok (arr [], rest)
        | cs => andThen (itemsAt fuel (depth - 1) cs) fun vs rest => .ok (arr vs, rest)
    else if c = '{' then
      if depth = 0 then stopAt .tooDeep (c :: r)
      else match skipSpace r with
        | [] => stopAtEnd .endInObject
        | '}' :: rest => .ok (obj [], rest)
        | cs => andThen (membersAt fuel (depth - 1) cs) fun ms rest =>
            .ok (obj (Members.collapse ms), rest)
    else if c = 'n' then
      andThen (word ['u', 'l', 'l'] r) fun _ rest => .ok (null, rest)
    else if c = 't' then
      andThen (word ['r', 'u', 'e'] r) fun _ rest => .ok (bool true, rest)
    else if c = 'f' then
      andThen (word ['a', 'l', 's', 'e'] r) fun _ rest => .ok (bool false, rest)
    else if c = '-' || isAsciiDigit c then
      andThen (number (c :: r)) fun n rest => .ok (num n, rest)
    else stopAt .noValue (c :: r)

/-- Reads the items of an array from the first character of one on, with the bracket. -/
def itemsAt : Nat → Nat → List Char → Step (List Json)
  | 0, _, cs => stopAt .noValue cs
  | fuel + 1, depth, cs =>
    andThen (valueAt fuel depth cs) fun v rest =>
      match skipSpace rest with
      | [] => stopAtEnd .endInList
      | ']' :: r => .ok ([v], r)
      | ',' :: r =>
        match skipSpace r with
        | [] => stopAtEnd .endInValue
        | ']' :: r' => stopAt .trailingComma (']' :: r')
        | next => andThen (itemsAt fuel depth next) fun vs r' => .ok (v :: vs, r')
      | c :: r => stopAt .noCommaInList (c :: r)

/-- Reads the members of an object from the first character of one on, with the brace. A
member is a string, a colon and a value. -/
def membersAt : Nat → Nat → List Char → Step (List (String × Json))
  | 0, _, cs => stopAt .noValue cs
  | _ + 1, _, [] => stopAtEnd .endInValue
  | fuel + 1, depth, c :: r =>
    if c = '"' then
      andThen (stringBody r) fun k rest =>
        match skipSpace rest with
        | [] => stopAtEnd .endInObject
        | ':' :: r₁ =>
          andThen (valueAt fuel depth (skipSpace r₁)) fun v r₂ =>
            match skipSpace r₂ with
            | [] => stopAtEnd .endInObject
            | '}' :: r₃ => .ok ([(String.ofList k, v)], r₃)
            | ',' :: r₃ =>
              match skipSpace r₃ with
              | [] => stopAtEnd .endInValue
              | '}' :: r₄ => stopAt .trailingComma ('}' :: r₄)
              | next => andThen (membersAt fuel depth next) fun ms r₄ =>
                  .ok ((String.ofList k, v) :: ms, r₄)
            | x :: r₃ => stopAt .noCommaInObject (x :: r₃)
        | x :: r₁ => stopAt .noColon (x :: r₁)
    else stopAt .keyNotString (c :: r)

end

/-- The place of a stop in the text it was read from. -/
def Stop.toReadError (stop : Stop) (text : List Char) : ReadError :=
  ⟨stop.fault, Position.after (byteCount text - byteCount stop.rest + stop.taken) text⟩

/-- Reads a whole text: a value with nothing but blanks around it. Every step of the recursion
that opens no container takes a character, so twice the length bounds it. -/
def document (cs : List Char) : Except Stop Json :=
  match valueAt (2 * cs.length + 2) depthLimit (skipSpace cs) with
  | .error stop => .error stop
  | .ok (v, rest) =>
    match skipSpace rest with
    | [] => .ok v
    | c :: r => .error ⟨.trailingText, c :: r, 1⟩

/-- Reads a text as a JSON value. -/
def parse (s : String) : Except ReadError Json :=
  match document s.toList with
  | .ok v => .ok v
  | .error stop => .error (stop.toReadError s.toList)

end Json

end ExtractionContract
