import ExtractionContract.Decimal.Power
import ExtractionContract.Text.Blank
import ExtractionContract.Text.DecimalDigit

/-!
# Instants

An instant is a day of the proleptic Gregorian calendar and a time of that day, in universal
time, to the nanosecond. A leap second is the last second of a minute with more than a
thousand million nanoseconds.

* `Instant.parse`: reads a date, a time and an offset from universal time. Blanks may stand
  between the parts.
* `Instant.text`: the text of an instant, with as many digits of a second as it needs: none,
  three, six or nine.
-/

namespace ExtractionContract

open Text

/-- What can be wrong with the text of an instant. -/
inductive InstantFault where
  | tooShort
  | invalid
  | outOfRange
  | tooLong
  | impossible
deriving DecidableEq

/-- What is wrong, in words. -/
def InstantFault.message : InstantFault → String
  | tooShort => "premature end of input"
  | invalid => "input contains invalid characters"
  | outOfRange => "input is out of range"
  | tooLong => "trailing input"
  | impossible => "no possible date and time matching input"

/-- A point in time. -/
structure Instant where
  /-- Days since the first of January 1970. -/
  day : Int
  /-- Seconds since midnight. -/
  second : Nat
  nano : Nat
deriving DecidableEq

namespace Instant

/-- The beginning of 1970. -/
def epoch : Instant := ⟨0, 0, 0⟩

/-! ### The calendar -/

/-- A year, a month and a day. -/
structure Date where
  year : Int
  month : Nat
  day : Nat
deriving DecidableEq

/-- The days from the first of January 1970 to a date. Years are counted from March, so that
a leap day is the last day of one. -/
def dayNumber (d : Date) : Int :=
  let y := if d.month ≤ 2 then d.year - 1 else d.year
  let era := y / 400
  let yearOfEra := y - era * 400
  let monthFromMarch := if d.month ≤ 2 then d.month + 9 else d.month - 3
  -- From March on the months have 31, 30, 31, 30 and 31 days, and so on again: 153 days in five.
  let dayOfYear : Nat := (153 * monthFromMarch + 2) / 5 + d.day - 1
  let dayOfEra := yearOfEra * 365 + yearOfEra / 4 - yearOfEra / 100 + dayOfYear
  era * 146097 + dayOfEra - 719468

/-- The date of a number of days since the first of January 1970. -/
def dateOf (n : Int) : Date :=
  let z := n + 719468
  let era := z / 146097
  let dayOfEra := (z - era * 146097).toNat
  -- Taking the leap days out leaves years of equal length.
  let yearOfEra := (dayOfEra - dayOfEra / 1460 + dayOfEra / 36524 - dayOfEra / 146096) / 365
  let dayOfYear := dayOfEra - (365 * yearOfEra + yearOfEra / 4 - yearOfEra / 100)
  let monthFromMarch := (5 * dayOfYear + 2) / 153
  let month := if monthFromMarch < 10 then monthFromMarch + 3 else monthFromMarch - 9
  { year := yearOfEra + era * 400 + if month ≤ 2 then 1 else 0
    month
    day := dayOfYear - (153 * monthFromMarch + 2) / 5 + 1 }

/-- The first and the last year that dates are counted in. -/
def firstYear : Int := -262143

/-- The last year that dates are counted in. -/
def lastYear : Int := 262142

/-- Whether a date stands in the calendar. -/
def isDate (d : Date) : Bool :=
  firstYear ≤ d.year && d.year ≤ lastYear && 1 ≤ d.month && d.month ≤ 12 && 1 ≤ d.day &&
    dateOf (dayNumber d) == d

example : dayNumber ⟨1970, 1, 1⟩ = 0 := by decide
example : isDate ⟨2024, 2, 29⟩ = true := by decide
example : isDate ⟨2023, 2, 29⟩ = false := by decide

/-! ### Reading -/

/-- Reading a part of a text: what it says and the characters left, or what is wrong. -/
abbrev Reading := StateT (List Char) (Except InstantFault)

/-- Reads digits, at most as many as given. -/
def digitsUpTo : Nat → List Char → List Char × List Char
  | n + 1, c :: rest =>
    if isAsciiDigit c then
      let (ds, r) := digitsUpTo n rest
      (c :: ds, r)
    else ([], c :: rest)
  | _, cs => ([], cs)

/-- The number that digits stand for. -/
def numberOf (ds : List Char) : Nat :=
  ds.foldl (fun n c => n * 10 + asciiDigitValue c) 0

/-- Reads a number of at least one digit and at most as many as given. -/
def readNumber (most : Nat) : Reading Nat
  | [] => .error .tooShort
  | cs =>
    match digitsUpTo most cs with
    | ([], _) => .error .invalid
    | (ds, rest) =>
      if twoTo 63 ≤ numberOf ds then .error .outOfRange else .ok (numberOf ds, rest)

/-- Passes over blanks. -/
def skipBlanks : Reading Unit := modify trimStart

/-- Reads a number between two bounds, after blanks. -/
def readBetween (low high : Nat) : Reading Nat := do
  skipBlanks
  let n ← readNumber 2
  if low ≤ n && n ≤ high then return n else throw .outOfRange

/-- Reads the number of a year: four digits at most, or any number of them after a sign. -/
def readSignedYear : Reading Int
  | '-' :: r => (readNumber r.length r).map fun p => (-(p.1 : Int), p.2)
  | '+' :: r => (readNumber r.length r).map fun p => ((p.1 : Int), p.2)
  | r => (readNumber 4 r).map fun p => ((p.1 : Int), p.2)

/-- Reads a year, after blanks. -/
def readYear : Reading Int := do
  skipBlanks
  let y ← readSignedYear
  if -(twoTo 31) ≤ y && y < twoTo 31 then return y else throw .outOfRange

/-- Reads a mark that a test accepts. -/
def readMarkOf (isMark : Char → Bool) : Reading Unit
  | [] => .error .tooShort
  | c :: rest => if isMark c then .ok ((), rest) else .error .invalid

/-- Reads a mark, after blanks. -/
def readMark (mark : Char) : Reading Unit := do
  skipBlanks
  readMarkOf (· == mark)

/-- Reads the mark between a date and a time. -/
def readSeparator : Reading Unit :=
  readMarkOf fun c => c == 't' || c == 'T' || c == ' '

/-- Reads the digits of a second after a point, if one stands there, as thousand millionth
parts. Digits after the ninth are passed over. -/
def readFraction : Reading Nat
  | '.' :: r =>
    match r, digitsUpTo 9 r with
    | [], _ => .error .tooShort
    | _, ([], _) => .error .invalid
    | _, (ds, rest) =>
      .ok (numberOf ds * tenTo (9 - ds.length), rest.dropWhile isAsciiDigit)
  | cs => .ok (0, cs)

/-- Reads two digits. A text of less than two bytes is too short; any other text that does
not begin with two digits is invalid. -/
def readPair : Reading (Nat × Nat)
  | a :: b :: rest =>
    if isAsciiDigit a && isAsciiDigit b then
      .ok ((asciiDigitValue a, asciiDigitValue b), rest)
    else .error .invalid
  | [a] => if a.utf8Size < 2 then .error .tooShort else .error .invalid
  | [] => .error .tooShort

/-- Reads the hours and minutes of an offset, in seconds. -/
def readOffsetBody : Reading Nat := do
  let (h₁, h₂) ← readPair
  modify fun cs => cs.dropWhile fun c => c == ':' || isBlank c
  let (m₁, m₂) ← readPair
  if 6 ≤ m₁ then throw .outOfRange
  return (h₁ * 10 + h₂) * 3600 + (m₁ * 10 + m₂) * 60

/-- Reads the offset of a local time from universal time, in seconds. -/
def readOffset : Reading Int
  | [] => .error .tooShort
  | c :: rest =>
    if ((c :: rest).take 3).map Char.toLower == ['u', 't', 'c'] then .ok (0, rest.drop 2)
    else if c == 'Z' || c == 'z' then .ok (0, rest)
    else if c == '+' then (readOffsetBody rest).map fun p => ((p.1 : Int), p.2)
    else if c == '-' || c == '\u2212' then (readOffsetBody rest).map fun p => (-(p.1 : Int), p.2)
    else .error .invalid

/-- The instant of a local date and time with an offset. -/
def ofLocal (date : Date) (seconds nano : Nat) (offset : Int) : Except InstantFault Instant :=
  if !isDate date || offset ≤ -86400 || 86400 ≤ offset then .error .outOfRange
  else
    let total := dayNumber date * 86400 + seconds - offset
    let day := total / 86400
    let year := (dateOf day).year
    if year < firstYear || lastYear < year then .error .impossible
    else .ok ⟨day, (total % 86400).toNat, nano⟩

/-- Reads the parts of an instant. -/
def readInstant : Reading Instant := do
  let year ← readYear
  readMark '-'
  let month ← readBetween 1 12
  readMark '-'
  let day ← readBetween 1 31
  readSeparator
  let hour ← readBetween 0 23
  readMark ':'
  let minute ← readBetween 0 59
  readMark ':'
  let second ← readBetween 0 60
  let nano ← readFraction
  skipBlanks
  let offset ← readOffset
  skipBlanks
  unless (← get).isEmpty do throw .tooLong
  let leap := second == 60
  ofLocal ⟨year, month, day⟩ (hour * 3600 + minute * 60 + if leap then 59 else second)
    (nano + if leap then 1000000000 else 0) offset

/-- Reads an instant. -/
def parse (s : String) : Except InstantFault Instant :=
  readInstant.run' s.toList

/-! ### Writing -/

/-- A number with at least so many digits. -/
def padded (width n : Nat) : List Char :=
  let ds := Nat.toDigits 10 n
  List.replicate (width - ds.length) '0' ++ ds

/-- A year: four digits, or a sign and at least four when it has more or is negative. -/
def yearChars (y : Int) : List Char :=
  if 0 ≤ y && y ≤ 9999 then padded 4 y.toNat
  else (if y < 0 then '-' else '+') :: padded 4 y.natAbs

/-- The digits of a second after a point, as many as are needed. -/
def fractionChars (nano : Nat) : List Char :=
  if nano == 0 then []
  else if nano % 1000000 == 0 then '.' :: padded 3 (nano / 1000000)
  else if nano % 1000 == 0 then '.' :: padded 6 (nano / 1000)
  else '.' :: padded 9 nano

/-- The text of an instant, in universal time. -/
def text (t : Instant) : String :=
  let d := dateOf t.day
  let leap := 1000000000 ≤ t.nano
  let second := t.second % 60 + if leap then 1 else 0
  let nano := if leap then t.nano - 1000000000 else t.nano
  String.ofList (yearChars d.year ++ '-' :: padded 2 d.month ++ '-' :: padded 2 d.day ++
    'T' :: padded 2 (t.second / 3600) ++ ':' :: padded 2 (t.second / 60 % 60) ++
    ':' :: padded 2 second ++ fractionChars nano ++ ['Z'])

end Instant

end ExtractionContract
