import ExtractionContract.Text.CaseTable

/-!
# Letter case

`lower` writes a string in lower case by the full mapping: the dotted capital I becomes two
characters, and a capital sigma becomes the final form where it ends a word. `capitalize`
writes the first character of a string in upper case, as a sequence where it needs one.
-/

namespace ExtractionContract.Text

/-- Whether the first character that is not skipped has letter case. -/
def casedNext (cs : List Char) : Bool :=
  match cs.dropWhile (inRanges caseIgnorableRanges) with
  | [] => false
  | c :: _ => inRanges casedRanges c

/-- The lower-case form of one character, without regard to its neighbours. -/
def lowerChar (c : Char) : List Char :=
  if c.toNat < 0x80 then [c.toLower]
  else if c = 'İ' then ['i', '\u0307']
  else [shiftBy lowerSpans c]

/-- The lower-case form of a text, given the characters before it, nearest first. A capital
sigma ends a word when a cased character stands before it and none stands after it. -/
def lowerFrom (before : List Char) : List Char → List Char
  | [] => []
  | c :: rest =>
    if c = 'Σ' then
      (if casedNext before && !casedNext rest then 'ς' else 'σ') :: lowerFrom (c :: before) rest
    else lowerChar c ++ lowerFrom (c :: before) rest

/-- A string in lower case. -/
def lower (s : String) : String :=
  String.ofList (lowerFrom [] s.toList)

/-- The upper-case form of one character. -/
def upperChar (c : Char) : List Char :=
  if c.toNat < 0x80 then [c.toUpper]
  else match upperSequences.lookup c.toNat with
    | some ns => ns.map Char.ofNat
    | none => [shiftBy upperSpans c]

/-- The characters with the first of them in upper case. -/
def capitalize : List Char → List Char
  | [] => []
  | c :: rest => upperChar c ++ rest

example : lowerFrom [] ['Σ', 'Α', 'Σ'] = ['σ', 'α', 'ς'] := by decide +kernel
example : capitalize ['ß', 'x'] = ['S', 'S', 'x'] := by decide +kernel

end ExtractionContract.Text
