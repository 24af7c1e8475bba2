import ExtractionContract.Lenient.Literal
import ExtractionContract.Text.Blank

/-!
# Trailing commas

`dropTrailingCommas` drops a comma outside literals when nothing but blanks stands between it
and a closing bracket, and those blanks with it. Of two commas in a row it drops the last.
-/

namespace ExtractionContract

namespace Lenient

/-- Whether nothing but blanks stands before a closing bracket. -/
def closesNext (cs : List Char) : Bool :=
  match Text.trimStart cs with
  | ']' :: _ => true
  | '}' :: _ => true
  | _ => false

/-- Drops the trailing commas of a text that begins at a place. After a dropped comma the
blanks up to the bracket are dropped as well. -/
def commasFrom (dropping : Bool) (p : Place) : List Char → List Char
  | [] => []
  | c :: rest =>
    if p == .outside && c == ',' && closesNext rest then commasFrom true .outside rest
    -- Only blanks stand between a dropped comma and its bracket, so none is lost elsewhere.
    else if dropping && Text.isBlank c then commasFrom true p rest
    else c :: commasFrom false (p.next .plain c) rest

/-- A text without its trailing commas. -/
def dropTrailingCommas (s : String) : String :=
  String.ofList (commasFrom false .outside s.toList)

end Lenient

end ExtractionContract
