import ExtractionContract.Json.Shape
import ExtractionContract.Text.Case

/-!
# Labels of keys

A label is what a person reads for a key. Known keys have their labels in a dictionary; the
label of any other key is made from the words of its last segment.

* `Labels.builtIn`: the dictionary of common business terms.
* `Labels.humanize`: the label of a key.
-/

namespace ExtractionContract

/-- Labels by key, or by the last segment of one. -/
structure Labels where
  entries : List (String × String)

namespace Labels

/-- The dictionary without entries. -/
def empty : Labels := ⟨[]⟩

/-- The label of a key. -/
def get? (labels : Labels) (key : String) : Option String :=
  labels.entries.lookup key

/-- The dictionary with a label given. -/
def insert (labels : Labels) (key label : String) : Labels :=
  ⟨Members.put key label labels.entries⟩

/-- The number of labels. -/
def size (labels : Labels) : Nat :=
  labels.entries.length

/-- Common business terms. -/
def builtIn : Labels := ⟨[
  ("invoice_no", "Invoice Number"),
  ("invoice_code", "Invoice Code"),
  ("invoice_date", "Invoice Date"),
  ("buyer_info", "Buyer"),
  ("seller_info", "Seller"),
  ("tax_id", "Tax ID"),
  ("tax_rate", "Tax Rate"),
  ("tax_amount", "Tax Amount"),
  ("amount", "Amount"),
  ("total_amount", "Total Amount"),
  ("qty", "Quantity"),
  ("unit_price", "Unit Price"),
  ("items", "Line Items"),
  ("remark", "Remarks"),
  ("inspector", "Inspector"),
  ("result", "Inspection Result")]⟩

/-! ### Labels of unknown keys -/

/-- The characters after the last dot. -/
def lastSegment (cs : List Char) : List Char :=
  (cs.reverse.takeWhile (· != '.')).reverse

/-- The pieces between underscores, of which there is always a first one. -/
def pieces : List Char → List (List Char)
  | [] => [[]]
  | c :: rest =>
    if c = '_' then [] :: pieces rest
    else match pieces rest with
      | [] => [[c]]
      | w :: ws => (c :: w) :: ws

/-- The words of a segment: its pieces but the empty ones. -/
def wordsOf (segment : List Char) : List (List Char) :=
  (pieces segment).filter fun w => !w.isEmpty

/-- The words of a segment, each with its first character in upper case. -/
def spelledOut (segment : List Char) : String :=
  String.intercalate " " ((wordsOf segment).map fun w => String.ofList (Text.capitalize w))

/-- The label of a key: that of its last segment, else that of the whole key, else the words
of its last segment. -/
def humanize (labels : Labels) (key : String) : String :=
  let segment := lastSegment key.toList
  ((labels.get? (String.ofList segment)).or (labels.get? key)).getD (spelledOut segment)

/-! ### Labels as JSON -/

/-- A dictionary as an object. -/
def toJson (labels : Labels) : Json :=
  .obj (labels.entries.map fun e => (e.1, .str e.2))

/-- Reads a dictionary. -/
def ofJson (v : Json) : Shaped Labels :=
  (v.asPairs .ok Json.asString).map fun es => ⟨Members.collapse es⟩

end Labels

end ExtractionContract
