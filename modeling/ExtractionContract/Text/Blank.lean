/-!
# Blank characters and trimming

`isBlank` holds of the characters with the property *White_Space*, and of no others: the
zero-width space and the byte order mark are not blank.

* `trim`: a string without the blank characters at its two ends.
* `trimList_trimList`: trimming twice is trimming once.
-/

namespace ExtractionContract.Text

/-- Whether a character is white space. -/
def isBlank (c : Char) : Bool :=
  let n := c.toNat
  (9 ≤ n && n ≤ 13) || n == 0x20 || n == 0x85 || n == 0xA0 || n == 0x1680 ||
    (0x2000 ≤ n && n ≤ 0x200A) || n == 0x2028 || n == 0x2029 || n == 0x202F || n == 0x205F ||
    n == 0x3000

/-- The characters from the first that is not blank on. -/
def trimStart (cs : List Char) : List Char :=
  cs.dropWhile isBlank

/-- The characters up to the last that is not blank. -/
def trimEnd (cs : List Char) : List Char :=
  (cs.reverse.dropWhile isBlank).reverse

/-- The characters without the blanks at both ends. -/
def trimList (cs : List Char) : List Char :=
  trimEnd (trimStart cs)

/-- A string without the blanks at both ends. -/
def trim (s : String) : String :=
  String.ofList (trimList s.toList)

example : isBlank '\u3000' = true := by decide
example : isBlank '\u200b' = false := by decide
example : trimList [' ', 'a', ' ', 'b', '\n'] = ['a', ' ', 'b'] := by decide

/-! ### Trimming twice -/

/-- Dropping a leading run twice is dropping it once. -/
theorem dropWhile_dropWhile (p : Char → Bool) (cs : List Char) :
    (cs.dropWhile p).dropWhile p = cs.dropWhile p := by
  induction cs with
  | nil => rfl
  | cons c rest ih =>
    by_cases h : p c
    · simp [h, ih]
    · simp [h]

/-- A text that does not begin with a blank still does not after its end is trimmed. -/
theorem trimStart_trimEnd (cs : List Char) (h : trimStart cs = cs) :
    trimStart (trimEnd cs) = trimEnd cs := by
  cases cs with
  | nil => rfl
  | cons c rest =>
    have hc : isBlank c = false := by
      cases hb : isBlank c with
      | false => rfl
      | true =>
        have hlen := congrArg List.length h
        simp only [trimStart, List.dropWhile_cons, hb, if_true, List.length_cons] at hlen
        have := (List.dropWhile_sublist isBlank (l := rest)).length_le
        omega
    have hsplit : trimEnd (c :: rest) = c :: trimEnd rest := by
      simp only [trimEnd, List.reverse_cons, List.dropWhile_append, List.dropWhile_cons, hc]
      cases hr : rest.reverse.dropWhile isBlank with
      | nil => simp
      | cons d ds => simp
    rw [hsplit]
    simp [trimStart, hc]

/-- **Trimming is idempotent.** -/
theorem trimList_trimList (cs : List Char) : trimList (trimList cs) = trimList cs := by
  have h : trimStart (trimList cs) = trimList cs :=
    trimStart_trimEnd _ (dropWhile_dropWhile isBlank cs)
  unfold trimList at h ⊢
  rw [h]
  simp [trimEnd, dropWhile_dropWhile]

end ExtractionContract.Text
