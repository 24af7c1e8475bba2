import ExtractionContract.Json.Reader

/-!
# The tokens of a JSON text

A text is read as a run of tokens: brackets, commas and colons, string literals by what stands
between their quotes, and the unquoted numbers and words. Blanks may stand between tokens and
mean nothing, so what a text says is said by its tokens.

* `Json.Laid`: a text in which tokens stand in order with nothing but blanks between them.
* `Laid.unique`: a text divides into tokens in one way.
-/

namespace ExtractionContract

namespace Json

open Text

/-! ### Tokens -/

/-- A part of a text that blanks may stand around. -/
inductive Token where
  /-- A bracket, a brace, a comma or a colon. -/
  | punct (c : Char)
  /-- A string literal, by the characters between its quotes. -/
  | literal (raw : List Char)
  /-- A number or a word. -/
  | scalar (cs : List Char)

/-- The characters that are tokens by themselves. -/
def isPunct (c : Char) : Bool :=
  c == '[' || c == ']' || c == '{' || c == '}' || c == ',' || c == ':'

/-- The characters of numbers and words. -/
def isScalarChar (c : Char) : Bool :=
  c.isAlphanum || c == '+' || c == '-' || c == '.'

/-- Whether a number or a word ends before a text. -/
def atBoundary : List Char → Bool
  | [] => true
  | c :: _ => !isScalarChar c

/-- What may stand between the delimiters of a literal when some characters end one: each of
those stands after an escaping backslash. -/
inductive Content (ends : Char → Bool) : List Char → Prop
  | nil : Content ends []
  | char {c : Char} {raw : List Char} :
    c ≠ '\\' → ends c = false → Content ends raw → Content ends (c :: raw)
  | escape {c : Char} {raw : List Char} : Content ends raw → Content ends ('\\' :: c :: raw)

/-- The double quote, which ends a literal. -/
def isQuote (c : Char) : Bool :=
  c == '"'

/-- A text in which tokens stand in order with nothing but blanks around them. -/
inductive Laid : List Token → List Char → Prop
  | done : Laid [] []
  | blank {ts : List Token} {c : Char} {cs : List Char} :
    isSpace c = true → Laid ts cs → Laid ts (c :: cs)
  | punct {ts : List Token} {c : Char} {cs : List Char} :
    isPunct c = true → Laid ts cs → Laid (.punct c :: ts) (c :: cs)
  | literal {ts : List Token} {raw cs : List Char} :
    Content isQuote raw → Laid ts cs → Laid (.literal raw :: ts) ('"' :: (raw ++ '"' :: cs))
  | scalar {ts : List Token} {w cs : List Char} :
    w ≠ [] → (∀ c ∈ w, isScalarChar c = true) → atBoundary cs = true → Laid ts cs →
    Laid (.scalar w :: ts) (w ++ cs)

/-! ### Blanks -/

theorem skipSpace_cons_of_space {c : Char} {cs : List Char} (h : isSpace c = true) :
    skipSpace (c :: cs) = skipSpace cs :=
  List.dropWhile_cons_of_pos h

theorem skipSpace_cons_of_not_space {c : Char} {cs : List Char} (h : isSpace c = false) :
    skipSpace (c :: cs) = c :: cs :=
  List.dropWhile_cons_of_neg (by simp [h])

theorem isSpace_of_skipSpace_eq_cons {c : Char} {cs r : List Char} (h : skipSpace cs = c :: r) :
    isSpace c = false := by
  rw [skipSpace] at h
  have hne : cs.dropWhile isSpace ≠ [] := by simp [h]
  simpa only [h, List.head_cons] using List.head_dropWhile_not isSpace hne

/-- Blanks are one of four characters. -/
theorem eq_of_isSpace {c : Char} (h : isSpace c = true) :
    c = ' ' ∨ c = '\n' ∨ c = '\t' ∨ c = '\r' := by
  simpa [isSpace, or_assoc] using h

/-- Tokens of one character are one of six. -/
theorem eq_of_isPunct {c : Char} (h : isPunct c = true) :
    c = '[' ∨ c = ']' ∨ c = '{' ∨ c = '}' ∨ c = ',' ∨ c = ':' := by
  simpa [isPunct, or_assoc] using h

theorem isSpace_of_isPunct {c : Char} (h : isPunct c = true) : isSpace c = false := by
  rcases eq_of_isPunct h with rfl | rfl | rfl | rfl | rfl | rfl <;> decide

theorem isSpace_of_isScalarChar {c : Char} (h : isScalarChar c = true) : isSpace c = false := by
  rw [← Bool.not_eq_true]
  intro hc
  rcases eq_of_isSpace hc with rfl | rfl | rfl | rfl <;> exact absurd h (by decide)

namespace Laid

variable {ts : List Token} {cs : List Char}

/-- Each token takes a character. -/
theorem length_le (h : Laid ts cs) : ts.length ≤ cs.length := by
  induction h with
  | done => exact Nat.le_refl _
  | blank _ _ ih => exact Nat.le_succ_of_le ih
  | punct _ _ ih => exact Nat.succ_le_succ ih
  | literal _ _ ih => simp only [List.length_cons, List.length_append]; omega
  | scalar hne _ _ _ ih =>
    have := List.length_pos_iff.mpr hne
    simp only [List.length_cons, List.length_append]
    omega

theorem of_skipSpace (h : Laid ts (skipSpace cs)) : Laid ts cs := by
  induction cs with
  | nil => exact h
  | cons c cs ih =>
    by_cases hc : isSpace c = true
    · exact .blank hc (ih (by rwa [skipSpace_cons_of_space hc] at h))
    · rwa [skipSpace_cons_of_not_space (by simpa using hc)] at h

theorem skipSpace (h : Laid ts cs) : Laid ts (skipSpace cs) := by
  induction h with
  | done => exact .done
  | blank hc _ ih => rwa [skipSpace_cons_of_space hc]
  | punct hc h _ =>
    rw [skipSpace_cons_of_not_space (isSpace_of_isPunct hc)]
    exact .punct hc h
  | literal hraw h _ =>
    rw [skipSpace_cons_of_not_space (by decide)]
    exact .literal hraw h
  | @scalar _ w _ hne hw hb h _ =>
    obtain ⟨c, w, rfl⟩ := List.exists_cons_of_ne_nil hne
    rw [List.cons_append, skipSpace_cons_of_not_space (isSpace_of_isScalarChar (hw c (by simp)))]
    exact .scalar hne hw hb h

/-! ### The first token -/

theorem eq_nil (h : Laid [] cs) : Json.skipSpace cs = [] := by
  have h' := h.skipSpace
  cases hcs : Json.skipSpace cs with
  | nil => rfl
  | cons c r =>
    rw [hcs] at h'
    cases h' with
    | blank hc _ => exact absurd hc (by simp [isSpace_of_skipSpace_eq_cons hcs])

theorem eq_punct {c : Char} (h : Laid (.punct c :: ts) cs) :
    ∃ r, Json.skipSpace cs = c :: r ∧ Laid ts r := by
  have h' := h.skipSpace
  generalize hcs : Json.skipSpace cs = next at h'
  cases h' with
  | blank hc _ => exact absurd hc (by simp [isSpace_of_skipSpace_eq_cons hcs])
  | punct _ h' => exact ⟨_, rfl, h'⟩

theorem eq_literal {raw : List Char} (h : Laid (.literal raw :: ts) cs) :
    ∃ r, Json.skipSpace cs = '"' :: (raw ++ '"' :: r) ∧ Content isQuote raw ∧ Laid ts r := by
  have h' := h.skipSpace
  generalize hcs : Json.skipSpace cs = next at h'
  cases h' with
  | blank hc _ => exact absurd hc (by simp [isSpace_of_skipSpace_eq_cons hcs])
  | literal hraw h' => exact ⟨_, rfl, hraw, h'⟩

theorem eq_scalar {w : List Char} (h : Laid (.scalar w :: ts) cs) :
    ∃ r, Json.skipSpace cs = w ++ r ∧ (∀ c ∈ w, isScalarChar c = true) ∧ atBoundary r = true ∧
      Laid ts r := by
  have h' := h.skipSpace
  generalize hcs : Json.skipSpace cs = next at h'
  cases h' with
  | blank hc _ => exact absurd hc (by simp [isSpace_of_skipSpace_eq_cons hcs])
  | scalar _ hw hb h' => exact ⟨_, rfl, hw, hb, h'⟩

end Laid

/-! ### One way to divide a text -/

/-- A literal ends with the first quote that is not content. -/
theorem Content.unique {raw raw' cs cs' : List Char} (h : Content isQuote raw)
    (h' : Content isQuote raw') (heq : raw ++ '"' :: cs = raw' ++ '"' :: cs') :
    raw = raw' ∧ cs = cs' := by
  -- Content has no quote but behind a backslash, so neither of the two ends before the other.
  induction h generalizing raw' with
  | nil =>
    cases h' with
    | nil => exact ⟨rfl, List.tail_eq_of_cons_eq heq⟩
    | char _ hc _ =>
      cases heq
      exact absurd hc (by decide)
    | escape _ => cases heq
  | char hslash hc _ ih =>
    cases h' with
    | nil =>
      cases heq
      exact absurd hc (by decide)
    | char _ _ h' =>
      obtain ⟨rfl, htail⟩ := List.cons.inj heq
      obtain ⟨rfl, rfl⟩ := ih h' htail
      exact ⟨rfl, rfl⟩
    | escape _ => exact absurd (List.cons.inj heq).1 hslash
  | escape _ ih =>
    cases h' with
    | nil => cases heq
    | char hslash _ _ => exact absurd (List.cons.inj heq).1.symm hslash
    | escape h' =>
      obtain ⟨rfl, htail⟩ := List.cons.inj (List.cons.inj heq).2
      obtain ⟨rfl, rfl⟩ := ih h' htail
      exact ⟨rfl, rfl⟩

/-- A number or a word goes on to its boundary. -/
theorem scalar_unique {w w' cs cs' : List Char} (hw : ∀ c ∈ w, isScalarChar c = true)
    (hw' : ∀ c ∈ w', isScalarChar c = true) (hcs : atBoundary cs = true)
    (hcs' : atBoundary cs' = true) (heq : w ++ cs = w' ++ cs') : w = w' ∧ cs = cs' := by
  induction w generalizing w' with
  | nil =>
    cases w' with
    | nil => exact ⟨rfl, heq⟩
    | cons c w' =>
      obtain rfl : cs = c :: (w' ++ cs') := heq
      simp [atBoundary, hw' c List.mem_cons_self] at hcs
  | cons c w ih =>
    cases w' with
    | nil =>
      obtain rfl : c :: (w ++ cs) = cs' := heq
      simp [atBoundary, hw c List.mem_cons_self] at hcs'
    | cons c' w' =>
      obtain ⟨rfl, htail⟩ := List.cons.inj heq
      obtain ⟨rfl, rfl⟩ := ih (fun c hc => hw c (List.mem_cons_of_mem _ hc))
        (fun c hc => hw' c (List.mem_cons_of_mem _ hc)) htail
      exact ⟨rfl, rfl⟩

/-- The shapes of tokens, which their first characters tell apart. -/
inductive Shape where
  | punct | literal | scalar
deriving DecidableEq

/-- The shape of a token. -/
def Token.shape : Token → Shape
  | .punct _ => .punct
  | .literal _ => .literal
  | .scalar _ => .scalar

/-- The shape of the token that a character begins. -/
def shapeAt (c : Char) : Shape :=
  if isPunct c then .punct else if isQuote c then .literal else .scalar

theorem shapeAt_of_isScalarChar {c : Char} (h : isScalarChar c = true) : shapeAt c = .scalar := by
  have hpunct : isPunct c = false := by
    rw [← Bool.not_eq_true]
    intro hc
    rcases eq_of_isPunct hc with rfl | rfl | rfl | rfl | rfl | rfl <;> exact absurd h (by decide)
  have hquote : isQuote c = false := by
    rw [← Bool.not_eq_true]
    intro hc
    obtain rfl : c = '"' := by simpa [isQuote] using hc
    exact absurd h (by decide)
  simp [shapeAt, hpunct, hquote]

theorem Laid.shape {t : Token} {ts : List Token} {cs : List Char} (h : Laid (t :: ts) cs) :
    ∃ c r, Json.skipSpace cs = c :: r ∧ shapeAt c = t.shape := by
  generalize htokens : t :: ts = tokens at h
  induction h with
  | done => cases htokens
  | blank hc _ ih =>
    rw [skipSpace_cons_of_space hc]
    exact ih htokens
  | punct hc =>
    cases htokens
    refine ⟨_, _, skipSpace_cons_of_not_space (isSpace_of_isPunct hc), ?_⟩
    rw [shapeAt, if_pos hc]
    rfl
  | literal =>
    cases htokens
    exact ⟨'"', _, skipSpace_cons_of_not_space (by decide), rfl⟩
  | scalar hne hw =>
    cases htokens
    obtain ⟨c, w, rfl⟩ := List.exists_cons_of_ne_nil hne
    have hc := hw c List.mem_cons_self
    exact ⟨_, _, skipSpace_cons_of_not_space (isSpace_of_isScalarChar hc),
      shapeAt_of_isScalarChar hc⟩

/-- **A text divides into tokens in one way.** -/
theorem Laid.unique {ts ts' : List Token} {cs : List Char} (h : Laid ts cs) (h' : Laid ts' cs) :
    ts = ts' := by
  induction ts generalizing ts' cs with
  | nil =>
    cases ts' with
    | nil => rfl
    | cons t' ts' =>
      obtain ⟨c, r, hcs, -⟩ := h'.shape
      cases h.eq_nil.symm.trans hcs
  | cons t ts ih =>
    obtain ⟨c, r, hcs, hshape⟩ := h.shape
    cases ts' with
    | nil => cases h'.eq_nil.symm.trans hcs
    | cons t' ts' =>
      obtain ⟨c', r', hcs', hshape'⟩ := h'.shape
      cases hcs.symm.trans hcs'
      -- Both first tokens begin with the same character, so they have the same shape.
      have hsame := hshape.symm.trans hshape'
      cases t with
      | punct p =>
        cases t' with
        | literal | scalar => cases hsame
        | punct p' =>
          obtain ⟨r, heq, h⟩ := h.eq_punct
          obtain ⟨r', heq', h'⟩ := h'.eq_punct
          cases heq.symm.trans heq'
          rw [ih h h']
      | literal raw =>
        cases t' with
        | punct | scalar => cases hsame
        | literal raw' =>
          obtain ⟨r, heq, hraw, h⟩ := h.eq_literal
          obtain ⟨r', heq', hraw', h'⟩ := h'.eq_literal
          obtain ⟨rfl, rfl⟩ := hraw.unique hraw' (List.cons.inj (heq.symm.trans heq')).2
          rw [ih h h']
      | scalar w =>
        cases t' with
        | punct | literal => cases hsame
        | scalar w' =>
          obtain ⟨r, heq, hw, hb, h⟩ := h.eq_scalar
          obtain ⟨r', heq', hw', hb', h'⟩ := h'.eq_scalar
          obtain ⟨rfl, rfl⟩ := scalar_unique hw hw' hb hb' (heq.symm.trans heq')
          rw [ih h h']

end Json

end ExtractionContract
