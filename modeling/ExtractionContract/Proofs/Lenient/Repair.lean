import ExtractionContract.Proofs.Lenient.Decoration

/-!
# Repairs undo decorations

Each repair undoes one kind of decoration and leaves the others: dropping comments leaves a
text without comments (`Decorated.commentsFrom`), straightening quotes leaves plain literals
(`Decorated.straightenFrom`), and dropping commas leaves nothing but the tokens
(`Decorated.laid_commasFrom`). The three passes keep in step with the literals for the same
reason, stated once: inside a literal they keep every character that does not end it
(`pass_content`).
-/

namespace ExtractionContract

namespace Lenient

open Json (Token Content Laid isPunct isScalarChar isSpace isQuote isCloser atBoundary)

/-! ### Places -/

theorem Place.next_outside {reading : Reading} {c : Char} (h : isDoubleQuote c = false) :
    Place.outside.next reading c = .outside := by
  have hplain : (c == '"') = false := by
    rw [← Bool.not_eq_true]
    intro hc
    simp [isDoubleQuote, hc] at h
  cases reading <;> simp [Place.next, Reading.opens, h, hplain]

theorem Place.next_opens (reading : Reading) {q : Char} (h : reading.opens q = true) :
    Place.outside.next reading q = .inside (q != '"') := by
  simp [Place.next, h]

theorem Place.next_closes {reading : Reading} {curly : Bool} {q : Char}
    (h : closes curly q = true) : (Place.inside curly).next reading q = .outside := by
  have hslash : q ≠ '\\' := by
    rintro rfl
    cases curly <;> exact absurd h (by decide)
  simp [Place.next, h, hslash]

theorem Place.next_backslash {reading : Reading} {curly : Bool} :
    (Place.inside curly).next reading '\\' = .escaped curly :=
  rfl

theorem Place.next_escaped {reading : Reading} {curly : Bool} {c : Char} :
    (Place.escaped curly).next reading c = .inside curly :=
  rfl

theorem Place.next_char {reading : Reading} {curly : Bool} {c : Char} (hc : c ≠ '\\')
    (h : closes curly c = false) : (Place.inside curly).next reading c = .inside curly := by
  simp [Place.next, hc, h]

/-! ### Passes over a text -/

/-- A pass that keeps each character of a run keeps the run. -/
theorem pass_append (pass : List Char → List Char) {w cs : List Char}
    (hkeep : ∀ c ∈ w, ∀ cs, pass (c :: cs) = c :: pass cs) : pass (w ++ cs) = w ++ pass cs := by
  induction w with
  | nil => rfl
  | cons c w ih =>
    obtain ⟨hc, hw⟩ := List.forall_mem_cons.mp hkeep
    rw [List.cons_append, hc, ih hw, List.cons_append]

/-- A pass that keeps the characters inside literals keeps the content of a literal. -/
theorem pass_content (pass : Place → List Char → List Char) (reading : Reading)
    (hkeep : ∀ p c cs, p ≠ .outside → (∀ curly, p = .inside curly → closes curly c = false) →
      pass p (c :: cs) = c :: pass (p.next reading c) cs)
    {curly : Bool} {raw cs : List Char} (h : Content (closes curly) raw) :
    pass (.inside curly) (raw ++ cs) = raw ++ pass (.inside curly) cs := by
  induction h with
  | nil => rfl
  | char hc hcloses _ ih =>
    rw [List.cons_append, hkeep _ _ _ (by simp) (by rintro _ ⟨⟩; exact hcloses),
      Place.next_char hc hcloses, ih, List.cons_append]
  | escape _ ih =>
    have hslash : closes curly '\\' = false := by cases curly <;> decide
    rw [List.cons_append, List.cons_append, hkeep _ _ _ (by simp) (by rintro _ ⟨⟩; exact hslash),
      Place.next_backslash, hkeep _ _ _ (by simp) (by rintro _ ⟨⟩), Place.next_escaped, ih,
      List.cons_append, List.cons_append]

/-! ### Comments -/

theorem commentsFrom_nil (p : CommentPlace) : commentsFrom p [] = [] := by
  simp [commentsFrom]

theorem commentsFrom_cons {c : Char} {cs : List Char} {p : Place} (h : p ≠ .outside ∨ c ≠ '/') :
    commentsFrom (.text p) (c :: cs) = c :: commentsFrom (.text (p.next .typographic c)) cs := by
  rw [commentsFrom.eq_def]
  split <;> simp_all

theorem commentsFrom_neutral {c : Char} {cs : List Char} (h : Neutral c) :
    commentsFrom (.text .outside) (c :: cs) = c :: commentsFrom (.text .outside) cs := by
  rw [commentsFrom_cons (.inr h.slash), Place.next_outside h.quote]

theorem commentsFrom_line {body cs : List Char} (h : '\n' ∉ body) :
    commentsFrom .line (body ++ '\n' :: cs) = '\n' :: commentsFrom (.text .outside) cs := by
  induction body with
  | nil => simp [commentsFrom]
  | cons c body ih =>
    obtain ⟨hc, hbody⟩ := not_or.mp (List.mem_cons.not.mp h)
    rw [List.cons_append, commentsFrom, if_neg (Ne.symm hc), ih hbody]

theorem commentsFrom_lastLine {body : List Char} (h : '\n' ∉ body) :
    commentsFrom .line body = [] := by
  induction body with
  | nil => simp [commentsFrom]
  | cons c body ih =>
    obtain ⟨hc, hbody⟩ := not_or.mp (List.mem_cons.not.mp h)
    rw [commentsFrom, if_neg (Ne.symm hc), ih hbody]

/-- A comment over several lines goes on as long as no star stands before a slash. -/
theorem exists_commentsFrom_block {star : Bool} {body : List Char} (h : ¬['*', '/'] <:+: body)
    (hstar : star = true → body.head? ≠ some '/') (cs : List Char) :
    ∃ star', commentsFrom (.block star) (body ++ cs) = commentsFrom (.block star') cs := by
  induction body generalizing star with
  | nil => exact ⟨star, rfl⟩
  | cons c body ih =>
    have hc : (star && c == '/') = false := by
      cases star <;> simp_all
    rw [List.cons_append, commentsFrom, hc, if_neg (by simp)]
    refine ih (fun hwithin => h (hwithin.trans (List.suffix_cons c body).isInfix)) ?_
    intro hstar' hhead
    -- A star and then a slash would have ended the comment here.
    obtain ⟨body, rfl⟩ : ∃ r, body = '/' :: r := by
      cases body with
      | nil => simp at hhead
      | cons x r => simp at hhead; exact ⟨r, by rw [hhead]⟩
    rw [beq_iff_eq.mp hstar'] at h
    exact h ⟨[], body, rfl⟩

theorem commentsFrom_block {star : Bool} {body cs : List Char} (h : ¬['*', '/'] <:+: body)
    (hstar : star = true → body.head? ≠ some '/') :
    commentsFrom (.block star) (body ++ '*' :: '/' :: cs) = commentsFrom (.text .outside) cs := by
  obtain ⟨star', hend⟩ := exists_commentsFrom_block h hstar ('*' :: '/' :: cs)
  rw [hend]
  simp [commentsFrom]

theorem commentsFrom_literal {raw cs : List Char} {q q' : Char} {reading : Reading}
    (hraw : Content isQuote raw) (hq : Delimits raw reading q q') :
    commentsFrom (.text .outside) (q :: (raw ++ q' :: cs)) =
      q :: (raw ++ q' :: commentsFrom (.text .outside) cs) := by
  obtain ⟨-, hquote, hcloses, hcontent⟩ := hq.spec hraw
  have hslash : q ≠ '/' := by
    rintro rfl
    exact absurd hquote (by decide)
  rw [commentsFrom_cons (.inr hslash), Place.next_opens .typographic hquote,
    pass_content (fun p => commentsFrom (.text p)) .typographic
      (fun _ _ _ hp _ => commentsFrom_cons (.inl hp)) hcontent,
    commentsFrom_cons (.inl (by simp)), Place.next_closes hcloses]

theorem atBoundary_commentsFrom_line (cs : List Char) :
    atBoundary (commentsFrom .line cs) = true := by
  induction cs with
  | nil => simp [commentsFrom, atBoundary]
  | cons c cs ih =>
    rw [commentsFrom]
    split
    · rfl
    · exact ih

theorem atBoundary_commentsFrom {cs : List Char} (h : atBoundary cs = true) :
    atBoundary (commentsFrom (.text .outside) cs) = true := by
  rw [commentsFrom.eq_def]
  split
  · exact h
  · next heq => cases heq
  · next heq => cases heq
  · exact atBoundary_commentsFrom_line _
  · rfl
  · next heq => cases heq; exact h

/-- **Dropping comments leaves the other decorations.** -/
theorem Decorated.commentsFrom {k b : Bool} {ts : List Token} {d : List Char}
    (h : Decorated .typographic k b ts d) :
    Decorated .typographic false b ts (commentsFrom (.text .outside) d) := by
  -- A comment leaves a blank character where it stood, unless the text ends with it.
  induction h with
  | done => exact .done
  | blank hc _ ih =>
    rw [commentsFrom_neutral (.of_isSpace hc)]
    exact .blank hc ih
  | line hbody _ ih =>
    rw [Lenient.commentsFrom, commentsFrom_line hbody]
    exact .blank (by decide) ih
  | lastLine hbody =>
    rw [Lenient.commentsFrom, commentsFrom_lastLine hbody]
    exact .done
  | block hbody _ ih =>
    rw [Lenient.commentsFrom, commentsFrom_block hbody (by simp)]
    exact .blank (by decide) ih
  | comma hc _ ih =>
    rw [commentsFrom_neutral (.of_isPunct (by decide))]
    exact .comma hc ih
  | punct hc _ ih =>
    rw [commentsFrom_neutral (.of_isPunct hc)]
    exact .punct hc ih
  | literal hraw hq _ ih =>
    rw [commentsFrom_literal hraw hq]
    exact .literal hraw hq ih
  | scalar hne hw hb _ ih =>
    rw [pass_append _ fun c hc _ => commentsFrom_neutral (.of_isScalarChar (hw c hc))]
    exact .scalar hne hw (atBoundary_commentsFrom hb) ih

/-! ### Quotes -/

theorem straighten_neutral {c : Char} (h : Neutral c) : straighten .outside c = c := by
  simp [straighten, h.quote, h.single]

theorem straightenFrom_neutral {c : Char} {cs : List Char} (h : Neutral c) :
    straightenFrom .outside (c :: cs) = c :: straightenFrom .outside cs := by
  rw [straightenFrom, straighten_neutral h, Place.next_outside h.quote]

theorem straightenFrom_inside {p : Place} {c : Char} {cs : List Char} (hp : p ≠ .outside)
    (h : ∀ curly, p = .inside curly → closes curly c = false) :
    straightenFrom p (c :: cs) = c :: straightenFrom (p.next .typographic c) cs := by
  cases p with
  | outside => exact absurd rfl hp
  | inside curly => rw [straightenFrom, straighten, h curly rfl, if_neg (by simp)]
  | escaped curly => rfl

theorem straightenFrom_literal {raw cs : List Char} {q q' : Char} {reading : Reading}
    (hraw : Content isQuote raw) (hq : Delimits raw reading q q') :
    straightenFrom .outside (q :: (raw ++ q' :: cs)) =
      '"' :: (raw ++ '"' :: straightenFrom .outside cs) := by
  obtain ⟨-, hquote, hcloses, hcontent⟩ := hq.spec hraw
  rw [straightenFrom, Place.next_opens .typographic hquote,
    pass_content straightenFrom .typographic (fun _ _ _ => straightenFrom_inside) hcontent,
    straightenFrom, Place.next_closes hcloses]
  simp [straighten, hquote, hcloses]

theorem atBoundary_straightenFrom {cs : List Char} (h : atBoundary cs = true) :
    atBoundary (straightenFrom .outside cs) = true := by
  cases cs with
  | nil => rfl
  | cons c cs =>
    simp only [straightenFrom, straighten]
    split
    · rfl
    · split
      · rfl
      · exact h

/-- **Straightening quotes leaves the other decorations.** -/
theorem Decorated.straightenFrom {b : Bool} {ts : List Token} {d : List Char}
    (h : Decorated .typographic false b ts d) :
    Decorated .plain false b ts (straightenFrom .outside d) := by
  -- Comments are gone, so their rules make no decorated text.
  generalize hk : false = k at h
  induction h with
  | done => exact .done
  | blank hc _ ih =>
    rw [straightenFrom_neutral (.of_isSpace hc)]
    exact .blank hc (ih hk)
  | line => cases hk
  | lastLine => cases hk
  | block => cases hk
  | comma hc _ ih =>
    rw [straightenFrom_neutral (.of_isPunct (by decide))]
    exact .comma hc (ih hk)
  | punct hc _ ih =>
    rw [straightenFrom_neutral (.of_isPunct hc)]
    exact .punct hc (ih hk)
  | literal hraw hq _ ih =>
    rw [straightenFrom_literal hraw hq]
    exact .literal hraw .plain (ih hk)
  | scalar hne hw hb _ ih =>
    rw [pass_append _ fun c hc _ => straightenFrom_neutral (.of_isScalarChar (hw c hc))]
    exact .scalar hne hw (atBoundary_straightenFrom hb) (ih hk)

/-! ### Commas -/

theorem isBlank_of_isSpace {c : Char} (h : isSpace c = true) : Text.isBlank c = true := by
  rcases Json.eq_of_isSpace h with rfl | rfl | rfl | rfl <;> decide

/-- What is kept and is no comma is followed by no dropping. -/
theorem commasFrom_cons {p : Place} {c : Char} {cs : List Char} (h : p ≠ .outside ∨ c ≠ ',') :
    commasFrom false p (c :: cs) = c :: commasFrom false (p.next .plain c) cs := by
  rw [commasFrom, if_neg, if_neg (by simp)]
  rcases h with h | h <;> simp [h]

/-- A character that is neither blank nor comma is kept, and dropping ends with it. -/
theorem commasFrom_solid {dropping : Bool} {p : Place} {c : Char} {cs : List Char}
    (hblank : Text.isBlank c = false) (hcomma : c ≠ ',') :
    commasFrom dropping p (c :: cs) = c :: commasFrom false (p.next .plain c) cs := by
  rw [commasFrom, if_neg (by simp [hcomma]), if_neg (by simp [hblank])]

theorem commasFrom_literal {dropping : Bool} {raw cs : List Char} (hraw : Content isQuote raw) :
    commasFrom dropping .outside ('"' :: (raw ++ '"' :: cs)) =
      '"' :: (raw ++ '"' :: commasFrom false .outside cs) := by
  rw [commasFrom_solid (by decide) (by decide), Place.next_opens .plain (by decide),
    show ('"' != '"') = false from rfl,
    pass_content (commasFrom false) .plain (fun _ _ _ hp _ => commasFrom_cons (.inl hp))
      (closes_false ▸ hraw),
    commasFrom_cons (.inl (by simp)), Place.next_closes (by decide)]

theorem isBlank_of_isPunct {c : Char} (h : isPunct c = true) : Text.isBlank c = false := by
  rcases Json.eq_of_isPunct h with rfl | rfl | rfl | rfl | rfl | rfl <;> decide

/-- The characters of numbers and words are printed and from ASCII. -/
theorem toNat_of_isScalarChar {c : Char} (h : isScalarChar c = true) :
    0x20 < c.toNat ∧ c.toNat < 0x80 := by
  delta isScalarChar Char.isAlphanum Char.isAlpha Char.isUpper Char.isLower Char.isDigit at h
  simp only [Bool.or_eq_true, Bool.and_eq_true, decide_eq_true_eq, beq_iff_eq, or_assoc, ge_iff_le,
    UInt32.le_iff_toNat_le] at h
  change (65 ≤ c.toNat ∧ c.toNat ≤ 90) ∨ (97 ≤ c.toNat ∧ c.toNat ≤ 122) ∨
    (48 ≤ c.toNat ∧ c.toNat ≤ 57) ∨ c = '+' ∨ c = '-' ∨ c = '.' at h
  rcases h with h | h | h | rfl | rfl | rfl
  · omega
  · omega
  · omega
  all_goals decide

theorem isBlank_of_isScalarChar {c : Char} (h : isScalarChar c = true) :
    Text.isBlank c = false := by
  obtain ⟨hlow, hhigh⟩ := toNat_of_isScalarChar h
  simp only [Text.isBlank, Bool.or_eq_false_iff, Bool.and_eq_false_iff, decide_eq_false_iff_not,
    beq_eq_false_iff_ne]
  omega

theorem commasFrom_append {dropping : Bool} {w cs : List Char} (hne : w ≠ [])
    (h : ∀ c ∈ w, isScalarChar c = true) :
    commasFrom dropping .outside (w ++ cs) = w ++ commasFrom false .outside cs := by
  induction w generalizing dropping with
  | nil => exact absurd rfl hne
  | cons c w ih =>
    obtain ⟨hc, hw⟩ := List.forall_mem_cons.mp h
    have hcomma : c ≠ ',' := by
      rintro rfl
      exact absurd hc (by decide)
    rw [List.cons_append, commasFrom_solid (isBlank_of_isScalarChar hc) hcomma,
      Place.next_outside (Neutral.of_isScalarChar hc).quote, List.cons_append]
    by_cases hnil : w = []
    · subst hnil
      rfl
    · rw [ih hnil hw]

theorem closesNext_blank {c : Char} {cs : List Char} (h : Text.isBlank c = true) :
    closesNext (c :: cs) = closesNext cs := by
  rw [closesNext, closesNext, Text.trimStart, List.dropWhile_cons_of_pos h]
  rfl

theorem closesNext_solid {c : Char} {cs : List Char} (h : Text.isBlank c = false) :
    closesNext (c :: cs) = isCloser c := by
  rw [closesNext, Text.trimStart, List.dropWhile_cons_of_neg (by simp [h])]
  split
  · next heq => cases heq; rfl
  · next heq => cases heq; rfl
  · next hbracket hbrace =>
    refine (Bool.eq_false_iff.mpr fun hc => ?_).symm
    rcases (by simpa [isCloser] using hc : c = ']' ∨ c = '}') with rfl | rfl
    · exact hbracket cs rfl
    · exact hbrace cs rfl

theorem isCloser_of_isScalarChar {c : Char} (h : isScalarChar c = true) : isCloser c = false := by
  rw [← Bool.not_eq_true]
  intro hc
  rcases (by simpa [isCloser] using hc : c = ']' ∨ c = '}') with rfl | rfl <;>
    exact absurd h (by decide)

/-- Where no comma was put, a bracket closes next when it is the next token. -/
theorem Decorated.closesNext {k b : Bool} {ts : List Token} {d : List Char}
    (h : Decorated .plain k b ts d) (hk : k = false) (hb : b = false) :
    closesNext d = ts.head?.any fun t => !t.staysOpen := by
  induction h with
  | done => rfl
  | blank hc _ ih => rw [closesNext_blank (isBlank_of_isSpace hc), ih hk hb]
  | line => cases hk
  | lastLine => cases hk
  | block => cases hk
  | comma => cases hb
  | punct hc => simp [closesNext_solid (isBlank_of_isPunct hc), Token.staysOpen]
  | literal _ hq =>
    cases hq
    rw [closesNext_solid (by decide)]
    rfl
  | @scalar _ _ _ w _ hne hw =>
    obtain ⟨c, w, rfl⟩ := List.exists_cons_of_ne_nil hne
    have hc := hw c List.mem_cons_self
    rw [List.cons_append, closesNext_solid (isBlank_of_isScalarChar hc),
      isCloser_of_isScalarChar hc]
    rfl

/-- A comma that is a token stands before a token that closes nothing. -/
theorem Decorated.closesNext_of_comma {k : Bool} {ts : List Token} {d : List Char}
    (h : Decorated .plain k false ts d) (hk : k = false)
    (hts : Json.NoTrailingComma (.punct ',' :: ts)) : Lenient.closesNext d = false := by
  rw [h.closesNext hk rfl]
  cases ts with
  | nil => rfl
  | cons t ts => simpa using (List.isChain_cons_cons.mp hts).1 rfl

/-- A token of one character is kept, and dropping ends with it. -/
theorem commasFrom_punct {dropping : Bool} {c : Char} {cs : List Char} (hc : isPunct c = true)
    (hopen : c = ',' → closesNext cs = false) :
    commasFrom dropping .outside (c :: cs) = c :: commasFrom false .outside cs := by
  rw [commasFrom, if_neg (by simpa using hopen), if_neg (by simp [isBlank_of_isPunct hc]),
    Place.next_outside (Neutral.of_isPunct hc).quote]

/-- Blanks outside literals are dropped after a dropped comma only. -/
theorem commasFrom_blank {dropping : Bool} {c : Char} {cs : List Char}
    (h : Text.isBlank c = true) :
    commasFrom dropping .outside (c :: cs) =
      if dropping then commasFrom true .outside cs else c :: commasFrom false .outside cs := by
  have hcomma : (c == ',') = false := by
    rw [← Bool.not_eq_true, beq_iff_eq]
    rintro rfl
    exact absurd h (by decide)
  rw [commasFrom, if_neg (by simp [hcomma]), Place.next_outside (Neutral.of_isBlank h).quote]
  simp [h]

/-- A dropped comma leaves the bracket that closes next. -/
theorem commasFrom_of_closesNext {cs : List Char} (h : closesNext cs = true) :
    ∃ c r, commasFrom true .outside cs = c :: r ∧ isCloser c = true := by
  induction cs with
  | nil => exact absurd h (by decide)
  | cons c cs ih =>
    cases hblank : Text.isBlank c with
    | true =>
      rw [closesNext_blank hblank] at h
      rw [commasFrom_blank hblank, if_pos rfl]
      exact ih h
    | false =>
      rw [closesNext_solid hblank] at h
      refine ⟨c, _, commasFrom_solid hblank ?_, h⟩
      rintro rfl
      exact absurd h (by decide)

theorem atBoundary_commasFrom {cs : List Char} (h : atBoundary cs = true) :
    atBoundary (commasFrom false .outside cs) = true := by
  cases cs with
  | nil => simp [commasFrom, atBoundary]
  | cons c cs =>
    rw [commasFrom]
    split
    · next hdrop =>
      simp only [Bool.and_eq_true] at hdrop
      -- What is left begins with the bracket, which is no character of numbers and words.
      obtain ⟨c', r, heq, hc'⟩ := commasFrom_of_closesNext hdrop.2
      rw [heq, atBoundary, Bool.not_eq_true', ← Bool.not_eq_true]
      intro hchar
      simp [isCloser_of_isScalarChar hchar] at hc'
    · rw [if_neg (by simp)]
      exact h

/-- **Dropping trailing commas leaves the tokens of a text without them.** -/
theorem Decorated.laid_commasFrom {k b : Bool} {ts : List Token} {d : List Char}
    (h : Decorated .plain k b ts d) (hk : k = false) (hts : Json.NoTrailingComma ts) :
    ∀ dropping, Laid ts (commasFrom dropping .outside d) := by
  induction h with
  | done => exact fun _ => by simpa [commasFrom] using Laid.done
  | blank hc _ ih =>
    intro dropping
    rw [commasFrom_blank (isBlank_of_isSpace hc)]
    split
    · exact ih hk hts true
    · exact .blank hc (ih hk hts false)
  | line => cases hk
  | lastLine => cases hk
  | block => cases hk
  | @comma _ ts c cs hc h ih =>
    intro dropping
    -- A comma too many stands before a closing bracket, up to which blanks are dropped with it.
    have hcloses : Lenient.closesNext cs = true := by
      rw [h.closesNext hk rfl]
      simpa [Token.staysOpen] using hc
    rw [commasFrom, if_pos (by simp [hcloses])]
    exact ih hk hts true
  | @punct _ _ ts c cs hc h ih =>
    intro dropping
    rw [commasFrom_punct hc (by rintro rfl; exact h.closesNext_of_comma hk hts)]
    exact .punct hc (ih hk hts.tail false)
  | literal hraw hq _ ih =>
    intro dropping
    cases hq
    rw [commasFrom_literal hraw]
    exact .literal hraw (ih hk hts.tail false)
  | @scalar _ _ _ w cs hne hw hb _ ih =>
    intro dropping
    rw [commasFrom_append hne hw]
    exact .scalar hne hw (atBoundary_commasFrom hb) (ih hk hts.tail false)

end Lenient

end ExtractionContract
