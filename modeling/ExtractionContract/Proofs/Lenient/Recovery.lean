import ExtractionContract.Proofs.Lenient.Repair

/-!
# Recovering decorated documents

A decorated document is read with the value of the document (`recover_decorated`). Without a
comment the second stage undoes the decorations, and if the first stage can read the text, the
second reads the same from it. With a comment the first two stages fail: the comment begins
with a slash outside the literals, which no document has, and neither straightening quotes nor
dropping commas takes it away or into a literal.
-/

namespace ExtractionContract

namespace Lenient

open Json (Token Content Laid isQuote)

variable {reading : Reading}

/-! ### Slashes outside literals -/

/-- Whether a slash stands outside literals, which it does in no document. -/
def slashOutside (reading : Reading) : Place → List Char → Bool
  | _, [] => false
  | p, c :: cs => decide (p = .outside ∧ c = '/') || slashOutside reading (p.next reading c) cs

theorem slashOutside_neutral {c : Char} {cs : List Char} (h : Neutral c) :
    slashOutside reading .outside (c :: cs) = slashOutside reading .outside cs := by
  rw [slashOutside, Place.next_outside h.quote]
  simp [h.slash]

theorem slashOutside_append {w cs : List Char} (h : ∀ c ∈ w, Neutral c) :
    slashOutside reading .outside (w ++ cs) = slashOutside reading .outside cs := by
  induction w with
  | nil => rfl
  | cons c w ih =>
    obtain ⟨hc, hw⟩ := List.forall_mem_cons.mp h
    rw [List.cons_append, slashOutside_neutral hc, ih hw]

theorem slashOutside_content {curly : Bool} {raw cs : List Char} (h : Content (closes curly) raw) :
    slashOutside reading (.inside curly) (raw ++ cs) =
      slashOutside reading (.inside curly) cs := by
  induction h with
  | nil => rfl
  | char hc hcloses _ ih =>
    rw [List.cons_append, slashOutside, Place.next_char hc hcloses, ih]
    simp
  | escape _ ih =>
    rw [List.cons_append, List.cons_append, slashOutside, slashOutside]
    simpa [Place.next] using ih

theorem slashOutside_literal {raw cs : List Char} {q q' : Char}
    (hraw : Content isQuote raw) (hq : Delimits raw reading q q') :
    slashOutside reading .outside (q :: (raw ++ q' :: cs)) = slashOutside reading .outside cs := by
  obtain ⟨hopens, hquote, hcloses, hcontent⟩ := hq.spec hraw
  have hslash : q ≠ '/' := by
    rintro rfl
    exact absurd hquote (by decide)
  rw [slashOutside, Place.next_opens reading hopens, slashOutside_content hcontent, slashOutside,
    Place.next_closes hcloses]
  simp [hslash]

/-- **A slash stands outside the literals of a decorated text just when it has a comment.** -/
theorem Decorated.slashOutside {k b : Bool} {ts : List Token} {d : List Char}
    (h : Decorated reading k b ts d) : slashOutside reading .outside d = k := by
  induction h with
  | done => rfl
  | blank hc _ ih => rw [slashOutside_neutral (.of_isSpace hc), ih]
  | line | lastLine | block => rfl
  | comma _ _ ih => rw [slashOutside_neutral (.of_isPunct (by decide)), ih]
  | punct hc _ ih => rw [slashOutside_neutral (.of_isPunct hc), ih]
  | literal hraw hq _ ih => rw [slashOutside_literal hraw hq, ih]
  | scalar _ hw _ _ ih => rw [slashOutside_append fun c hc => .of_isScalarChar (hw c hc), ih]

/-- Where a place of the typographic reading stands once the quotes are straightened. -/
def Place.straightened : Place → Place
  | .outside => .outside
  | .inside _ => .inside false
  | .escaped _ => .escaped false

theorem Place.straightened_next (p : Place) (c : Char) :
    (p.next .typographic c).straightened = p.straightened.next .plain (straighten p c) := by
  cases p with
  | outside =>
    cases hc : isDoubleQuote c with
    | true => simp [Place.next, straighten, Reading.opens, hc, Place.straightened]
    | false =>
      -- Of the other characters some become single quotes, and none a double one.
      have hkept : isDoubleQuote (straighten .outside c) = false := by
        rw [straighten, if_neg (by simp [hc])]
        split
        · decide
        · exact hc
      rw [Place.next_outside hc, Place.straightened, Place.next_outside hkept]
  | inside curly =>
    by_cases hslash : c = '\\'
    · subst hslash
      cases curly <;> decide
    cases hc : closes curly c with
    | true =>
      rw [Place.next_closes hc, straighten, if_pos hc]
      rfl
    | false =>
      have hplain : closes false c = false := by
        rw [closes, Bool.or_eq_false_iff] at hc
        simp [closes, hc.1]
      rw [Place.next_char hslash hc, straighten, hc, if_neg (by simp), Place.straightened,
        Place.next_char hslash hplain]
  | escaped curly => rfl

/-- Straightening makes no slash and leaves each. -/
theorem straighten_eq_slash {p : Place} {c : Char} :
    p.straightened = .outside ∧ straighten p c = '/' ↔ p = .outside ∧ c = '/' := by
  cases p with
  | outside =>
    refine and_congr_right fun _ => ⟨fun h => ?_, ?_⟩
    · rw [straighten] at h
      split at h
      · exact absurd h (by decide)
      · split at h
        · exact absurd h (by decide)
        · exact h
    · rintro rfl
      decide
  | inside | escaped => simp [Place.straightened]

/-- **Straightening quotes keeps the slashes outside literals.** -/
theorem slashOutside_straightenFrom (p : Place) (cs : List Char) :
    Lenient.slashOutside .plain p.straightened (straightenFrom p cs) =
      Lenient.slashOutside .typographic p cs := by
  induction cs generalizing p with
  | nil => rfl
  | cons c cs ih =>
    rw [Lenient.straightenFrom, Lenient.slashOutside, Lenient.slashOutside, ← p.straightened_next,
      ih, decide_eq_decide.mpr straighten_eq_slash]

/-- **Dropping trailing commas keeps the slashes outside literals.** -/
theorem slashOutside_commasFrom {dropping : Bool} {p : Place} {cs : List Char}
    (hp : dropping = true → p = .outside) (h : Lenient.slashOutside .plain p cs = true) :
    Lenient.slashOutside .plain p (commasFrom dropping p cs) = true := by
  induction cs generalizing dropping p with
  | nil => exact h
  | cons c cs ih =>
    rw [commasFrom]
    split
    · next hdrop =>
      simp only [Bool.and_eq_true, beq_iff_eq] at hdrop
      obtain ⟨⟨rfl, rfl⟩, -⟩ := hdrop
      rw [slashOutside_neutral (.of_isPunct (by decide))] at h
      exact ih (fun _ => rfl) h
    · split
      · next hblank =>
        simp only [Bool.and_eq_true] at hblank
        obtain rfl := hp hblank.1
        rw [slashOutside_neutral (.of_isBlank hblank.2)] at h
        exact ih (fun _ => rfl) h
      · rw [Lenient.slashOutside, Bool.or_eq_true] at h ⊢
        exact h.imp_right (ih (by simp))

/-! ### Recovery -/

theorem recoverAt_of_ok {stage : Stage} {d : String} {v : Json}
    {otherwise : Json.ReadError → Attempt Recovered} (h : Json.parse (stage.candidate d) = .ok v) :
    (recoverAt stage d otherwise).value = .ok ⟨v, stage.candidate d, stage⟩ := by
  rw [recoverAt, h]

theorem recoverAt_of_error {stage : Stage} {d : String} {e : Json.ReadError}
    {otherwise : Json.ReadError → Attempt Recovered}
    (h : Json.parse (stage.candidate d) = .error e) :
    (recoverAt stage d otherwise).value = (otherwise e).value := by
  rw [recoverAt, h]

/-- A text with a slash outside its literals is no document. -/
theorem exists_error_of_slashOutside (reading : Reading) {s : String}
    (h : Lenient.slashOutside reading .outside s.toList = true) :
    ∃ e, Json.parse s = .error e := by
  cases hs : Json.parse s with
  | error e => exact ⟨e, rfl⟩
  | ok v =>
    obtain ⟨ts, -, hl⟩ := Json.parse_eq_ok.mp hs
    rw [(Decorated.of_laid hl false).slashOutside] at h
    cases h

/-- Quotes and commas repaired, a text without comments is read as what its tokens spell. -/
theorem parse_straightened {b : Bool} {ts : List Token} {cs : List Char} {v : Json}
    (h : Decorated .typographic false b ts cs)
    (hts : Json.Spells Json.depthLimit ts (.value v)) :
    Json.parse (dropTrailingCommas (straightenQuotes (String.ofList cs))) = .ok v := by
  refine Json.parse_eq_ok.mpr ⟨ts, hts, ?_⟩
  simp only [dropTrailingCommas, straightenQuotes, String.toList_ofList]
  exact h.straightenFrom.laid_commasFrom rfl hts.noTrailingComma false

/-- **Every decorated document is recovered** with the value of the document, and at the stage
of comments if it has one. -/
theorem recover_decorated {s d : String} {v : Json} {commented : Bool}
    (hs : Json.parse s = .ok v) (h : Decorates s d commented) :
    ∃ r, (recover d).value = .ok r ∧ r.value = v ∧
      (commented = true → r.stage = .comments) := by
  obtain ⟨ts, hl, hd⟩ := h
  obtain ⟨ts', hts, hl'⟩ := Json.parse_eq_ok.mp hs
  obtain rfl := hl.unique hl'
  cases commented with
  | true =>
    have hslash := hd.slashOutside
    obtain ⟨e₁, h₁⟩ := exists_error_of_slashOutside (s := Stage.asIs.candidate d) _ hslash
    obtain ⟨e₂, h₂⟩ : ∃ e, Json.parse (Stage.quotesAndCommas.candidate d) = .error e := by
      refine exists_error_of_slashOutside .plain ?_
      simp only [Stage.candidate, dropTrailingCommas, straightenQuotes, String.toList_ofList]
      refine slashOutside_commasFrom (by simp) ?_
      rw [← hslash]
      exact slashOutside_straightenFrom .outside d.toList
    have h₃ : Json.parse (Stage.comments.candidate d) = .ok v :=
      parse_straightened hd.commentsFrom hts
    refine ⟨⟨v, Stage.comments.candidate d, .comments⟩, ?_, rfl, fun _ => rfl⟩
    rw [recover, recoverAt_of_error h₁, recoverAt_of_error h₂, recoverAt_of_ok h₃]
  | false =>
    have h₂ : Json.parse (Stage.quotesAndCommas.candidate d) = .ok v := by
      rw [← String.ofList_toList (s := d)]
      exact parse_straightened hd hts
    cases h₁ : Json.parse (Stage.asIs.candidate d) with
    | error e =>
      refine ⟨⟨v, Stage.quotesAndCommas.candidate d, .quotesAndCommas⟩, ?_, rfl, by simp⟩
      rw [recover, recoverAt_of_error h₁, recoverAt_of_ok h₂]
    | ok v' =>
      -- What can be read as it is, is without decorations, so the repairs read the same.
      obtain ⟨ts', hts', hl'⟩ := Json.parse_eq_ok.mp h₁
      have h₂' : Json.parse (Stage.quotesAndCommas.candidate d) = .ok v' := by
        rw [← String.ofList_toList (s := d)]
        exact parse_straightened (.of_laid hl' false) hts'
      rw [h₂] at h₂'
      cases h₂'
      refine ⟨⟨v, d, .asIs⟩, ?_, rfl, by simp⟩
      rw [recover, recoverAt_of_ok h₁]
      rfl

/-- An array with typographic quotes around a string, comments in which quotes and brackets
stand, and a comma before the closing bracket. -/
theorem recover_decorated_array :
    let s := String.ofList ['[', '"', '/', '"', ',', 'n', 'u', 'l', 'l', ']']
    let d := String.ofList ['[', '\u201c', '/', '\u201e', '/', '*', '"', '*', '/', ',',
      'n', 'u', 'l', 'l', ',', '/', '/', ']', '\n', ']']
    let v := Json.arr [.str (String.ofList ['/']), .null]
    Json.parse s = .ok v ∧ Decorates s d true ∧
      ∃ r, (recover d).value = .ok r ∧ r.value = v ∧ (true = true → r.stage = .comments) := by
  intro s d v
  have hslash {ends : Char → Bool} (h : ends '/' = false) : Content ends ['/'] :=
    .char (by decide) h .nil
  have hnull : ∀ c ∈ ['n', 'u', 'l', 'l'], Json.isScalarChar c = true := List.all_eq_true.mp rfl
  have hl : Laid [.punct '[', .literal ['/'], .punct ',', .scalar ['n', 'u', 'l', 'l'],
      .punct ']'] s.toList := by
    rw [String.toList_ofList]
    exact .punct rfl (.literal (hslash rfl) (.punct rfl
      (.scalar (List.cons_ne_nil _ _) hnull rfl (.punct rfl .done))))
  have hread : Json.ReadsString ['/'] ['/'] := by
    refine ⟨hslash rfl, fun r => ?_⟩
    rw [List.cons_append, Json.stringBody_char (by decide) (by decide) (by decide),
      List.nil_append, Json.stringBody_quote]
    rfl
  have hs : Json.parse s = .ok v :=
    Json.parse_eq_ok.mpr ⟨_, .array (.item (.string hread) (.lastItem (.scalar .null))), hl⟩
  have hd : Decorates s d true := by
    refine ⟨_, hl, ?_⟩
    rw [String.toList_ofList]
    have hend : Decorated .typographic true true [.punct ']'] [',', '/', '/', ']', '\n', ']'] :=
      .comma rfl (.line (by decide : '\n' ∉ [']']) (.punct rfl .done))
    exact .punct rfl (.literal (hslash rfl) (.typographic rfl rfl (hslash rfl))
      (.block (by decide : ¬['*', '/'] <:+: ['"']) (.punct rfl
        (.scalar (List.cons_ne_nil _ _) hnull rfl hend))))
  exact ⟨hs, hd, recover_decorated hs hd⟩

end Lenient

end ExtractionContract
