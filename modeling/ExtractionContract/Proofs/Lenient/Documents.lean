import ExtractionContract.Proofs.Lenient.Recovery

/-!
# Repairs leave documents alone

A text that can be read as it is has nothing to repair, so no repair changes it, whatever stands in
its strings. Outside its literals there are only brackets, commas, colons, blanks, numbers and
words, so no quote is typographic and no comment begins (`pass_laid`); and none of the commas stands
before a closing bracket (`Laid.commasFrom_eq`).
-/

namespace ExtractionContract

namespace Lenient

open Json (Token Content Laid isQuote)

/-- **A pass that keeps literals and neutral characters** keeps a text of tokens. -/
theorem pass_laid {pass : List Char → List Char} (hnil : pass [] = [])
    (hneutral : ∀ c cs, Neutral c → pass (c :: cs) = c :: pass cs)
    (hliteral : ∀ raw cs, Content isQuote raw →
      pass ('"' :: (raw ++ '"' :: cs)) = '"' :: (raw ++ '"' :: pass cs))
    {ts : List Token} {cs : List Char} (h : Laid ts cs) : pass cs = cs := by
  induction h with
  | done => exact hnil
  | blank hc _ ih => rw [hneutral _ _ (.of_isSpace hc), ih]
  | punct hc _ ih => rw [hneutral _ _ (.of_isPunct hc), ih]
  | literal hraw _ ih => rw [hliteral _ _ hraw, ih]
  | scalar _ hw _ _ ih =>
    rw [pass_append pass fun c hc cs => hneutral c cs (.of_isScalarChar (hw c hc)), ih]

/-- **Commas that are tokens** are kept where none of them is a trailing one. -/
theorem commasFrom_laid {ts : List Token} {cs : List Char} (h : Laid ts cs)
    (hts : Json.NoTrailingComma ts) : commasFrom false .outside cs = cs := by
  induction h with
  | done => rfl
  | blank hc _ ih => rw [commasFrom_blank (isBlank_of_isSpace hc), if_neg (by simp), ih hts]
  | punct hc h ih =>
    rw [commasFrom_punct hc, ih hts.tail]
    -- A comma has a token behind it that closes nothing.
    rintro rfl
    exact (Decorated.of_laid h false).closesNext_of_comma rfl hts
  | literal hraw _ ih => rw [commasFrom_literal hraw, ih hts.tail]
  | scalar hne hw _ _ ih => rw [commasFrom_append hne hw, ih hts.tail]

/-- **Repairs leave documents alone.** A text that can be read is what straightening quotes,
dropping trailing commas and dropping comments make of it, and so it is the text that every stage
reads. -/
theorem repairs_keep_document {s : String} {v : Json} (h : Json.parse s = .ok v) :
    straightenQuotes s = s ∧ dropTrailingCommas s = s ∧ dropComments s = s ∧
      ∀ stage : Stage, stage.candidate s = s := by
  obtain ⟨ts, hts, hl⟩ := Json.parse_eq_ok.mp h
  have hquotes : straightenQuotes s = s := by
    rw [straightenQuotes, pass_laid rfl (fun _ _ => straightenFrom_neutral)
      (fun _ _ hraw => straightenFrom_literal hraw (@Delimits.plain _ .plain)) hl,
      String.ofList_toList]
  have hcommas : dropTrailingCommas s = s := by
    rw [dropTrailingCommas, commasFrom_laid hl hts.noTrailingComma, String.ofList_toList]
  have hcomments : dropComments s = s := by
    rw [dropComments, pass_laid (commentsFrom_nil _) (fun _ _ => commentsFrom_neutral)
      (fun _ _ hraw => commentsFrom_literal hraw (@Delimits.plain _ .plain)) hl,
      String.ofList_toList]
  refine ⟨hquotes, hcommas, hcomments, fun stage => ?_⟩
  cases stage with
  | asIs => rfl
  | quotesAndCommas => rw [Stage.candidate, hquotes, hcommas]
  | comments => rw [Stage.candidate, hcomments, hquotes, hcommas]

/-- An object with a comma before a bracket in its key, and strings with slashes, an escaped quote,
typographic quotes, the beginning of a comment and a comma before a brace. -/
theorem repairs_keep_document_of_literals :
    let s := "\x7b\"a, ]\" : [\"//\\\"\",\"“/* ” , \x7d\"] \x7d"
    (∃ v, Json.parse s = .ok v ∧ v.text = "\x7b\"a, ]\":[\"//\\\"\",\"“/* ” , \x7d\"]\x7d") ∧
      straightenQuotes s = s ∧ dropTrailingCommas s = s ∧ dropComments s = s ∧
      ∀ stage : Stage, stage.candidate s = s := by
  intro s
  have hread : (Json.parse s).toOption.map Json.text =
      some "\x7b\"a, ]\":[\"//\\\"\",\"“/* ” , \x7d\"]\x7d" := by
    decide +kernel
  cases h : Json.parse s with
  | error e =>
    rw [h] at hread
    cases hread
  | ok v =>
    rw [h] at hread
    exact ⟨⟨v, rfl, Option.some.inj hread⟩, repairs_keep_document h⟩

end Lenient

end ExtractionContract
