import ExtractionContract.Proofs.Lenient.Literals

/-!
# One pass of a repair is enough

Each repair has something to remove, and what it makes of a text has nothing of the kind left
outside literals. That no new one comes about where something was taken out has its own reason in
each repair.

* Comments: what stands behind a slash that begins none is kept, and it is neither a slash nor a
  star (`Splits.not_slash_infix`).
* Quotes: characters are replaced one by one, and both readings find the same literals afterwards
  (`isPlain_straightened`).
* Commas: with a trailing comma its blanks go up to the bracket, which then meets what stood before
  the comma. If this is no comma, none meets a bracket any more (`not_meets_withoutCommas`). Of two
  commas in a row the first is trailing only after the second was dropped.

The pieces of a text tell the text (`Splits.eq_flatMap_text`), so a repair that finds nothing to
remove among the pieces changes nothing, and in particular not when it is run again.

* `repairs_finish`: what each repair leaves, and that running it again changes nothing.
-/

namespace ExtractionContract

namespace Lenient

variable {reading reading' : Reading} {skipping skipping' : Bool}

/-! ### Texts and their pieces -/

/-- **The pieces of a text tell the text.** -/
theorem Splits.eq_flatMap_text {cs : List Char} {ps : List Piece}
    (h : Splits reading skipping cs ps) : cs = ps.flatMap Piece.text := by
  induction h with
  | done => rfl
  | piece _ _ ih => rw [List.flatMap_cons, ← ih]

/-- Texts with the same pieces are the same, in whatever readings these are found. -/
theorem Splits.text_unique {cs cs' : List Char} {ps : List Piece}
    (h : Splits reading skipping cs ps) (h' : Splits reading' skipping' cs' ps) : cs = cs' := by
  rw [h.eq_flatMap_text, h'.eq_flatMap_text]

/-! ### Comments -/

/-- **Where comments are passed over, none begins between pieces.** -/
theorem Splits.not_slash_infix {cs : List Char} {ps : List Piece} (h : Splits reading true cs ps)
    {c : Char} (hc : c = '/' ∨ c = '*') : ¬[.outside '/', .outside c] <:+: ps := by
  induction h with
  | done => simp
  | @piece p rest ps hp hrest ih =>
    intro hinfix
    rcases List.infix_cons_iff.mp hinfix with ⟨behind, hprefix⟩ | hinfix
    · -- The first piece is a slash, so the two characters stand first in the text.
      obtain ⟨rfl, hps⟩ := List.cons.inj hprefix
      cases hp with
      | outside _ hcomment =>
        have hbegins : BeginsComment ('/' :: c :: behind.flatMap Piece.text) := by
          rcases hc with rfl | rfl
          · exact .inl ⟨_, rfl⟩
          · exact .inr ⟨_, rfl⟩
        refine hcomment rfl ?_
        rw [hrest.eq_flatMap_text, ← hps]
        exact hbegins
    · exact ih hinfix

theorem uncommented_uncommented (ps : List Piece) :
    (ps.flatMap Piece.uncommented).flatMap Piece.uncommented = ps.flatMap Piece.uncommented := by
  rw [List.flatMap_assoc]
  refine List.flatMap_congr fun p _ => ?_
  cases p <;> rfl

/-- **Dropping comments is done in one pass.** -/
theorem dropComments_finishes (t : String) :
    (∃ ps, Divides .typographic false (dropComments t) ps ∧
        ¬[.outside '/', .outside '/'] <:+: ps ∧ ¬[.outside '/', .outside '*'] <:+: ps) ∧
      dropComments (dropComments t) = dropComments t := by
  obtain ⟨ps, hps⟩ := exists_splits .typographic true t.toList
  have hpassing : Splits .typographic true (commentsFrom (.text .outside) t.toList)
      (ps.flatMap Piece.uncommented) := hps.commentsFrom
  refine ⟨⟨_, hps.commentsFrom.divides String.toList_ofList,
    hpassing.not_slash_infix (.inl rfl), hpassing.not_slash_infix (.inr rfl)⟩, ?_⟩
  -- Another pass finds no comment among the pieces.
  have hagain : Splits .typographic false _ _ := hpassing.commentsFrom
  rw [uncommented_uncommented] at hagain
  rw [dropComments, dropComments, String.toList_ofList, hagain.text_unique hpassing]

/-! ### Quotes -/

/-- Whether no quote of a piece is typographic, but for what stands in a literal. -/
def Piece.IsPlain : Piece → Prop
  | outside c => isDoubleQuote c = false ∧ isCurlySingle c = false
  | literal l => l.opening = '"' ∧ ∀ q ∈ l.closing, q = '"'
  | _ => True

theorem isPlain_straightened {p : Piece} {rest : List Char}
    (h : StandsFirst .typographic false p rest) : p.straightened.IsPlain := by
  cases h with
  | @outside c _ hopens =>
    change isDoubleQuote (if isCurlySingle c then '\'' else c) = false ∧ _
    split
    · exact ⟨rfl, rfl⟩
    · next hsingle => exact ⟨hopens, by simpa using hsingle⟩
  | literal => exact ⟨rfl, by simp⟩
  | line hskip => cases hskip
  | block hskip => cases hskip

theorem Splits.isPlain_straightened {cs : List Char} {ps : List Piece}
    (h : Splits .typographic false cs ps) : ∀ p ∈ ps.map Piece.straightened, p.IsPlain := by
  induction h with
  | done => simp
  | piece hp _ ih => exact List.forall_mem_cons.mpr ⟨Lenient.isPlain_straightened hp, ih⟩

theorem straightened_eq_self {p : Piece} (h : p.IsPlain) : p.straightened = p := by
  cases p with
  | outside c => rw [Piece.straightened, h.2, if_neg (by simp)]
  | literal l =>
    obtain ⟨opening, content, closing⟩ := l
    obtain ⟨rfl, hclosing⟩ := h
    cases closing with
    | none => rfl
    | some q => rw [hclosing q rfl]; rfl
  | line => rfl
  | block => rfl

/-- **Straightening quotes is done in one pass.** -/
theorem straightenQuotes_finishes (t : String) :
    (∃ ps, Divides .plain false (straightenQuotes t) ps ∧
        Divides .typographic false (straightenQuotes t) ps ∧ ∀ p ∈ ps, p.IsPlain) ∧
      straightenQuotes (straightenQuotes t) = straightenQuotes t := by
  obtain ⟨ps, hps⟩ := exists_splits .typographic false t.toList
  have hplain := hps.isPlain_straightened
  have htypographic : Splits .typographic false (straightenFrom .outside t.toList)
      (ps.map Piece.straightened) := hps.straightenFrom
  refine ⟨⟨_, hps.straightenFrom.divides String.toList_ofList,
    htypographic.divides String.toList_ofList, hplain⟩, ?_⟩
  -- Another pass finds plain pieces only.
  have hsame : (ps.map Piece.straightened).map Piece.straightened = ps.map Piece.straightened :=
    (List.map_congr_left fun p hp => straightened_eq_self (hplain p hp)).trans (List.map_id _)
  have hagain : Splits .plain false _ _ := htypographic.straightenFrom
  rw [hsame] at hagain
  rw [straightenQuotes, straightenQuotes, String.toList_ofList, hagain.text_unique htypographic]

/-! ### Commas -/

/-- Whether somewhere a character outside literals is followed by another, over blanks. -/
def Meets (c c' : Char) (ps : List Piece) : Prop :=
  ∃ behind, .outside c :: behind <:+ ps ∧ firstSolid behind = some (.outside c')

theorem not_meets_nil {c c' : Char} : ¬Meets c c' [] := by
  rintro ⟨behind, hsuffix, -⟩
  simp at hsuffix

theorem meets_cons {c c' : Char} {p : Piece} {ps : List Piece} : Meets c c' (p :: ps) ↔
    p = .outside c ∧ firstSolid ps = some (.outside c') ∨ Meets c c' ps := by
  unfold Meets
  constructor
  · rintro ⟨behind, hsuffix, hsolid⟩
    rcases List.suffix_cons_iff.mp hsuffix with heq | hsuffix
    · obtain ⟨rfl, rfl⟩ := List.cons.inj heq
      exact .inl ⟨rfl, hsolid⟩
    · exact .inr ⟨behind, hsuffix, hsolid⟩
  · rintro (⟨rfl, hsolid⟩ | ⟨behind, hsuffix, hsolid⟩)
    · exact ⟨ps, List.suffix_refl _, hsolid⟩
    · exact ⟨behind, hsuffix.trans (List.suffix_cons p ps), hsolid⟩

theorem Piece.isComma_iff {p : Piece} : p.isComma = true ↔ p = .outside ',' := by
  cases p <;> simp [isComma]

/-- **What comes first is kept**, but for a comma and for blanks. -/
theorem firstSolid_withoutCommas {ps : List Piece} (h : firstSolid ps ≠ some (.outside ','))
    (dropping : Bool) : firstSolid (withoutCommas dropping ps) = firstSolid ps := by
  induction ps generalizing dropping with
  | nil => rfl
  | cons p ps ih =>
    cases hblank : p.isBlank with
    | true =>
      -- A blank is no comma, and whether it is dropped or not does not matter.
      have hcomma : p.isComma = false := by
        rw [← Bool.not_eq_true, Piece.isComma_iff]
        rintro rfl
        exact absurd hblank (by decide)
      have hskip : firstSolid (p :: ps) = firstSolid ps :=
        List.find?_cons_of_neg (by simp [hblank])
      rw [hskip] at h ⊢
      rw [withoutCommas, hcomma, hblank, if_neg (by simp), Bool.and_true]
      split
      · exact ih h true
      · rw [← ih h false]
        exact List.find?_cons_of_neg (by simp [hblank])
    | false =>
      have hfirst : ∀ qs, firstSolid (p :: qs) = some p :=
        fun qs => List.find?_cons_of_pos (by simp [hblank])
      have hcomma : p.isComma = false := by
        rw [← Bool.not_eq_true, Piece.isComma_iff]
        rintro rfl
        exact h (hfirst ps)
      rw [withoutCommas, hcomma, hblank, if_neg (by simp), if_neg (by simp), hfirst, hfirst]

theorem any_isCloser_iff {o : Option Piece} :
    o.any Piece.isCloser = true ↔ ∃ c, Json.isCloser c = true ∧ o = some (.outside c) := by
  cases o with
  | none => simp
  | some p => cases p <;> simp [Piece.isCloser]

/-- **No comma meets a bracket** when trailing commas are dropped, unless two commas met. -/
theorem not_meets_withoutCommas {ps : List Piece} (h : ¬Meets ',' ',' ps) (dropping : Bool)
    {c : Char} (hc : Json.isCloser c = true) : ¬Meets ',' c (withoutCommas dropping ps) := by
  induction ps generalizing dropping with
  | nil => exact not_meets_nil
  | cons p ps ih =>
    rw [meets_cons, not_or] at h
    obtain ⟨hhere, hlater⟩ := h
    rw [withoutCommas]
    split
    · exact ih hlater true
    · next hkept =>
      split
      · exact ih hlater true
      · rw [meets_cons]
        rintro (⟨rfl, hmeets⟩ | hmeets)
        · -- Behind a comma that was kept comes what came there before, which is no bracket.
          rw [firstSolid_withoutCommas fun hsolid => hhere ⟨rfl, hsolid⟩] at hmeets
          exact hkept (Bool.and_eq_true_iff.mpr ⟨rfl, any_isCloser_iff.mpr ⟨c, hc, hmeets⟩⟩)
        · exact ih hlater false hmeets

/-- **Where no comma meets a bracket nothing is dropped.** -/
theorem withoutCommas_eq_self {ps : List Piece}
    (h : ∀ c, Json.isCloser c = true → ¬Meets ',' c ps) : withoutCommas false ps = ps := by
  induction ps with
  | nil => rfl
  | cons p ps ih =>
    have hkept : ¬(p.isComma && (firstSolid ps).any Piece.isCloser) = true := by
      rw [Bool.and_eq_true, Piece.isComma_iff, any_isCloser_iff]
      rintro ⟨rfl, c, hc, hsolid⟩
      exact h c hc (meets_cons.mpr (.inl ⟨rfl, hsolid⟩))
    rw [withoutCommas, if_neg hkept, if_neg (by simp),
      ih fun c hc hmeets => h c hc (meets_cons.mpr (.inr hmeets))]

/-- **Dropping trailing commas is done in one pass**, unless two commas meet. -/
theorem dropTrailingCommas_finishes (t : String) :
    ∃ ps ps', Divides .plain false t ps ∧ Divides .plain false (dropTrailingCommas t) ps' ∧
      (¬Meets ',' ',' ps → (∀ c, Json.isCloser c = true → ¬Meets ',' c ps') ∧
        dropTrailingCommas (dropTrailingCommas t) = dropTrailingCommas t) := by
  obtain ⟨ps, hps⟩ := exists_splits .plain false t.toList
  have hps' := hps.withoutCommas false
  refine ⟨ps, _, hps.divides rfl, hps'.divides String.toList_ofList, fun hcommas => ?_⟩
  have hmeets : ∀ c, Json.isCloser c = true → ¬Meets ',' c (withoutCommas false ps) :=
    fun c hc => not_meets_withoutCommas hcommas false hc
  refine ⟨hmeets, ?_⟩
  -- Another pass finds no comma before a bracket.
  have hagain := hps'.withoutCommas false
  rw [withoutCommas_eq_self hmeets] at hagain
  rw [dropTrailingCommas, dropTrailingCommas, String.toList_ofList, hagain.text_unique hps']

-- Of two commas in a row the first is trailing only after the second was dropped.
example : dropTrailingCommas "[1, ,]" = "[1, ]" ∧ dropTrailingCommas "[1, ]" = "[1]" := by
  decide

/-! ### The three repairs -/

/-- **Each repair is finished after one pass.** In any text, dropping comments leaves nothing that
begins one outside the literals of the typographic reading; straightening quotes leaves no
typographic quote outside literals or around them, in either reading, which divide the text alike
then; and dropping trailing commas leaves no closing bracket outside literals with a comma as the
last character before it that is no blank, if no two commas outside literals had nothing but blanks
between them. Then a repair that is run again changes nothing. -/
theorem repairs_finish (t : String) :
    ((∃ ps, Divides .typographic false (dropComments t) ps ∧
          ¬[.outside '/', .outside '/'] <:+: ps ∧ ¬[.outside '/', .outside '*'] <:+: ps) ∧
        dropComments (dropComments t) = dropComments t) ∧
      ((∃ ps, Divides .plain false (straightenQuotes t) ps ∧
          Divides .typographic false (straightenQuotes t) ps ∧ ∀ p ∈ ps, p.IsPlain) ∧
        straightenQuotes (straightenQuotes t) = straightenQuotes t) ∧
      ∃ ps ps', Divides .plain false t ps ∧ Divides .plain false (dropTrailingCommas t) ps' ∧
        (¬Meets ',' ',' ps → (∀ c, Json.isCloser c = true → ¬Meets ',' c ps') ∧
          dropTrailingCommas (dropTrailingCommas t) = dropTrailingCommas t) :=
  ⟨dropComments_finishes t, straightenQuotes_finishes t, dropTrailingCommas_finishes t⟩

/-- A comma before a bracket inside a literal, and one behind the literal. -/
theorem repairs_finish_of_literal :
    let t := "[\",]\" ,]"
    let ps := [.outside '[', .literal ⟨'"', [',', ']'], some '"'⟩, .outside ' ', .outside ',',
      .outside ']']
    Divides .plain false t ps ∧ ¬Meets ',' ',' ps ∧ dropTrailingCommas t = "[\",]\" ]" ∧
      (∃ ps', Divides .plain false (dropTrailingCommas t) ps' ∧ ¬Meets ',' ']' ps') ∧
      dropTrailingCommas (dropTrailingCommas t) = dropTrailingCommas t := by
  intro t ps
  have hraw : LiteralBody (closes ('"' != '"')) [',', ']'] (some '"') [' ', ',', ']'] :=
    .char (by decide) rfl (.char (by decide) rfl (.closed rfl))
  have hskip : ∀ {cs : List Char}, false = true → ¬BeginsComment cs := fun h => by cases h
  have hchars : t.toList = ['[', '"', ',', ']', '"', ' ', ',', ']'] := by decide
  have hsplits : Splits .plain false t.toList ps := by
    rw [hchars]
    exact .outside rfl hskip (.literal rfl hraw
      (.outside rfl hskip (.outside rfl hskip (.outside rfl hskip .done))))
  have hmeets : ¬Meets ',' ',' ps := by
    simp [ps, meets_cons, not_meets_nil, firstSolid, Piece.isBlank, Text.isBlank]
  obtain ⟨-, -, ps₀, ps', hps, hps', hcommas⟩ := repairs_finish t
  obtain rfl : ps = ps₀ := hps.2 ps hsplits
  obtain ⟨hbracket, hagain⟩ := hcommas hmeets
  exact ⟨hps, hmeets, by decide, ⟨ps', hps', hbracket ']' rfl⟩, hagain⟩

end Lenient

end ExtractionContract
