import ExtractionContract.Proofs.Lenient.Pieces
import ExtractionContract.Proofs.Lenient.Repair

/-!
# Repairs keep the literals of any text

A repair is tried on texts that cannot be read, so what it does to the strings in them cannot be
said in terms of documents. It is said of the pieces that any text divides into. Each repair walks
over the pieces one by one and is outside of them again after each, because the place that it keeps
track of there is the one that `StandsFirst` describes.

* `Splits.straightenFrom`: straightening quotes straightens those of each piece. A literal that a
  typographic quote begins has no double quote of any kind inside, but for escaped ones, so it is
  still a literal with plain quotes around it (`LiteralBody.rewrite`).
* `Splits.withoutCommas`: dropping trailing commas drops the pieces that are such commas, with the
  blanks up to the bracket, and thins the pieces out by nothing else (`Thinned`).
* `Splits.commentsFrom`: dropping comments drops the pieces that are comments. What is left is
  divided without passing over comments.

A literal that the text ends in has no other end, so it is only kept if nothing is put behind it.
Each repair leaves an empty rest empty.

* `repairs_keep_literals`: the literals after each of the three repairs.
-/

namespace ExtractionContract

namespace Lenient

variable {reading : Reading} {skipping : Bool}

/-! ### Literals under another reading -/

/-- A literal goes on to be one when fewer characters end literals, when what ends it is written in
another way, and before another rest, unless the text ends with it. -/
theorem LiteralBody.rewrite {ends ends' : Char → Bool} {raw rest rest' : List Char}
    {closing : Option Char} (h : LiteralBody ends raw closing rest) (write : Char → Char)
    (hwrite : ∀ c, ends c = true → ends' (write c) = true)
    (hkeep : ∀ c, ends c = false → ends' c = false) (hrest : rest = [] → rest' = []) :
    LiteralBody ends' raw (closing.map write) rest' := by
  induction h with
  | closed hends => exact .closed (hwrite _ hends)
  | unended =>
    obtain rfl := hrest rfl
    exact .unended
  | backslash =>
    obtain rfl := hrest rfl
    exact .backslash
  | char hslash hends _ ih => exact .char hslash (hkeep _ hends) (ih hrest)
  | escape _ ih => exact .escape (ih hrest)

theorem LiteralBody.before {ends : Char → Bool} {raw rest rest' : List Char}
    {closing : Option Char} (h : LiteralBody ends raw closing rest)
    (hrest : rest = [] → rest' = []) : LiteralBody ends raw closing rest' := by
  have h' := h.rewrite id (fun _ => id) (fun _ => id) hrest
  rwa [Option.map_id] at h'

/-- **A pass over a literal** that keeps the characters inside keeps the content, and writes one
character for what ends it. -/
theorem LiteralBody.pass {curly : Bool} {raw rest : List Char} {closing : Option Char}
    (h : LiteralBody (closes curly) raw closing rest) (pass : Place → List Char → List Char)
    (reading : Reading) (write : Char → Char) (hnil : ∀ p, pass p [] = [])
    (hkeep : ∀ p c cs, p ≠ .outside → (∀ curly, p = .inside curly → closes curly c = false) →
      pass p (c :: cs) = c :: pass (p.next reading c) cs)
    (hclose : ∀ curly c cs, closes curly c = true →
      pass (.inside curly) (c :: cs) = write c :: pass .outside cs) :
    pass (.inside curly) (raw ++ (closing.toList ++ rest)) =
      raw ++ ((closing.map write).toList ++ pass .outside rest) := by
  induction h with
  | closed hends => exact hclose _ _ _ hends
  | unended => simp [hnil]
  | backslash =>
    rw [List.cons_append, hkeep _ _ _ (by simp) (by rintro _ ⟨⟩; exact closes_backslash curly)]
    simp [hnil]
  | char hslash hends _ ih =>
    rw [List.cons_append, hkeep _ _ _ (by simp) (by rintro _ ⟨⟩; exact hends),
      Place.next_char hslash hends, ih, List.cons_append]
  | escape _ ih =>
    -- What the backslash escapes ends nothing, whatever it is.
    rw [List.cons_append, List.cons_append,
      hkeep _ _ _ (by simp) (by rintro _ ⟨⟩; exact closes_backslash curly), Place.next_backslash,
      hkeep _ _ _ (by simp) (by rintro _ ⟨⟩), Place.next_escaped, ih, List.cons_append,
      List.cons_append]

/-- A pass that keeps the characters inside literals keeps a literal. -/
theorem LiteralBody.pass_keep {curly : Bool} {raw rest : List Char} {closing : Option Char}
    (h : LiteralBody (closes curly) raw closing rest) (pass : Place → List Char → List Char)
    (reading : Reading) (hnil : ∀ p, pass p [] = [])
    (hkeep : ∀ p c cs, p ≠ .outside → pass p (c :: cs) = c :: pass (p.next reading c) cs) :
    pass (.inside curly) (raw ++ (closing.toList ++ rest)) =
      raw ++ (closing.toList ++ pass .outside rest) := by
  have h' := h.pass pass reading id hnil (fun p c cs hp _ => hkeep p c cs hp) (fun _ _ _ hc => by
    rw [hkeep _ _ _ (by simp), Place.next_closes hc, id])
  rwa [Option.map_id] at h'

/-! ### Quotes -/

/-- A piece with its quotes straightened. The content of a literal stays as it is. -/
def Piece.straightened : Piece → Piece
  | .outside c => .outside (if isCurlySingle c then '\'' else c)
  | .literal l => .literal ⟨'"', l.content, l.closing.map fun _ => '"'⟩
  | p => p

theorem straightenFrom_piece {p : Piece} {rest : List Char}
    (h : StandsFirst .typographic false p rest) :
    straightenFrom .outside (p.text ++ rest) =
      p.straightened.text ++ straightenFrom .outside rest := by
  cases h with
  | @outside c _ hopens =>
    have hquote : isDoubleQuote c = false := hopens
    change straighten .outside c :: straightenFrom (Place.outside.next .typographic c) rest = _
    rw [Place.next_outside hquote, straighten, hquote, if_neg (by simp)]
    rfl
  | @literal q raw _ closing hopens hbody =>
    -- The same quotes begin a literal and are straightened.
    have hquote : isDoubleQuote q = true := hopens
    have hpass := hbody.pass straightenFrom .typographic (fun _ => '"') (fun _ => rfl)
      (fun _ _ _ => straightenFrom_inside) (fun _ _ _ hc => by
        rw [straightenFrom, straighten, if_pos hc, Place.next_closes hc])
    rw [Piece.straightened, Piece.literal_append, Piece.literal_append, straightenFrom,
      Place.next_opens .typographic hopens, hpass, straighten, if_pos hquote]
  | line hskip => cases hskip
  | block hskip => cases hskip

/-- What is no double quote opens a literal in neither reading. -/
theorem opens_eq_false {c : Char} (h : isDoubleQuote c = false) : reading.opens c = false := by
  cases reading with
  | plain =>
    unfold isDoubleQuote at h
    simp only [Bool.or_eq_false_iff] at h
    exact h.1.1.1.1
  | typographic => exact h

theorem standsFirst_straightened {p : Piece} {rest rest' : List Char}
    (h : StandsFirst .typographic false p rest) (hrest : rest = [] → rest' = []) :
    StandsFirst reading false p.straightened rest' := by
  cases h with
  | @outside c _ hopens =>
    -- Single quotes are straightened too, but open nothing.
    refine .outside ?_ (by simp)
    split
    · exact opens_eq_false rfl
    · exact opens_eq_false hopens
  | literal hopens hbody =>
    have hopens' : reading.opens '"' = true := by cases reading <;> rfl
    refine .literal hopens' (hbody.rewrite _ (fun _ _ => by decide) (fun c hc => ?_) hrest)
    rw [closes, Bool.or_eq_false_iff] at hc
    simp [closes, hc.1]
  | line hskip => cases hskip
  | block hskip => cases hskip

/-- **Straightening quotes** straightens those of each piece. Both readings divide the text alike
then, since no quote is left that only one of them knows. -/
theorem Splits.straightenFrom {cs : List Char} {ps : List Piece}
    (h : Splits .typographic false cs ps) :
    Splits reading false (straightenFrom .outside cs) (ps.map Piece.straightened) := by
  induction h with
  | done => exact .done
  | piece hp _ ih =>
    rw [straightenFrom_piece hp]
    exact .piece (standsFirst_straightened hp (by rintro rfl; rfl)) ih

/-- Where the literals among pieces begin in a text, what stands in each, and whether it is ended.
The text begins at a position. -/
def located (start : Nat) : List Piece → List (Nat × List Char × Bool)
  | [] => []
  | .literal l :: ps =>
    (start, l.content, l.closing.isSome) :: located (start + (Piece.literal l).text.length) ps
  | p :: ps => located (start + p.text.length) ps

/-- Straightening moves no literal. -/
theorem located_straightened (start : Nat) (ps : List Piece) :
    located start (ps.map Piece.straightened) = located start ps := by
  induction ps generalizing start with
  | nil => rfl
  | cons p ps ih =>
    cases p with
    | outside c => exact ih (start + 1)
    | literal l =>
      have hlength : (Piece.literal l).straightened.text.length = (Piece.literal l).text.length := by
        cases hl : l.closing <;> simp [Piece.straightened, Piece.text, hl]
      simp only [List.map_cons, Piece.straightened, located] at hlength ⊢
      rw [hlength, ih, Option.isSome_map]
    | line body => exact ih _
    | block body => exact ih _

/-! ### Commas -/

/-- Whether a piece is a blank outside literals. -/
def Piece.isBlank : Piece → Bool
  | outside c => Text.isBlank c
  | _ => false

/-- The first piece that is no blank. -/
def firstSolid (ps : List Piece) : Option Piece :=
  ps.find? fun p => !p.isBlank

/-- Whether a piece is a closing bracket outside literals. -/
def Piece.isCloser : Piece → Bool
  | outside c => Json.isCloser c
  | _ => false

/-- Whether a piece is a comma outside literals. -/
def Piece.isComma : Piece → Bool
  | outside c => c == ','
  | _ => false

/-- Pieces without the commas whose first solid piece behind them is a closing bracket, and without
the blanks up to it. -/
def withoutCommas (dropping : Bool) : List Piece → List Piece
  | [] => []
  | p :: ps =>
    if p.isComma && (firstSolid ps).any Piece.isCloser then withoutCommas true ps
    else if dropping && p.isBlank then withoutCommas true ps
    else p :: withoutCommas false ps

theorem withoutCommas_outside (dropping : Bool) (c : Char) (ps : List Piece) :
    withoutCommas dropping (.outside c :: ps) =
      if c == ',' && (firstSolid ps).any Piece.isCloser then withoutCommas true ps
      else if dropping && Text.isBlank c then withoutCommas true ps
      else .outside c :: withoutCommas false ps :=
  rfl

theorem withoutCommas_literal (dropping : Bool) (l : Literal) (ps : List Piece) :
    withoutCommas dropping (.literal l :: ps) = .literal l :: withoutCommas false ps := by
  rw [withoutCommas, if_neg (by simp [Piece.isComma]), if_neg (by simp [Piece.isBlank])]

theorem commasFrom_outside (dropping : Bool) (c : Char) (cs : List Char) :
    commasFrom dropping .outside (c :: cs) =
      if c == ',' && closesNext cs then commasFrom true .outside cs
      else if dropping && Text.isBlank c then commasFrom true .outside cs
      else c :: commasFrom false (Place.outside.next .plain c) cs :=
  rfl

/-- Pieces of which some commas and blanks outside literals are left out. -/
inductive Thinned : List Piece → List Piece → Prop
  | nil : Thinned [] []
  | keep {p : Piece} {ps ps' : List Piece} : Thinned ps ps' → Thinned (p :: ps) (p :: ps')
  | leaveOut {c : Char} {ps ps' : List Piece} :
    c = ',' ∨ Text.isBlank c = true → Thinned ps ps' → Thinned (.outside c :: ps) ps'

/-- No literal is among what is left out. -/
theorem Thinned.literals_eq {ps ps' : List Piece} (h : Thinned ps ps') :
    literals ps' = literals ps := by
  induction h with
  | nil => rfl
  | @keep p _ _ _ ih =>
    unfold literals at ih ⊢
    rw [List.filterMap_cons, List.filterMap_cons, ih]
  | leaveOut _ _ ih => exact ih

theorem commasFrom_literalBody {dropping : Bool} {raw rest : List Char} {closing : Option Char}
    (h : LiteralBody (closes false) raw closing rest) :
    commasFrom dropping .outside ('"' :: (raw ++ (closing.toList ++ rest))) =
      '"' :: (raw ++ (closing.toList ++ commasFrom false .outside rest)) := by
  rw [commasFrom_solid (by decide) (by decide), Place.next_opens .plain rfl]
  exact congrArg _ (h.pass_keep (commasFrom false) .plain (fun _ => rfl)
    fun _ _ _ hp => commasFrom_cons (.inl hp))

/-- A bracket closes next when the first solid piece is one. -/
theorem Splits.closesNext_eq {cs : List Char} {ps : List Piece} (h : Splits .plain false cs ps) :
    closesNext cs = (firstSolid ps).any Piece.isCloser := by
  induction h with
  | done => rfl
  | @piece p rest ps hp _ ih =>
    unfold firstSolid at ih ⊢
    cases hp with
    | @outside c =>
      change closesNext (c :: rest) = _
      cases hblank : Text.isBlank c with
      | true =>
        rw [closesNext_blank hblank, ih,
          List.find?_cons_of_neg (by simp [Piece.isBlank, hblank])]
      | false =>
        rw [closesNext_solid hblank, List.find?_cons_of_pos (by simp [Piece.isBlank, hblank])]
        rfl
    | @literal q raw _ closing hopens =>
      obtain rfl : q = '"' := by simpa [Reading.opens] using hopens
      rw [Piece.literal_append, closesNext_solid (by decide), List.find?_cons_of_pos rfl]
      rfl
    | line hskip => cases hskip
    | block hskip => cases hskip

/-- **Dropping trailing commas** drops those among the pieces, and divides the rest as before. -/
theorem Splits.withoutCommas {cs : List Char} {ps : List Piece} (h : Splits .plain false cs ps) :
    ∀ dropping, Splits .plain false (commasFrom dropping .outside cs)
      (withoutCommas dropping ps) := by
  -- A dropped comma lasts up to its bracket, over any number of pieces.
  induction h with
  | done => exact fun _ => .done
  | @piece p rest ps hp h ih =>
    intro dropping
    cases hp with
    | @outside c _ hopens =>
      have hnext : Place.outside.next .plain c = .outside := by simp [Place.next, hopens]
      change Splits _ _ (commasFrom dropping .outside (c :: rest)) _
      rw [withoutCommas_outside, ← h.closesNext_eq, commasFrom_outside, hnext]
      by_cases hcomma : (c == ',' && closesNext rest) = true
      · rw [if_pos hcomma, if_pos hcomma]
        exact ih true
      · rw [if_neg hcomma, if_neg hcomma]
        -- A blank goes only behind a comma that was dropped.
        by_cases hblank : (dropping && Text.isBlank c) = true
        · rw [if_pos hblank, if_pos hblank]
          exact ih true
        · rw [if_neg hblank, if_neg hblank]
          exact .outside hopens (by simp) (ih false)
    | @literal q raw _ closing hopens hbody =>
      obtain rfl : q = '"' := by simpa [Reading.opens] using hopens
      rw [withoutCommas_literal, Piece.literal_append, commasFrom_literalBody hbody]
      exact .literal hopens (hbody.before (by rintro rfl; rfl)) (ih false)
    | line hskip => cases hskip
    | block hskip => cases hskip

/-- What is dropped are commas and blanks. -/
theorem thinned_withoutCommas (dropping : Bool) (ps : List Piece) :
    Thinned ps (withoutCommas dropping ps) := by
  induction ps generalizing dropping with
  | nil => exact .nil
  | cons p ps ih =>
    cases p with
    | outside c =>
      rw [withoutCommas_outside]
      split
      · next hdrop =>
        rw [Bool.and_eq_true, beq_iff_eq] at hdrop
        exact .leaveOut (.inl hdrop.1) (ih true)
      · split
        · next hblank =>
          rw [Bool.and_eq_true] at hblank
          exact .leaveOut (.inr hblank.2) (ih true)
        · exact .keep (ih false)
    | _ => simpa [withoutCommas, Piece.isComma, Piece.isBlank] using Thinned.keep (ih false)

theorem Splits.commasFrom {cs : List Char} {ps : List Piece} (h : Splits .plain false cs ps) :
    ∀ dropping, ∃ ps', Splits .plain false (commasFrom dropping .outside cs) ps' ∧
      Thinned ps ps' :=
  fun dropping => ⟨_, h.withoutCommas dropping, thinned_withoutCommas dropping ps⟩

/-! ### Comments -/

/-- What is written for a piece of a text with comments: nothing for a comment up to the end of its
line, a blank for one over several lines, and otherwise the piece. -/
def Piece.uncommented : Piece → List Piece
  | .line _ => []
  | .block _ => [.outside ' ']
  | p => [p]

theorem literals_uncommented (ps : List Piece) :
    literals (ps.flatMap Piece.uncommented) = literals ps := by
  induction ps with
  | nil => rfl
  | cons p ps ih =>
    rw [List.flatMap_cons, literals, List.filterMap_append, ← literals, ← literals, ih]
    cases p <;> rfl

theorem commentsFrom_outside {c : Char} {rest : List Char} (h : ¬BeginsComment (c :: rest)) :
    commentsFrom (.text .outside) (c :: rest) =
      c :: commentsFrom (.text (Place.outside.next .typographic c)) rest := by
  rw [commentsFrom.eq_def]
  split <;> simp_all [BeginsComment]

theorem commentsFrom_lineBody {body rest : List Char} (h : '\n' ∉ body)
    (hrest : ∀ c ∈ rest.head?, c = '\n') :
    commentsFrom .line (body ++ rest) = commentsFrom (.text .outside) rest := by
  cases rest with
  | nil => rw [List.append_nil, commentsFrom_lastLine h, commentsFrom_nil]
  | cons c rest =>
    obtain rfl : c = '\n' := hrest c rfl
    rw [commentsFrom_line h, commentsFrom_neutral (.of_isBlank (by decide))]

theorem commentsFrom_blockBody {body rest : List Char} (h : BlockBody body rest) :
    commentsFrom (.block false) (body ++ rest) = commentsFrom (.text .outside) rest := by
  cases h with
  | closed hbody => simpa using commentsFrom_block hbody (by simp)
  | unended hbody =>
    obtain ⟨star, hend⟩ := @exists_commentsFrom_block false _ hbody (by simp) []
    rw [hend, commentsFrom_nil, commentsFrom_nil]

theorem commentsFrom_literalBody {q : Char} {raw rest : List Char} {closing : Option Char}
    (hq : isDoubleQuote q = true) (h : LiteralBody (closes (q != '"')) raw closing rest) :
    commentsFrom (.text .outside) (q :: (raw ++ (closing.toList ++ rest))) =
      q :: (raw ++ (closing.toList ++ commentsFrom (.text .outside) rest)) := by
  have hslash : q ≠ '/' := by
    rintro rfl
    exact absurd hq (by decide)
  rw [commentsFrom_cons (.inr hslash), Place.next_opens .typographic hq]
  exact congrArg _ (h.pass_keep (fun p => commentsFrom (.text p)) .typographic
    (fun _ => commentsFrom_nil _) fun _ _ _ hp => commentsFrom_cons (.inl hp))

/-- No comment begins where none began before, because what stands behind a slash is kept. -/
theorem not_beginsComment_commentsFrom {c : Char} {rest : List Char}
    (h : ¬BeginsComment (c :: rest)) :
    ¬BeginsComment (c :: commentsFrom (.text .outside) rest) := by
  by_cases hc : c = '/'
  · subst hc
    cases rest with
    | nil => simp [commentsFrom_nil, BeginsComment]
    | cons d rest =>
      have hslash : d ≠ '/' := by
        rintro rfl
        exact h (.inl (by simp))
      rw [commentsFrom_cons (.inr hslash)]
      simpa [BeginsComment] using h
  · simp [BeginsComment, Ne.symm hc]

/-- **Dropping comments** drops those among the pieces. The rest is divided as before, whether
comments are passed over or not. -/
theorem Splits.commentsFrom {cs : List Char} {ps : List Piece}
    (h : Splits .typographic true cs ps) :
    Splits .typographic skipping (commentsFrom (.text .outside) cs)
      (ps.flatMap Piece.uncommented) := by
  induction h with
  | done =>
    rw [commentsFrom_nil]
    exact .done
  | @piece p rest ps hp _ ih =>
    cases hp with
    | @outside c _ hopens hcomment =>
      have hcomment' := hcomment rfl
      change Splits _ _ (Lenient.commentsFrom (.text .outside) (c :: rest)) _
      rw [commentsFrom_outside hcomment', Place.next_outside hopens]
      exact .outside hopens (fun _ => not_beginsComment_commentsFrom hcomment') ih
    | @literal q raw _ closing hopens hbody =>
      rw [Piece.literal_append, commentsFrom_literalBody hopens hbody]
      exact .literal hopens (hbody.before (by rintro rfl; exact commentsFrom_nil _)) ih
    | @line body _ _ hbody hrest =>
      -- The newline that ends it, if there is one, is the next piece.
      change Splits _ _ (Lenient.commentsFrom .line (body ++ rest)) _
      rw [commentsFrom_lineBody hbody hrest]
      exact ih
    | @block body _ _ hbody =>
      change Splits _ _ (' ' :: Lenient.commentsFrom (.block false) (body ++ rest)) _
      rw [commentsFrom_blockBody hbody]
      exact .outside rfl (fun _ => by simp [BeginsComment]) ih

/-! ### The three repairs -/

/-- The pieces of what a repair makes of a text are its only ones. -/
theorem Splits.divides {t : String} {cs : List Char} {ps : List Piece}
    (h : Splits reading skipping cs ps) (ht : t.toList = cs) : Divides reading skipping t ps := by
  subst ht
  exact ⟨h, fun _ h' => h'.unique h⟩

/-- **The literals of any text survive every repair.** Straightened quotes leave a text as long as
it was, and its literals in the plain reading are where those of the typographic reading were, with
the same content. Dropping trailing commas leaves out commas and blanks outside literals, and
nothing else. Dropping comments leaves the literals that stand outside comments, as they are. -/
theorem repairs_keep_literals (t : String) :
    (∃ ps, Divides .typographic false t ps ∧
        Divides .plain false (straightenQuotes t) (ps.map Piece.straightened) ∧
        (straightenQuotes t).length = t.length ∧
        located 0 (ps.map Piece.straightened) = located 0 ps) ∧
      (∃ ps ps', Divides .plain false t ps ∧ Divides .plain false (dropTrailingCommas t) ps' ∧
        Thinned ps ps' ∧ literals ps' = literals ps) ∧
      ∃ ps, Divides .typographic true t ps ∧
        Divides .typographic false (dropComments t) (ps.flatMap Piece.uncommented) ∧
        literals (ps.flatMap Piece.uncommented) = literals ps := by
  refine ⟨?_, ?_, ?_⟩
  · obtain ⟨ps, hps⟩ := exists_splits .typographic false t.toList
    have hlength : (straightenQuotes t).length = t.length := by
      rw [straightenQuotes, String.length_ofList, length_straightenFrom, String.length_toList]
    exact ⟨ps, hps.divides rfl, hps.straightenFrom.divides String.toList_ofList, hlength,
      located_straightened 0 ps⟩
  · obtain ⟨ps, hps⟩ := exists_splits .plain false t.toList
    obtain ⟨ps', hps', hthinned⟩ := hps.commasFrom false
    exact ⟨ps, ps', hps.divides rfl, hps'.divides String.toList_ofList, hthinned,
      hthinned.literals_eq⟩
  · obtain ⟨ps, hps⟩ := exists_splits .typographic true t.toList
    exact ⟨ps, hps.divides rfl, hps.commentsFrom.divides String.toList_ofList,
      literals_uncommented ps⟩

end Lenient

end ExtractionContract
