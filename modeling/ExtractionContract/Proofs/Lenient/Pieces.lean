import ExtractionContract.Lenient.Literal
import Mathlib.Data.List.Infix
import Mathlib.Data.List.TakeWhile

/-!
# The pieces of any text

Any text divides into literals, comments where they are passed over, and single characters outside
both, whether or not it is JSON. `StandsFirst` says which piece stands first in a text, and `Splits`
goes on with the rest. This is the division that the repairs have to respect; it is stated without
the places that they keep track of.

* `exists_splits`, `Splits.unique`: a text divides in one way, in either reading.
-/

namespace ExtractionContract

namespace Lenient

/-- A literal as it stands in a text: the quote that begins it, what comes after that, and the quote
that ends it, unless the text ends first. -/
structure Literal where
  opening : Char
  content : List Char
  closing : Option Char

/-- A part of a text. -/
inductive Piece where
  /-- A character outside literals and comments. -/
  | outside (c : Char)
  | literal (l : Literal)
  /-- A comment up to the end of its line, by what stands after the two slashes. -/
  | line (body : List Char)
  /-- A comment over several lines, by what stands after the slash and the star. -/
  | block (body : List Char)

/-- The characters of a piece. -/
def Piece.text : Piece → List Char
  | outside c => [c]
  | literal l => l.opening :: (l.content ++ l.closing.toList)
  | line body => '/' :: '/' :: body
  | block body => '/' :: '*' :: body

theorem Piece.literal_append (q : Char) (raw : List Char) (closing : Option Char)
    (rest : List Char) : (Piece.literal ⟨q, raw, closing⟩).text ++ rest =
      q :: (raw ++ (closing.toList ++ rest)) := by
  rw [text, List.cons_append, List.append_assoc]

/-- The literals among pieces. -/
def literals (ps : List Piece) : List Literal :=
  ps.filterMap fun
    | .literal l => some l
    | _ => none

/-- A literal's content and what ends it, before the rest of a text, when some characters end
literals. Each of these stands after an escaping backslash in the content, and the first that does
not ends the literal. Without one the literal goes on to the end of the text. -/
inductive LiteralBody (ends : Char → Bool) : List Char → Option Char → List Char → Prop
  | closed {q : Char} {rest : List Char} : ends q = true → LiteralBody ends [] (some q) rest
  | unended : LiteralBody ends [] none []
  /-- A backslash at the end of the text escapes nothing. -/
  | backslash : LiteralBody ends ['\\'] none []
  | char {c : Char} {raw rest : List Char} {closing : Option Char} :
    c ≠ '\\' → ends c = false → LiteralBody ends raw closing rest →
    LiteralBody ends (c :: raw) closing rest
  | escape {c : Char} {raw rest : List Char} {closing : Option Char} :
    LiteralBody ends raw closing rest → LiteralBody ends ('\\' :: c :: raw) closing rest

/-- What stands in a comment over several lines, before the rest of a text: up to and with the first
star before a slash, or else up to the end of the text. -/
inductive BlockBody : List Char → List Char → Prop
  | closed {body rest : List Char} : ¬['*', '/'] <:+: body → BlockBody (body ++ ['*', '/']) rest
  | unended {body : List Char} : ¬['*', '/'] <:+: body → BlockBody body []

/-- Whether a text begins with what begins a comment. -/
def BeginsComment (cs : List Char) : Prop :=
  ['/', '/'] <+: cs ∨ ['/', '*'] <+: cs

/-- A piece that stands first in a text, before the rest of it, where comments are passed over or
not. -/
inductive StandsFirst (reading : Reading) (skipping : Bool) : Piece → List Char → Prop
  | outside {c : Char} {rest : List Char} :
    reading.opens c = false → (skipping = true → ¬BeginsComment (c :: rest)) →
    StandsFirst reading skipping (.outside c) rest
  | literal {q : Char} {raw rest : List Char} {closing : Option Char} :
    reading.opens q = true → LiteralBody (closes (q != '"')) raw closing rest →
    StandsFirst reading skipping (.literal ⟨q, raw, closing⟩) rest
  | line {body rest : List Char} :
    skipping = true → '\n' ∉ body → (∀ c ∈ rest.head?, c = '\n') →
    StandsFirst reading skipping (.line body) rest
  | block {body rest : List Char} :
    skipping = true → BlockBody body rest → StandsFirst reading skipping (.block body) rest

/-- The pieces of a text, in order. -/
inductive Splits (reading : Reading) (skipping : Bool) : List Char → List Piece → Prop
  | done : Splits reading skipping [] []
  | piece {p : Piece} {rest : List Char} {ps : List Piece} :
    StandsFirst reading skipping p rest → Splits reading skipping rest ps →
    Splits reading skipping (p.text ++ rest) (p :: ps)

/-- A text divides into pieces, and in no other way. -/
def Divides (reading : Reading) (skipping : Bool) (t : String) (ps : List Piece) : Prop :=
  Splits reading skipping t.toList ps ∧ ∀ ps', Splits reading skipping t.toList ps' → ps' = ps

variable {reading : Reading} {skipping : Bool}

theorem Splits.outside {c : Char} {rest : List Char} {ps : List Piece}
    (hc : reading.opens c = false) (hcomment : skipping = true → ¬BeginsComment (c :: rest))
    (h : Splits reading skipping rest ps) :
    Splits reading skipping (c :: rest) (.outside c :: ps) :=
  .piece (.outside hc hcomment) h

theorem Splits.literal {q : Char} {raw rest : List Char} {closing : Option Char} {ps : List Piece}
    (hq : reading.opens q = true) (hbody : LiteralBody (closes (q != '"')) raw closing rest)
    (h : Splits reading skipping rest ps) :
    Splits reading skipping (q :: (raw ++ (closing.toList ++ rest)))
      (.literal ⟨q, raw, closing⟩ :: ps) :=
  Piece.literal_append q raw closing rest ▸ .piece (.literal hq hbody) h

/-! ### One way to divide -/

theorem closes_backslash (curly : Bool) : closes curly '\\' = false := by
  cases curly <;> decide

theorem opens_slash (reading : Reading) : reading.opens '/' = false := by
  cases reading <;> decide

/-- A literal ends in one way. -/
theorem LiteralBody.unique {curly : Bool} {raw raw' rest rest' : List Char}
    {closing closing' : Option Char} (h : LiteralBody (closes curly) raw closing rest)
    (h' : LiteralBody (closes curly) raw' closing' rest')
    (heq : raw ++ (closing.toList ++ rest) = raw' ++ (closing'.toList ++ rest')) :
    raw = raw' ∧ closing = closing' ∧ rest = rest' := by
  have hslash := closes_backslash curly
  -- The next character tells what it is, and a backslash takes the next one with it.
  induction h generalizing raw' with
  | closed => cases h' <;> grind
  | unended => cases h' <;> grind
  | backslash => cases h' <;> grind
  | char hc hends _ ih =>
    cases h' with
    | char _ _ h' =>
      obtain ⟨rfl, htail⟩ := List.cons.inj heq
      obtain ⟨rfl, hrest⟩ := ih h' htail
      exact ⟨rfl, hrest⟩
    | _ => grind
  | escape _ ih =>
    cases h' with
    | escape h' =>
      obtain ⟨rfl, htail⟩ := List.cons.inj (List.cons.inj heq).2
      obtain ⟨rfl, hrest⟩ := ih h' htail
      exact ⟨rfl, hrest⟩
    | _ => grind

/-- A star before a slash is the first of its kind in one way. -/
theorem eq_of_append_star_slash {body body' rest rest' : List Char}
    (h : ¬['*', '/'] <:+: body) (h' : ¬['*', '/'] <:+: body')
    (heq : body ++ '*' :: '/' :: rest = body' ++ '*' :: '/' :: rest') :
    body = body' ∧ rest = rest' := by
  induction body generalizing body' with
  | nil =>
    match body' with
    | [] => simpa using heq
    | [c] => simp at heq
    | c :: c' :: body' =>
      -- The longer one would have the two characters in it.
      simp only [List.nil_append, List.cons_append, List.cons.injEq] at heq
      obtain ⟨rfl, rfl, -⟩ := heq
      exact absurd ⟨[], body', rfl⟩ h'
  | cons c body ih =>
    match body' with
    | [] =>
      match body with
      | [] => simp at heq
      | c' :: body =>
        simp only [List.nil_append, List.cons_append, List.cons.injEq] at heq
        obtain ⟨rfl, rfl, -⟩ := heq
        exact absurd ⟨[], body, rfl⟩ h
    | c' :: body' =>
      obtain ⟨rfl, htail⟩ := List.cons.inj heq
      have hbody := fun hinfix => h (List.infix_cons hinfix)
      have hbody' := fun hinfix => h' (List.infix_cons hinfix)
      obtain ⟨rfl, rfl⟩ := ih hbody hbody' htail
      exact ⟨rfl, rfl⟩

theorem BlockBody.unique {body body' rest rest' : List Char} (h : BlockBody body rest)
    (h' : BlockBody body' rest') (heq : body ++ rest = body' ++ rest') :
    body = body' ∧ rest = rest' := by
  cases h with
  | @closed body _ hbody =>
    cases h' with
    | closed hbody' =>
      simp only [List.append_assoc, List.cons_append, List.nil_append] at heq
      obtain ⟨rfl, rfl⟩ := eq_of_append_star_slash hbody hbody' heq
      exact ⟨rfl, rfl⟩
    | unended hbody' => exact absurd ⟨body, rest, by simpa using heq⟩ hbody'
  | unended hbody =>
    cases h' with
    | @closed body' _ _ => exact absurd ⟨body', rest', by simpa using heq.symm⟩ hbody
    | unended => simpa using heq

/-- A line ends in one way. -/
theorem eq_of_append_newline {body body' rest rest' : List Char} (h : '\n' ∉ body)
    (h' : '\n' ∉ body') (hrest : ∀ c ∈ rest.head?, c = '\n')
    (hrest' : ∀ c ∈ rest'.head?, c = '\n') (heq : body ++ rest = body' ++ rest') :
    body = body' ∧ rest = rest' := by
  induction body generalizing body' with
  | nil =>
    cases body' with
    | nil => exact ⟨rfl, heq⟩
    | cons c body' =>
      obtain rfl : rest = c :: (body' ++ rest') := heq
      obtain rfl : c = '\n' := hrest c rfl
      exact absurd List.mem_cons_self h'
  | cons c body ih =>
    cases body' with
    | nil =>
      obtain rfl : c :: (body ++ rest) = rest' := heq
      obtain rfl : c = '\n' := hrest' c rfl
      exact absurd List.mem_cons_self h
    | cons c' body' =>
      obtain ⟨rfl, htail⟩ := List.cons.inj heq
      obtain ⟨rfl, rfl⟩ := ih (fun hc => h (List.mem_cons_of_mem _ hc))
        (fun hc => h' (List.mem_cons_of_mem _ hc)) htail
      exact ⟨rfl, rfl⟩

/-- The kinds of pieces, which their first two characters tell apart. -/
inductive Piece.Kind where
  | outside | literal | line | block
deriving DecidableEq

/-- The kind of a piece. -/
def Piece.kind : Piece → Piece.Kind
  | outside _ => .outside
  | literal _ => .literal
  | line _ => .line
  | block _ => .block

/-- The kind of the piece that stands first in a text. -/
def kindAt (reading : Reading) (skipping : Bool) : List Char → Piece.Kind
  | '/' :: '/' :: _ => if skipping then .line else .outside
  | '/' :: '*' :: _ => if skipping then .block else .outside
  | c :: _ => if reading.opens c then .literal else .outside
  | [] => .outside

theorem kindAt_of_opens {c : Char} {cs : List Char} (h : reading.opens c = true) :
    kindAt reading skipping (c :: cs) = .literal := by
  have hc : c ≠ '/' := by
    rintro rfl
    simp [opens_slash] at h
  rw [kindAt.eq_def]
  split <;> simp_all

theorem StandsFirst.kind_eq {p : Piece} {rest : List Char}
    (h : StandsFirst reading skipping p rest) :
    kindAt reading skipping (p.text ++ rest) = p.kind := by
  cases h with
  | outside hc hcomment =>
    rw [kindAt.eq_def]
    split <;> simp_all [Piece.text, Piece.kind, BeginsComment]
  | literal hq => exact kindAt_of_opens hq
  | line hskip => exact if_pos hskip
  | block hskip => exact if_pos hskip

/-- **One piece stands first.** -/
theorem StandsFirst.unique {p p' : Piece} {rest rest' : List Char}
    (h : StandsFirst reading skipping p rest) (h' : StandsFirst reading skipping p' rest')
    (heq : p.text ++ rest = p'.text ++ rest') : p = p' ∧ rest = rest' := by
  -- The first two characters tell the kind, so only pieces of one kind are left to compare.
  have hkind : p.kind = p'.kind := by rw [← h.kind_eq, heq, h'.kind_eq]
  cases h with
  | outside =>
    cases h' with
    | outside => simpa [Piece.text] using heq
    | _ => cases hkind
  | literal _ hbody =>
    cases h' with
    | literal _ hbody' =>
      rw [Piece.literal_append, Piece.literal_append] at heq
      obtain ⟨rfl, htail⟩ := List.cons.inj heq
      obtain ⟨rfl, rfl, rfl⟩ := hbody.unique hbody' htail
      exact ⟨rfl, rfl⟩
    | _ => cases hkind
  | line _ hbody hrest =>
    cases h' with
    | line _ hbody' hrest' =>
      simp only [Piece.text, List.cons_append, List.cons.injEq, true_and] at heq
      obtain ⟨rfl, rfl⟩ := eq_of_append_newline hbody hbody' hrest hrest' heq
      exact ⟨rfl, rfl⟩
    | _ => cases hkind
  | block _ hbody =>
    cases h' with
    | block _ hbody' =>
      simp only [Piece.text, List.cons_append, List.cons.injEq, true_and] at heq
      obtain ⟨rfl, rfl⟩ := hbody.unique hbody' heq
      exact ⟨rfl, rfl⟩
    | _ => cases hkind

theorem Piece.text_ne_nil (p : Piece) : p.text ≠ [] := by
  cases p <;> simp [Piece.text]

/-- **A text divides in one way.** -/
theorem Splits.unique {cs : List Char} {ps ps' : List Piece} (h : Splits reading skipping cs ps)
    (h' : Splits reading skipping cs ps') : ps = ps' := by
  induction h generalizing ps' with
  | done =>
    generalize hcs : [] = cs at h'
    cases h' with
    | done => rfl
    | @piece p => exact absurd (List.append_eq_nil_iff.mp hcs.symm).1 p.text_ne_nil
  | @piece p rest ps hp _ ih =>
    generalize hcs : p.text ++ rest = cs at h'
    cases h' with
    | done => exact absurd (List.append_eq_nil_iff.mp hcs).1 p.text_ne_nil
    | piece hp' h' =>
      obtain ⟨rfl, rfl⟩ := hp.unique hp' hcs
      rw [ih h']

/-! ### Every text divides -/

theorem exists_literalBody (ends : Char → Bool) : ∀ cs : List Char,
    ∃ raw closing rest, LiteralBody ends raw closing rest ∧ cs = raw ++ (closing.toList ++ rest)
  | [] => ⟨[], none, [], .unended, rfl⟩
  | c :: cs => by
    by_cases hslash : c = '\\'
    · subst hslash
      match cs with
      | [] => exact ⟨['\\'], none, [], .backslash, rfl⟩
      | c :: cs =>
        obtain ⟨raw, closing, rest, h, rfl⟩ := exists_literalBody ends cs
        exact ⟨'\\' :: c :: raw, closing, rest, .escape h, rfl⟩
    · cases hends : ends c with
      | true => exact ⟨[], some c, cs, .closed hends, rfl⟩
      | false =>
        obtain ⟨raw, closing, rest, h, rfl⟩ := exists_literalBody ends cs
        exact ⟨c :: raw, closing, rest, .char hslash hends h, rfl⟩

/-- A star before a slash is the first of its kind, or there is none. -/
theorem exists_star_slash (cs : List Char) :
    ¬['*', '/'] <:+: cs ∨ ∃ body rest, ¬['*', '/'] <:+: body ∧ cs = body ++ '*' :: '/' :: rest := by
  induction cs with
  | nil => exact .inl (by simp)
  | cons c cs ih =>
    by_cases hhere : ['*', '/'] <+: c :: cs
    · obtain ⟨rest, hrest⟩ := hhere
      exact .inr ⟨[], rest, by simp, hrest.symm⟩
    · refine ih.imp ?_ ?_
      · exact fun hlater hinfix => (List.infix_cons_iff.mp hinfix).elim hhere hlater
      · rintro ⟨body, rest, hbody, rfl⟩
        refine ⟨c :: body, rest, fun hinfix => ?_, rfl⟩
        -- What begins with the body begins with it whatever stands behind.
        refine (List.infix_cons_iff.mp hinfix).elim (fun hprefix => hhere ?_) hbody
        exact hprefix.trans (List.prefix_append (c :: body) _)

theorem exists_blockBody (cs : List Char) :
    ∃ body rest, BlockBody body rest ∧ cs = body ++ rest := by
  rcases exists_star_slash cs with h | ⟨body, rest, h, rfl⟩
  · exact ⟨cs, [], .unended h, (List.append_nil cs).symm⟩
  · exact ⟨body ++ ['*', '/'], rest, .closed h, by simp⟩

theorem exists_lineBody (cs : List Char) :
    ∃ body rest, '\n' ∉ body ∧ (∀ c ∈ rest.head?, c = '\n') ∧ cs = body ++ rest := by
  refine ⟨cs.takeWhile (· != '\n'), cs.dropWhile (· != '\n'), fun h => ?_, fun c hc => ?_,
    List.takeWhile_append_dropWhile.symm⟩
  · simpa using List.mem_takeWhile_imp h
  · have hnot := List.head?_dropWhile_not (· != '\n') cs
    rw [Option.mem_def.mp hc] at hnot
    simpa using hnot

/-- **A piece stands first.** -/
theorem exists_standsFirst (reading : Reading) (skipping : Bool) (c : Char) (cs : List Char) :
    ∃ p rest, StandsFirst reading skipping p rest ∧ c :: cs = p.text ++ rest := by
  by_cases hcomment : skipping = true ∧ BeginsComment (c :: cs)
  · obtain ⟨hskip, ⟨r, hr⟩ | ⟨r, hr⟩⟩ := hcomment
    · obtain ⟨body, rest, hbody, hrest, rfl⟩ := exists_lineBody r
      exact ⟨.line body, rest, .line hskip hbody hrest, hr.symm⟩
    · obtain ⟨body, rest, hbody, rfl⟩ := exists_blockBody r
      exact ⟨.block body, rest, .block hskip hbody, hr.symm⟩
  · cases hopens : reading.opens c with
    | true =>
      obtain ⟨raw, closing, rest, hbody, rfl⟩ := exists_literalBody (closes (c != '"')) cs
      exact ⟨.literal ⟨c, raw, closing⟩, rest, .literal hopens hbody,
        (Piece.literal_append c raw closing rest).symm⟩
    | false => exact ⟨.outside c, cs, .outside hopens fun h h' => hcomment ⟨h, h'⟩, rfl⟩

/-- **Every text divides.** -/
theorem exists_splits (reading : Reading) (skipping : Bool) (cs : List Char) :
    ∃ ps, Splits reading skipping cs ps := by
  match cs with
  | [] => exact ⟨[], .done⟩
  | c :: cs =>
    obtain ⟨p, rest, hp, heq⟩ := exists_standsFirst reading skipping c cs
    have hlength : rest.length < (c :: cs).length := by
      have hpos := List.length_pos_iff.mpr p.text_ne_nil
      rw [heq, List.length_append]
      omega
    obtain ⟨ps, hps⟩ := exists_splits reading skipping rest
    exact ⟨p :: ps, heq ▸ .piece hp hps⟩
termination_by cs.length
decreasing_by exact hlength

end Lenient

end ExtractionContract
