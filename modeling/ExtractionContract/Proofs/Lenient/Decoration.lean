import ExtractionContract.Lenient.Recovery
import ExtractionContract.Proofs.Json.Grammar
import Mathlib.Data.List.Infix

/-!
# Decorated documents

A document written or edited by hand may have comments, a comma before a closing bracket and
typographic quotes around its literals. `Decorates` says that one text is another with such
decorations, put anywhere between its tokens.
-/

namespace ExtractionContract

namespace Lenient

open Json (Token Content Laid isPunct isScalarChar isSpace isQuote isCloser atBoundary)

/-! ### Decorations -/

/-- Whether a character is one of the four typographic double quotes. -/
def isTypographic (c : Char) : Bool :=
  c == '\u201c' || c == '\u201d' || c == '\u201e' || c == '\u201f'

/-- The delimiters that a literal may have in a reading. Typographic ones need not be the same
at both ends, and no double quote may stand between them but after a backslash. -/
inductive Delimits (raw : List Char) : Reading → Char → Char → Prop
  | plain {reading : Reading} : Delimits raw reading '"' '"'
  | typographic {q q' : Char} :
    isTypographic q = true → isTypographic q' = true → Content isDoubleQuote raw →
    Delimits raw .typographic q q'

/-- A text in which tokens stand in order, with decorations. The second argument says whether
there is a comment; the third whether a comma may be put before a closing bracket that stands
next, which is so after a value and only once. -/
inductive Decorated (reading : Reading) : Bool → Bool → List Token → List Char → Prop
  | done {b : Bool} : Decorated reading false b [] []
  | blank {k b : Bool} {ts : List Token} {c : Char} {cs : List Char} :
    isSpace c = true → Decorated reading k b ts cs → Decorated reading k b ts (c :: cs)
  | line {k b : Bool} {ts : List Token} {body cs : List Char} :
    '\n' ∉ body → Decorated reading k b ts cs →
    Decorated reading true b ts ('/' :: '/' :: (body ++ '\n' :: cs))
  | lastLine {b : Bool} {body : List Char} :
    '\n' ∉ body → Decorated reading true b [] ('/' :: '/' :: body)
  | block {k b : Bool} {ts : List Token} {body cs : List Char} :
    ¬['*', '/'] <:+: body → Decorated reading k b ts cs →
    Decorated reading true b ts ('/' :: '*' :: (body ++ '*' :: '/' :: cs))
  | comma {k : Bool} {ts : List Token} {c : Char} {cs : List Char} :
    isCloser c = true → Decorated reading k false (.punct c :: ts) cs →
    Decorated reading k true (.punct c :: ts) (',' :: cs)
  | punct {k b : Bool} {ts : List Token} {c : Char} {cs : List Char} :
    isPunct c = true → Decorated reading k (isCloser c) ts cs →
    Decorated reading k b (.punct c :: ts) (c :: cs)
  | literal {k b : Bool} {ts : List Token} {raw cs : List Char} {q q' : Char} :
    Content isQuote raw → Delimits raw reading q q' → Decorated reading k true ts cs →
    Decorated reading k b (.literal raw :: ts) (q :: (raw ++ q' :: cs))
  | scalar {k b : Bool} {ts : List Token} {w cs : List Char} :
    w ≠ [] → (∀ c ∈ w, isScalarChar c = true) → atBoundary cs = true →
    Decorated reading k true ts cs → Decorated reading k b (.scalar w :: ts) (w ++ cs)

/-- One text is another with decorations, with or without a comment among them. -/
def Decorates (s d : String) (commented : Bool) : Prop :=
  ∃ ts, Laid ts s.toList ∧ Decorated .typographic commented false ts d.toList

/-- A text is itself without decorations. -/
theorem Decorated.of_laid {reading : Reading} {ts : List Token} {cs : List Char}
    (h : Laid ts cs) : ∀ b, Decorated reading false b ts cs := by
  induction h with
  | done => exact fun _ => .done
  | blank hc _ ih => exact fun b => .blank hc (ih b)
  | punct hc _ ih => exact fun _ => .punct hc (ih _)
  | literal hraw _ ih => exact fun _ => .literal hraw .plain (ih _)
  | scalar hne hw hb _ ih => exact fun _ => .scalar hne hw hb (ih _)

/-! ### Characters that are no delimiters -/

theorem isTypographic_eq {c : Char} (h : isTypographic c = true) :
    c = '\u201c' ∨ c = '\u201d' ∨ c = '\u201e' ∨ c = '\u201f' := by
  simpa [isTypographic, or_assoc] using h

theorem closes_false : closes false = isQuote := by
  funext c
  simp [closes, isQuote]

theorem closes_true : closes true = isDoubleQuote := by
  funext c
  cases hc : c == '"' <;> simp [closes, isDoubleQuote, hc]

/-- Between its delimiters a literal is content of its reading. -/
theorem Delimits.spec {raw : List Char} {reading : Reading} {q q' : Char}
    (h : Delimits raw reading q q') (hraw : Content isQuote raw) :
    reading.opens q = true ∧ isDoubleQuote q = true ∧ closes (q != '"') q' = true ∧
      Content (closes (q != '"')) raw := by
  cases h with
  | plain =>
    refine ⟨?_, by decide, by decide, ?_⟩
    · cases reading <;> decide
    · rwa [show ('"' != '"') = false from rfl, closes_false]
  | typographic hq hq' hcontent =>
    have hne : (q != '"') = true ∧ isDoubleQuote q = true := by
      rcases isTypographic_eq hq with rfl | rfl | rfl | rfl <;> decide
    rw [hne.1, closes_true]
    refine ⟨hne.2, hne.2, ?_, hcontent⟩
    rcases isTypographic_eq hq' with rfl | rfl | rfl | rfl <;> decide

/-- Characters that are no part of any decoration or literal. -/
structure Neutral (c : Char) : Prop where
  slash : c ≠ '/'
  quote : isDoubleQuote c = false
  single : isCurlySingle c = false

/-- The characters that are not neutral. -/
def delimiters : List Char :=
  ['/', '"', '\u201c', '\u201d', '\u201e', '\u201f', '\u2018', '\u2019']

/-- A kind of character that has no delimiter in it. -/
theorem Neutral.of_kind {kind : Char → Bool} (hkind : delimiters.all (fun c => !kind c) = true)
    {c : Char} (h : kind c = true) : Neutral c := by
  have hne : ∀ d ∈ delimiters, c ≠ d := by
    rintro d hd rfl
    have hc := List.all_eq_true.mp hkind c hd
    exact absurd h (by simpa using hc)
  simp only [delimiters, List.forall_mem_cons] at hne
  obtain ⟨hslash, h₁, h₂, h₃, h₄, h₅, h₆, h₇, -⟩ := hne
  exact ⟨hslash, by simp [isDoubleQuote, h₁, h₂, h₃, h₄, h₅], by simp [isCurlySingle, h₆, h₇]⟩

theorem Neutral.of_isBlank {c : Char} (h : Text.isBlank c = true) : Neutral c :=
  .of_kind (by decide) h

theorem Neutral.of_isSpace {c : Char} (h : isSpace c = true) : Neutral c :=
  .of_kind (by decide) h

theorem Neutral.of_isPunct {c : Char} (h : isPunct c = true) : Neutral c :=
  .of_kind (by decide) h

theorem Neutral.of_isScalarChar {c : Char} (h : isScalarChar c = true) : Neutral c :=
  .of_kind (by decide) h

end Lenient

end ExtractionContract
