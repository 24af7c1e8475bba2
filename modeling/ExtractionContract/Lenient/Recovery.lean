import ExtractionContract.Failure

/-!
# Reading a text that may need repair

`recover` reads a text at the first stage of repair at which it can be read. Every failed
reading is reported, and so is a success that needed a repair.
-/

namespace ExtractionContract

namespace Lenient

/-- A text that could be read. -/
structure Recovered where
  value : Json
  /-- The text that was read in the end. -/
  text : String
  stage : Stage

/-- Reads a text at a stage, and otherwise goes on. -/
def recoverAt (stage : Stage) (s : String)
    (otherwise : Json.ReadError → Attempt Recovered) : Attempt Recovered :=
  match Json.parse (stage.candidate s) with
  | .ok v =>
    ⟨.ok ⟨v, stage.candidate s, stage⟩,
      if stage = .asIs then [] else [.readAfterRepair stage]⟩
  | .error e =>
    let next := otherwise e
    ⟨next.value, .readingFailed stage e :: next.events⟩

/-- Reads a text, with as little repair as it needs. -/
def recover (s : String) : Attempt Recovered :=
  recoverAt .asIs s fun _ =>
    recoverAt .quotesAndCommas s fun _ =>
      recoverAt .comments s fun e => Attempt.fail (.unrepairable .comments e)

end Lenient

end ExtractionContract
