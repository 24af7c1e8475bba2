import ExtractionContract.Graph.Display
import ExtractionContract.Import.Source

/-!
# Configurations

What can be set for a compiler. Every setting has a default, so a configuration names only what
it changes; labels and headers that it gives replace the built-in ones.

* `Config.validate`: the indentation and the length of examples must not be zero.
* `Config.ofText`: reads a configuration from a text that may need repair.
-/

namespace ExtractionContract

/-- The settings of a compiler. -/
structure Config where
  /-- The indentation of one level. -/
  indentUnit : UInt32 := Display.defaultUnit
  /-- The length to which examples are cut. -/
  exampleLength : Nat := Inferrer.defaultMaxLength
  labels : Labels := .builtIn
  headers : Headers := .builtIn
  policy : DuplicatePolicy := .coexist

namespace Config

/-- A configuration in which nothing is changed. -/
def standard : Config := {}

/-- The failure that a setting is zero. -/
def zeroSetting (key : String) : Failure :=
  .configRefused s!"{key} must be greater than 0"

/-- The failure of a configuration that sets something to zero. -/
def validate (c : Config) : Except Failure Unit :=
  if c.indentUnit = 0 then .error (zeroSetting "indentUnit")
  else if c.exampleLength = 0 then .error (zeroSetting "exampleMaxLen")
  else .ok ()

/-! ### Configurations as JSON -/

/-- A configuration as an object. -/
def toJson (c : Config) : Json :=
  .obj [
    ("indentUnit", .ofNat c.indentUnit.toNat),
    ("exampleMaxLen", .ofNat c.exampleLength),
    ("labels", c.labels.toJson),
    ("headers", c.headers.toJson),
    ("duplicatePolicy", .str c.policy.name)]

/-- Reads a number of thirty-two bits without a sign. -/
def asIndent (v : Json) : Shaped UInt32 :=
  (v.asIntBetween 0 (twoTo 32 - 1) "u32").map fun i => .ofNat i.toNat

/-- Reads a number of sixty-four bits without a sign. -/
def asLength (v : Json) : Shaped Nat :=
  (v.asIntBetween 0 (twoTo 64 - 1) "usize").map Int.toNat

/-- The shape of a stored configuration. -/
def shape : Json.RecordShape Config where
  name := "CompilerConfig"
  blank := standard
  slots := [
    .of "indentUnit" .never asIndent fun v c => { c with indentUnit := v },
    .of "exampleMaxLen" .never asLength fun v c => { c with exampleLength := v },
    .of "labels" .never Labels.ofJson fun v c => { c with labels := v },
    .of "headers" .never Headers.ofJson fun v c => { c with headers := v },
    .of "duplicatePolicy" .never DuplicatePolicy.ofJson fun v c => { c with policy := v }]

/-- Reads a stored configuration. -/
def ofJson (v : Json) : Shaped Config :=
  shape.read v

/-- Reads and checks a configuration from a text that may need repair. -/
def ofText (text : String) : Attempt Config :=
  (Lenient.recover text).andThen fun r =>
    match ofJson r.value with
    | .error e => Attempt.fail (.configMisshapen e)
    | .ok c =>
      match c.validate with
      | .error e => Attempt.fail e
      | .ok _ => ⟨.ok c, [.configLoaded c.labels.size c.policy]⟩

end Config

end ExtractionContract
