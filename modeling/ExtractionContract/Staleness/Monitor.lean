import ExtractionContract.Staleness.Snapshot

/-!
# Monitors

A monitor keeps a flag that says whether a contract has changed since a baseline. Digests are
applied in the order in which they arrive and the last one counts; a digest that could not be
computed leaves the flag as it is. Without a baseline nothing is stale.
-/

namespace ExtractionContract

/-- A baseline, if there is one, and whether the contract differs from it. -/
structure Monitor where
  baseline : Option String
  stale : Bool
deriving DecidableEq

namespace Monitor

/-- The monitor without a baseline. -/
def empty : Monitor := ⟨none, false⟩

/-- The monitor of a baseline that nothing has been compared with. -/
def new (baseline : Option String) : Monitor := ⟨baseline, false⟩

/-- The monitor of a snapshot. -/
def ofSnapshot (s : Snapshot) : Monitor := new (some s.digest)

variable (m : Monitor)

/-- Applies a digest, or the failure to compute it. The flag is returned with the monitor. -/
def apply (digest : Except Failure String) : Bool × Monitor :=
  match m.baseline with
  | none => (false, { m with stale := false })
  | some b =>
    let m' := match digest with
      | .ok d => { m with stale := d != b }
      | .error _ => m
    (m'.stale, m')

/-- What is reported when a digest is applied. -/
def applyEvents (digest : Except Failure String) : List Event :=
  match m.baseline, digest with
  | some _, .error e => [.digestFailed e.message]
  | _, _ => []

/-- Applies a digest, with a report when it could not be computed. -/
def applyLogged (digest : Except Failure String) : Logged (Bool × Monitor) :=
  ⟨m.apply digest, m.applyEvents digest⟩

/-- Applies the digest of a contract. -/
def observe (g : FieldGraph) (schema : Option String) : Bool × Monitor :=
  m.apply (.ok (g.digest schema))

/-- Applies the digest of a contract, with a report. -/
def observeLogged (g : FieldGraph) (schema : Option String) : Logged (Bool × Monitor) := do
  let d ← g.digestLogged schema
  m.applyLogged (.ok d)

/-- Takes a new baseline, that of a snapshot. -/
def rebase (_ : Monitor) (s : Snapshot) : Monitor :=
  ⟨some s.digest, false⟩

end Monitor

end ExtractionContract
