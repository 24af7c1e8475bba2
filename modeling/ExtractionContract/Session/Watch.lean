import ExtractionContract.Session.Basic

/-!
# Watching a session's contract

The commands that remember the contract and compare it with what was remembered. They leave
the graph as it is.

* `Watch`: the commands.
* `Session.watch`: carries one out, with the schema it needs and the time it is.
-/

namespace ExtractionContract

/-- A command that remembers the contract or compares it. -/
inductive Watch where
  | digest
  /-- Whether a stored fingerprint is another one. -/
  | isStale (stored : Option String)
  /-- Whether the last fingerprint asked for is another one. -/
  | isStaleSinceDigest
  | capture
  /-- Has a prompt written. -/
  | write (author : PromptAuthor)
  | isSnapshotStale
  | showMonitor
  | newMonitor (baseline : Option String)
  | monitorSnapshot
  | rebase
  | observe
  | apply (digest : Except Failure String)

/-- The author that writes a prompt, if it has one, and after it how much the prompt is
about. -/
def PromptAuthor.stating (prompt : Option String) : PromptAuthor := fun g schema =>
  match prompt with
  | none => .error (.importRefused "no model")
  | some p =>
    let fields := g.size
    let length := (schema.map String.length).getD 0
    .ok s!"{p} [{fields} fields, {length} schema chars]"

namespace Session

variable (s : Session)

/-- The outcome that there is another monitor. -/
def withMonitor (returned : Option Bool) (m : Monitor) : Outcome :=
  { s with monitor := m }.answer (.monitor returned m)

/-- The outcome that there is a monitor of the snapshot, if one was taken. -/
def monitorFrom (make : Snapshot → Monitor) : Outcome :=
  s.withMonitor none ((s.snapshot.map make).getD s.monitor)

/-- Has a prompt written. The snapshot taken for it is kept when that succeeds. -/
def write (author : PromptAuthor) (schema : Option String) (now : Instant) : Logged Outcome :=
  let attempt := makeArtifact author s.graph schema now
  match attempt.value with
  | .ok a => ⟨{ s with snapshot := some a.source }.answer (.artifact a), attempt.events⟩
  | .error e => ⟨s.refuse e, attempt.events⟩

/-- Carries out a command that remembers the contract or compares it. -/
def watch (schema : Option String) (now : Instant) : Watch → Logged Outcome
  | .digest => do
    let d ← s.graph.digestLogged schema
    return { s with lastDigest := some d }.answer (.text d)
  | .isStale stored => do
    let b ← s.graph.isStaleLogged stored schema
    return s.answer (.flag b)
  | .isStaleSinceDigest => do
    let b ← s.graph.isStaleLogged s.lastDigest schema
    return s.answer (.flag b)
  | .capture => do
    let taken ← Snapshot.captureLogged s.graph schema now
    return { s with snapshot := some taken }.answer (.snapshot taken)
  | .write author => s.write author schema now
  | .isSnapshotStale =>
    match s.snapshot with
    | none => pure (s.answer .nothing)
    | some taken => do
      let b ← taken.isStaleLogged s.graph schema
      return s.answer (.flag b)
  | .showMonitor => pure (s.withMonitor none s.monitor)
  | .newMonitor baseline => pure (s.withMonitor none (.new baseline))
  | .monitorSnapshot => pure (s.monitorFrom Monitor.ofSnapshot)
  | .rebase => pure (s.monitorFrom s.monitor.rebase)
  | .observe => do
    let (returned, m) ← s.monitor.observeLogged s.graph schema
    return s.withMonitor (some returned) m
  | .apply digest => do
    let (returned, m) ← s.monitor.applyLogged digest
    return s.withMonitor (some returned) m

end Session

end ExtractionContract
