import ExtractionContract.Session.Step
import Mathlib.Data.List.DropRight

/-!
# What a monitor has been told

A monitor is told of contracts, of digests computed elsewhere and of new baselines, in any order.
Little of this matters in the end: the baseline is the one that was set last, and the flag compares
it with the digest that came last since then. `Follows` says so of a monitor and what it has been
told. It holds of a new monitor, each notice keeps it (`Follows.heed`), and so it holds after any
run of notices (`follows_heedAll`).

In a session the monitor is told of the contract as it stands (`Session.noticeOf`), between other
commands, which leave it alone (`Session.monitor_step`).

* `Monitor.last_result_wins`: the baseline and the flag after any run, and what a session answers.
-/

namespace ExtractionContract

namespace Monitor

/-- What a monitor is told. -/
inductive Notice where
  /-- A contract to compare with the baseline. -/
  | observe (g : FieldGraph) (schema : Option String)
  /-- A digest to compare, or the failure to compute it. -/
  | apply (digest : Except Failure String)
  /-- A snapshot whose digest is the new baseline. -/
  | rebase (s : Snapshot)

/-- The digest that a notice brings, if one was computed. -/
def Notice.digest? : Notice → Option String
  | observe g schema => some (g.digest schema)
  | apply digest => digest.toOption
  | rebase _ => none

/-- The baseline that a notice sets. -/
def Notice.baseline? : Notice → Option String
  | rebase s => some s.digest
  | _ => none

/-- A monitor that has been told something. -/
def heed (m : Monitor) : Notice → Monitor
  | .observe g schema => (m.observe g schema).2
  | .apply digest => (m.apply digest).2
  | .rebase s => m.rebase s

/-- What a monitor returns when it is told something. -/
def returned (m : Monitor) : Notice → Option Bool
  | .observe g schema => some (m.observe g schema).1
  | .apply digest => some (m.apply digest).1
  | .rebase _ => none

/-- A monitor that has been told several things, one after the other. -/
def heedAll (m : Monitor) (ns : List Notice) : Monitor :=
  ns.foldl heed m

theorem heedAll_append (m : Monitor) (ns ns' : List Notice) :
    m.heedAll (ns ++ ns') = (m.heedAll ns).heedAll ns' :=
  List.foldl_append

/-! ### The history of a monitor -/

/-- The baseline that was set last, or the one there was at first. -/
def lastBaseline (initial : Option String) (ns : List Notice) : Option String :=
  (ns.filterMap Notice.baseline?).getLast?.or initial

/-- The notices since a baseline was last set. -/
def recent (ns : List Notice) : List Notice :=
  ns.rtakeWhile fun n => n.baseline?.isNone

/-- The digest that came last since a baseline was last set. -/
def lastDigest (ns : List Notice) : Option String :=
  ((recent ns).filterMap Notice.digest?).getLast?

variable {initial : Option String} {ns : List Notice} {m : Monitor}

theorem lastBaseline_concat (initial : Option String) (ns : List Notice) (n : Notice) :
    lastBaseline initial (ns ++ [n]) = n.baseline?.or (lastBaseline initial ns) := by
  rw [lastBaseline, List.filterMap_append, List.getLast?_append, Option.or_assoc]
  cases h : n.baseline? <;> simp [h, lastBaseline]

theorem lastDigest_concat (ns : List Notice) (n : Notice) :
    lastDigest (ns ++ [n]) =
      if n.baseline?.isNone then n.digest?.or (lastDigest ns) else none := by
  rw [lastDigest, recent, List.rtakeWhile_concat]
  split
  · rw [List.filterMap_append, List.getLast?_append]
    cases h : n.digest? <;> simp [h, lastDigest, recent]
  · rfl

/-- What a monitor says is what its history says. -/
structure Follows (initial : Option String) (ns : List Notice) (m : Monitor) : Prop where
  baseline : m.baseline = lastBaseline initial ns
  stale : m.stale = true ↔
    ∃ b d, lastBaseline initial ns = some b ∧ lastDigest ns = some d ∧ d ≠ b

/-- A history leaves no choice of what to say. -/
theorem Follows.unique {m' : Monitor} (h : Follows initial ns m) (h' : Follows initial ns m') :
    m = m' := by
  have hstale : m.stale = m'.stale := Bool.eq_iff_iff.mpr (h.stale.trans h'.stale.symm)
  have hbaseline : m.baseline = m'.baseline := h.baseline.trans h'.baseline.symm
  cases m
  cases m'
  exact congr (congrArg Monitor.mk hbaseline) hstale

theorem follows_new (initial : Option String) : Follows initial [] (new initial) :=
  ⟨rfl, by simp [new, lastDigest, recent]⟩

theorem baseline_apply (m : Monitor) (digest : Except Failure String) :
    (m.apply digest).2.baseline = m.baseline := by
  unfold apply
  split
  · rfl
  · cases digest <;> rfl

/-- What is returned is the flag as it is afterwards. -/
theorem fst_apply (m : Monitor) (digest : Except Failure String) :
    (m.apply digest).1 = (m.apply digest).2.stale := by
  unfold apply
  split <;> rfl

theorem returned_eq (m : Monitor) (n : Notice) :
    m.returned n = if n.baseline?.isNone then some (m.heed n).stale else none := by
  cases n with
  | observe g schema => exact congrArg some (m.fst_apply _)
  | apply digest => exact congrArg some (m.fst_apply digest)
  | rebase s => rfl

/-- A digest is compared with the baseline that stands, and a failure changes nothing. -/
theorem Follows.apply (h : Follows initial ns m) {n : Notice} (digest : Except Failure String)
    (hbaseline : n.baseline? = none) (hdigest : n.digest? = digest.toOption) :
    Follows initial (ns ++ [n]) (m.apply digest).2 := by
  have hlast : lastBaseline initial (ns ++ [n]) = m.baseline := by
    rw [lastBaseline_concat, hbaseline, Option.none_or, h.baseline]
  have hcurrent : lastDigest (ns ++ [n]) = digest.toOption.or (lastDigest ns) := by
    rw [lastDigest_concat, if_pos (Option.isNone_iff_eq_none.mpr hbaseline), hdigest]
  refine ⟨(m.baseline_apply digest).trans hlast.symm, ?_⟩
  rw [hlast, hcurrent]
  cases hb : m.baseline with
  | none => simp [Monitor.apply, hb]
  | some b =>
    cases digest with
    | ok d => simp [Monitor.apply, hb, Except.toOption]
    -- A failure leaves the flag as it was, and the last digest too.
    | error e => simpa [Monitor.apply, hb, Except.toOption, ← h.baseline] using h.stale

/-- **One notice** keeps a monitor in step with its history. -/
theorem Follows.heed (h : Follows initial ns m) (n : Notice) :
    Follows initial (ns ++ [n]) (m.heed n) := by
  cases n with
  | observe g schema => exact h.apply (.ok (g.digest schema)) rfl rfl
  | apply digest => exact h.apply digest rfl rfl
  | rebase s =>
    refine ⟨(lastBaseline_concat initial ns (.rebase s)).symm, ?_⟩
    simp [Monitor.heed, rebase, lastDigest_concat, Notice.baseline?]

/-- **Any run of notices** leaves a monitor in step with its history. -/
theorem follows_heedAll (initial : Option String) (ns : List Notice) :
    Follows initial ns ((new initial).heedAll ns) := by
  -- A history is read from its end, so the run grows there.
  induction ns using List.reverseRecOn with
  | nil => exact follows_new initial
  | append_singleton ns n ih =>
    rw [heedAll_append]
    exact ih.heed n

/-- Failures are forgotten, and so is what came before a baseline was last set. -/
theorem Follows.forget (h : Follows initial ns m) :
    Follows m.baseline ((recent ns).filter fun n => n.digest?.isSome) m := by
  set kept := (recent ns).filter fun n => n.digest?.isSome with hkept
  have hnone : ∀ n ∈ kept, n.baseline? = none := fun n hn =>
    Option.isNone_iff_eq_none.mp
      (List.mem_rtakeWhile_imp (p := fun n : Notice => n.baseline?.isNone)
        (List.mem_of_mem_filter hn))
  -- No baseline is set among what is kept, so all of it is recent, and the first one stands.
  have hlast : lastBaseline m.baseline kept = m.baseline := by
    rw [lastBaseline, List.filterMap_eq_nil_iff.mpr hnone]
    rfl
  have hrecent : recent kept = kept :=
    List.rtakeWhile_eq_self_iff.mpr fun n hn => Option.isNone_iff_eq_none.mpr (hnone n hn)
  have hcurrent : lastDigest kept = lastDigest ns := by
    rw [lastDigest, hrecent, hkept, List.filterMap_filter, lastDigest]
    congr 2
    funext n
    cases n.digest? <;> simp
  refine ⟨hlast.symm, ?_⟩
  rw [hlast, hcurrent, h.baseline]
  exact h.stale

end Monitor

/-! ### Monitors in a session -/

/-- Whether a command puts another monitor into the place of the session's. -/
def Watch.makesMonitor : Watch → Bool
  | newMonitor _ => true
  | monitorSnapshot => true
  | _ => false

/-- Whether a request puts another monitor into the place of the session's. -/
def Request.makesMonitor (r : Request) : Bool :=
  match r.command with
  | .ok (.watch w) => w.makesMonitor
  | _ => false

namespace Session

open Monitor (Notice)

/-- What a command tells the monitor of a session, given the schema that it needs. -/
def told (s : Session) (schema : Option String) : Watch → Option Notice
  | .observe => some (.observe s.graph schema)
  | .apply digest => some (.apply digest)
  | .rebase => s.snapshot.map .rebase
  | _ => none

/-- What a request tells the monitor of a session. -/
def noticeOf (s : Session) (r : Request) : Option Notice :=
  match r.command with
  | .ok (.watch w) => s.told (s.schemaText r.schema).value w
  | _ => none

variable {s s' : Session} {r : Request} {n : Notice} {ns : List Notice}

theorem monitor_setOutcome (s : Session) (id : String) (values : List (String × Json)) :
    (s.setOutcome id values).session.monitor = s.monitor := by
  unfold setOutcome
  split
  · rfl
  · split <;> rfl

theorem monitor_removeOutcome (s : Session) (id : String) :
    (s.removeOutcome id).session.monitor = s.monitor := by
  unfold removeOutcome
  split <;> rfl

/-- Edits leave the monitor alone. -/
theorem monitor_edit (s : Session) (e : Edit) :
    (s.edit e).value.session.monitor = s.monitor := by
  cases e with
  | remove id => exact s.monitor_removeOutcome id
  | set id values => exact s.monitor_setOutcome id values
  | _ => rfl

theorem monitor_write (s : Session) (author : PromptAuthor) (schema : Option String)
    (now : Instant) : (s.write author schema now).value.session.monitor = s.monitor := by
  simp only [write]
  split <;> rfl

/-- **The monitor after a command** has been told what the command tells it. -/
theorem monitor_watch (s : Session) (schema : Option String) (now : Instant) {w : Watch}
    (hw : w.makesMonitor = false) :
    (s.watch schema now w).value.session.monitor =
      (s.told schema w).elim s.monitor s.monitor.heed := by
  cases w with
  | newMonitor baseline => cases hw
  | monitorSnapshot => cases hw
  | write author => exact s.monitor_write author schema now
  | isSnapshotStale =>
    simp only [watch]
    split <;> rfl
  | rebase =>
    simp only [watch, told, monitorFrom]
    cases s.snapshot <;> rfl
  | _ => rfl

/-- **The monitor after a request** has been told what the request tells it. -/
theorem monitor_step (s : Session) {r : Request} (hr : r.makesMonitor = false) :
    (s.step r).value.session.monitor = (s.noticeOf r).elim s.monitor s.monitor.heed := by
  unfold noticeOf
  unfold Request.makesMonitor at hr
  rw [step, Logged.value_bind]
  match hc : r.command with
  | .error e => rfl
  | .ok (.edit e) => exact s.monitor_edit e
  | .ok (.query q) => rfl
  | .ok (.watch w) =>
    rw [hc] at hr
    exact s.monitor_watch (s.schemaText r.schema).value r.time hr

/-- A request that tells the monitor something leaves it in its place. -/
theorem makesMonitor_of_noticeOf (h : s.noticeOf r = some n) : r.makesMonitor = false := by
  unfold noticeOf at h
  unfold Request.makesMonitor
  split at h
  · next w hc =>
    cases w with
    | newMonitor | monitorSnapshot => cases h
    | _ => rfl
  · cases h

/-- A command that tells the monitor something is answered with what the monitor returns, and with
the monitor after it. -/
theorem reply_watch {schema : Option String} {now : Instant} {w : Watch}
    (h : s.told schema w = some n) :
    (s.watch schema now w).value.reply =
      .ok (.monitor (s.monitor.returned n) (s.monitor.heed n)) := by
  cases w with
  | observe =>
    cases h
    rfl
  | apply digest =>
    cases h
    rfl
  | rebase =>
    obtain ⟨taken, htaken, rfl⟩ := Option.map_eq_some_iff.mp h
    simp only [watch, monitorFrom, htaken]
    rfl
  | _ => cases h

theorem reply_step (h : s.noticeOf r = some n) :
    (s.step r).value.reply = .ok (.monitor (s.monitor.returned n) (s.monitor.heed n)) := by
  unfold noticeOf at h
  split at h
  · next w hc =>
    rw [step, Logged.value_bind, hc]
    exact reply_watch h
  · cases h

/-- One session is another after some requests, none of which put another monitor into the place
of the one there was. They told it something between them. -/
inductive Tells (s : Session) : List Notice → Session → Prop
  | start : Tells s [] s
  | request {ns : List Notice} {s' : Session} {r : Request} : Tells s ns s' →
    r.makesMonitor = false → Tells s (ns ++ (s'.noticeOf r).toList) (s'.step r).value.session

/-- **The monitor of a session** has been told what the requests told it, and nothing else. -/
theorem Tells.monitor_eq (h : s.Tells ns s') : s'.monitor = s.monitor.heedAll ns := by
  induction h with
  | start => rfl
  | @request ns s' r _ hr ih =>
    rw [monitor_step s' hr, Monitor.heedAll_append, ← ih]
    cases s'.noticeOf r <;> rfl

end Session

namespace Monitor

/-- **The last result wins.** After any run of notices the baseline is the one that was set last,
or the one there was at first. The flag is raised just when there is a baseline and the digest that
came last since it was set is another one. Failures do not count for this, nor does what came
before the baseline was set. What the monitor returns when it is told of a contract or a digest is
the flag as it is afterwards.

So it is with the monitor of a session, whatever else was done in it, and with what the session
answers. -/
theorem last_result_wins (initial : Option String) (ns : List Notice) :
    let m := (new initial).heedAll ns
    m.baseline = lastBaseline initial ns ∧
      (m.stale = true ↔ ∃ b d, m.baseline = some b ∧ lastDigest ns = some d ∧ d ≠ b) ∧
      m = (new m.baseline).heedAll ((recent ns).filter fun n => n.digest?.isSome) ∧
      (∀ n, m.returned n = if n.baseline?.isNone then some (m.heed n).stale else none) ∧
      ∀ s s' : Session, s.monitor = new initial → s.Tells ns s' →
        s'.monitor = m ∧ ∀ r n, s'.noticeOf r = some n →
          let m' := (new initial).heedAll (ns ++ [n])
          (s'.step r).value.session.monitor = m' ∧
            (s'.step r).value.reply =
              .ok (.monitor (if n.baseline?.isNone then some m'.stale else none) m') := by
  intro m
  have hm : Follows initial ns m := follows_heedAll initial ns
  refine ⟨hm.baseline, hm.baseline ▸ hm.stale, hm.forget.unique (follows_heedAll _ _),
    m.returned_eq, ?_⟩
  intro s s' hs hrun
  have hs' : s'.monitor = m := by rw [hrun.monitor_eq, hs]
  refine ⟨hs', fun r n hn => ?_⟩
  intro m'
  have hm' : s'.monitor.heed n = m' := by
    rw [hs']
    exact (heedAll_append (new initial) ns [n]).symm
  refine ⟨?_, ?_⟩
  · rw [s'.monitor_step (Session.makesMonitor_of_noticeOf hn), hn]
    exact hm'
  · rw [Session.reply_step hn, returned_eq, hm']

/-- A digest that comes before any baseline, failures all around, a new baseline and a field that is
added before a digest that differs from it: the flag is raised, and lowered by the next digest. -/
theorem last_result_wins_after_rebase :
    let broken : Except Failure String := .error (.importRefused "no hasher")
    let taken : Snapshot := ⟨"b", ⟨[]⟩, none, .epoch⟩
    let ns : List Notice := [.apply broken, .apply (.ok "a"), .rebase taken, .apply broken,
      .apply (.ok "c"), .apply broken]
    let m := (new none).heedAll ns
    let again : Request := ⟨.ok (.watch (.apply (.ok "b"))), .absent, .epoch⟩
    m.baseline = some "b" ∧ m.stale = true ∧ m = (new (some "b")).heedAll [.apply (.ok "c")] ∧
      ∃ s s' : Session, s.monitor = new none ∧ s.Tells ns s' ∧ s'.graph.size = 1 ∧
        s'.monitor = m ∧
        (s'.step again).value.reply = .ok (.monitor (some false) ⟨some "b", false⟩) := by
  intro broken taken ns m again
  let request (w : Watch) : Request := ⟨.ok (.watch w), .absent, .epoch⟩
  let push : Request := ⟨.ok (.edit (.push { id := "1", key := "total" })), .ofGraph, .epoch⟩
  let s : Session := { snapshot := some taken }
  have hrun := Session.Tells.start (s := s)
    |>.request (r := request (.apply broken)) rfl
    |>.request (r := request (.apply (.ok "a"))) rfl
    |>.request (r := request .rebase) rfl
    |>.request (r := request (.apply broken)) rfl
    |>.request (r := push) rfl
    |>.request (r := request (.apply (.ok "c"))) rfl
    |>.request (r := request (.apply broken)) rfl
  obtain ⟨hbaseline, hstale, hforget, -, hsession⟩ := last_result_wins none ns
  have hb : m.baseline = some "b" := hbaseline
  obtain ⟨hmonitor, hreply⟩ := hsession s _ rfl hrun
  refine ⟨hb, hstale.mpr ⟨"b", "c", hb, rfl, by decide⟩, ?_, s, _, rfl, hrun, rfl, hmonitor, ?_⟩
  · rw [hb] at hforget
    exact hforget
  · exact (hreply again (.apply (.ok "b")) rfl).2

end Monitor

end ExtractionContract
