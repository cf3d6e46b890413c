import AlertU.Bench
import AlertU.Logs
import AlertU.MachineStep
import AlertU.Runs

/-! The grace period and the input channel. A signal says nothing of when its event occurred, and the
machine compares its own clock with the end of the grace period when it handles the signal, which may
have waited in the channel for any length of time. -/

open FilePath Timing Runs Logs

namespace AlertU

/-- The slots of the input channel. -/
def SIGNAL_SLOTS : ℕ := 64

/-- When a `StartGrace` has read the clock, and the grace period it has started. -/
def Action.grace : Action → Option (Instant × UInt64)
  | .startGrace now secs => some (now, secs)
  | _ => none

/-- An activity that the machine has handled in `Armed`: when its event occurred, what the clock read
at the grace test, when the guard was armed and with which grace period, and whether it triggered. -/
structure Handling where
  occurred : Instant
  handled : Instant
  armed : Option (Instant × UInt64)
  triggered : Bool
  deriving DecidableEq, Repr

/-- The instant is before the guard was armed or within its grace period. -/
def Handling.InGrace (h : Handling) (t : Instant) : Prop :=
  ∀ armedAt secs, h.armed = some (armedAt, secs) → t.nanos < armedAt.nanos + fromSecs secs

theorem Handling.inGrace_iff {h : Handling} {t armedAt : Instant} {secs : UInt64}
    (harmed : h.armed = some (armedAt, secs)) :
    h.InGrace t ↔ t.nanos < armedAt.nanos + fromSecs secs := by
  constructor
  · exact fun hearly => hearly armedAt secs harmed
  · intro hearly armedAt' secs' hsame
    cases harmed.symm.trans hsame
    exact hearly

/-- The machine and its input channel, where each signal waits with the time of its event. -/
structure Sensing where
  daemon : Daemon
  signals : List (Instant × InputSignal)
  history : List Handling

inductive SensingInput where
  | machine (wake : Wake) (host : Host)
  | enqueue (occurred : Instant) (signal : InputSignal)
  | deliver (host : Host)

namespace Sensing

def start (daemon : Daemon) : Sensing := ⟨daemon, [], []⟩

/-- What the delivery of a signal shows. -/
def handlings (p : Platform) (d next : Daemon) (occurred : Instant) : InputSignal → List Handling
  | .activity _ =>
      if d.state = .armed then
        [⟨occurred, p.clock.read d.reads, latest Action.grace d.log, next.state = .triggered⟩]
      else []
  | .remoteToggle => []

def step (p : Platform) (s : Sensing) : SensingInput → Except Unit Sensing
  | .machine wake host =>
      match wake with
      | .input _ => .error ()
      | wake =>
          match s.daemon.step p (wake, host) with
          | .ok next => .ok { s with daemon := next }
          | .error _ => .error ()
  | .enqueue occurred signal =>
      -- the event lies in the past, however long its reader has held it
      if occurred ≤ p.clock.read s.daemon.reads ∧ s.signals.length < SIGNAL_SLOTS then
        .ok { s with signals := s.signals ++ [(occurred, signal)] }
      else .error ()
  | .deliver host =>
      match s.signals with
      | [] => .error ()
      | (occurred, signal) :: rest =>
          match s.daemon.step p (.input signal, host) with
          | .ok next =>
              .ok { s with
                daemon := next
                signals := rest
                history := s.history ++ handlings p s.daemon next occurred signal }
          | .error _ => .error ()

/-- An activity from before the end of the grace period triggers nothing. -/
def EarlyIgnored (s : Sensing) : Prop :=
  ∀ h ∈ s.history, h.InGrace h.occurred → h.triggered = false

/-- An activity from before the end of the grace period is also handled before it. -/
def Prompt (s : Sensing) : Prop := ∀ h ∈ s.history, h.InGrace h.occurred → h.InGrace h.handled

end Sensing

namespace Daemon

/-- While the guard is armed, the end of the grace period is the one of the last `StartGrace`. -/
def HoldsGrace (d : Daemon) : Prop :=
  d.state = .armed → ∃ armedAt secs graceUntil, latest Action.grace d.log = some (armedAt, secs) ∧
    d.graceUntil = some graceUntil ∧ graceUntil.nanos = armedAt.nanos + fromSecs secs

variable {p : Platform} {host : Host} {d d' : Daemon} {wake : Wake}

namespace HoldsGrace

/-- A step that does not start a grace period. -/
theorem extend (h : d.HoldsGrace) (segment : List Action) (hlog : d'.log = d.log ++ segment)
    (hsegment : latest Action.grace segment = none) (hstate : d'.state = d.state)
    (hgrace : d'.graceUntil = d.graceUntil) : d'.HoldsGrace := by
  intro harmed
  rw [hlog, latest_append, hsegment, Option.none_or, hgrace]
  exact h (hstate ▸ harmed)

theorem step (h : d.HoldsGrace) (hstep : StepResult p host d wake d') : d'.HoldsGrace := by
  cases hstep with
  | skipped _ _ _ => exact h
  | ignored _ event _ _ _ => exact h.extend _ rfl rfl rfl rfl
  | inGrace _ _ _ _ _ _ => exact h.extend [] (List.append_nil _).symm rfl rfl rfl
  | armed _ event graceUntil _ _ hstate hplus =>
      intro _
      refine ⟨_, _, graceUntil, ?_, rfl, plus_eq_ok hplus⟩
      rw [arming, latest_append]
      rfl
  | disarmed _ _ _ _ _ =>
      intro harmed
      cases harmed
  | intruded _ _ _ _ _ _ _ =>
      intro harmed
      cases harmed
  | ticked hstate _ =>
      intro harmed
      change d.state = .armed at harmed
      rw [hstate] at harmed
      cases harmed
  | sounded _ _ _ _ =>
      intro harmed
      cases harmed
  | rescanned => exact h.extend [] (List.append_nil _).symm rfl rfl rfl
  | rejected _ _ _ _ => exact h.extend _ rfl rfl rfl rfl
  | installed _ _ _ _ => exact h.extend _ rfl rfl rfl rfl
  | replied => exact h.extend _ rfl rfl rfl rfl
  | learned _ _ _ => exact h.extend _ rfl rfl rfl rfl
  | refused _ _ _ => exact h.extend _ rfl rfl rfl rfl
  | tested => exact h.extend _ rfl rfl rfl rfl

end HoldsGrace

/-- An activity that is handled in `Armed` triggers exactly once the grace period is over. -/
theorem HoldsGrace.activity (h : d.HoldsGrace) {source : String} (hstate : d.state = .armed)
    (hstep : d.step p (.input (.activity source), host) = .ok d') :
    ∃ armedAt secs, latest Action.grace d.log = some (armedAt, secs) ∧
      (d'.state = .triggered ↔
        armedAt.nanos + fromSecs secs ≤ (p.clock.read d.reads).nanos) := by
  obtain ⟨armedAt, secs, graceUntil, hlatest, hgrace, hnanos⟩ := h hstate
  refine ⟨armedAt, secs, hlatest, ?_⟩
  rw [← hnanos, ← Instant.le_iff]
  change d.onInput p host (.activity source) = .ok d' at hstep
  simp only [onInput, if_pos hstate, graceElapsed, hgrace, now] at hstep
  by_cases hover : graceUntil ≤ p.clock.read d.reads
  · simp only [hover, iff_true]
    simp only [hover, decide_true] at hstep
    rw [apply_intrusion (by exact hstate)] at hstep
    obtain ⟨alarmDeadline, -, rfl⟩ := map_eq_ok hstep
    rfl
  · simp only [hover, iff_false]
    simp only [hover, decide_false] at hstep
    cases hstep
    rw [hstate]
    decide

end Daemon

namespace Sensing

variable {p : Platform} {s s' : Sensing}

/-- What the history says of each activity. -/
structure Faithful (s : Sensing) : Prop where
  grace : s.daemon.HoldsGrace
  tested : ∀ h ∈ s.history, h.triggered = false ↔ h.InGrace h.handled

namespace Faithful

theorem machine (h : s.Faithful) {wake : Wake} {host : Host} {next : Daemon}
    (hstep : s.daemon.step p (wake, host) = .ok next) : Faithful { s with daemon := next } :=
  ⟨h.grace.step (Daemon.step_cases hstep), h.tested⟩

theorem deliver (h : s.Faithful) {occurred : Instant} {signal : InputSignal} {host : Host}
    {next : Daemon} (rest : List (Instant × InputSignal))
    (hstep : s.daemon.step p (.input signal, host) = .ok next) :
    Faithful { s with
      daemon := next
      signals := rest
      history := s.history ++ handlings p s.daemon next occurred signal } := by
  refine ⟨h.grace.step (Daemon.step_cases hstep), fun handling hmem => ?_⟩
  rcases List.mem_append.mp hmem with hmem | hmem
  · exact h.tested handling hmem
  · cases signal with
    | remoteToggle => cases hmem
    | activity source =>
        simp only [handlings] at hmem
        split_ifs at hmem with hstate
        · obtain ⟨armedAt, secs, hlatest, htriggered⟩ := h.grace.activity hstate hstep
          rw [List.mem_singleton.mp hmem, Handling.inGrace_iff hlatest, decide_eq_false_iff_not]
          exact (not_congr htriggered).trans not_le
        · cases hmem

theorem step (h : s.Faithful) {input : SensingInput} (hstep : s.step p input = .ok s') :
    s'.Faithful := by
  cases input with
  | machine wake host =>
      simp only [Sensing.step] at hstep
      split at hstep
      · cases hstep
      · split at hstep
        · rename_i next hnext
          cases hstep
          exact h.machine hnext
        · cases hstep
  | enqueue occurred signal =>
      simp only [Sensing.step] at hstep
      split_ifs at hstep
      cases hstep
      exact ⟨h.grace, h.tested⟩
  | deliver host =>
      simp only [Sensing.step] at hstep
      split at hstep
      · cases hstep
      · split at hstep
        · rename_i next hnext
          cases hstep
          exact h.deliver _ hnext
        · cases hstep

end Faithful

/-- Activities from before the end of the grace period are ignored exactly if each of them is handled
before the end. -/
theorem early_activity_ignored_iff {host : Host} {files : FileSystem} {cfg : Config}
    {cfgPath : PathBuf} {privileges : Privileges} {inputs : List SensingInput}
    (hrun : Run (step p) (start (.start p host files cfg cfgPath privileges)) inputs s) :
    s.EarlyIgnored ↔ s.Prompt := by
  have h : s.Faithful := hrun.invariant ⟨nofun, nofun⟩ fun _ _ _ h _ hnext => h.step hnext
  constructor
  · intro hignored handling hmem hearly
    exact (h.tested handling hmem).mp (hignored handling hmem hearly)
  · intro hprompt handling hmem hearly
    exact (h.tested handling hmem).mpr (hprompt handling hmem hearly)

/-- A grace period of one second. -/
def brisk : Config := { Config.default with gracePeriodSecs := 1 }

/-- Arming, and an activity. The clock reads one second when the guard is armed and two seconds when
the activity is handled. -/
def armedThenActivity (occurred : Instant) : List SensingInput :=
  [.machine (.control .arm) (Bench.host "c1"), .enqueue occurred (.activity "AT Keyboard"),
    .deliver (Bench.host "c1")]

/-- With two seconds of grace, an activity that occurs when the guard is armed is handled in time, and one
that occurs later triggers it. -/
theorem early_activity_ignored_iff_on_time :
    ∃ s : Sensing, s.daemon.state = .triggered ∧
      (∃ handling ∈ s.history, handling.InGrace handling.occurred) ∧ s.EarlyIgnored := by
  obtain ⟨s, hrun, hstate, hhistory⟩ : ∃ s, Run (step Bench.platform)
      (start (Bench.boot { brisk with gracePeriodSecs := 2 } "c1"))
      (armedThenActivity (Bench.clock.read 0) ++
        [.enqueue (Bench.clock.read 2) (.activity "AT Keyboard"), .deliver (Bench.host "c1")]) s ∧
      s.daemon.state = .triggered ∧
      s.history = [⟨Bench.clock.read 0, Bench.clock.read 1, some (Bench.clock.read 0, 2), false⟩,
        ⟨Bench.clock.read 2, Bench.clock.read 2, some (Bench.clock.read 0, 2), true⟩] :=
    ⟨_, run_get (by decide +kernel), by decide +kernel⟩
  refine ⟨s, hstate, ?_, (early_activity_ignored_iff hrun).mpr ?_⟩
  · rw [hhistory]
    exact ⟨_, List.mem_cons_self, (Handling.inGrace_iff rfl).mpr (by decide +kernel)⟩
  · intro handling hmem hearly
    rw [hhistory, List.mem_cons, List.mem_singleton] at hmem
    rcases hmem with rfl | rfl
    · exact (Handling.inGrace_iff rfl).mpr (by decide +kernel)
    · exact hearly

/-- An activity from before the end of the grace period is handled once it is over. -/
theorem early_activity_triggers :
    ¬∀ (p : Platform) (host : Host) (files : FileSystem) (cfg : Config) (cfgPath : PathBuf)
        (privileges : Privileges) (inputs : List SensingInput) (s : Sensing),
      Run (step p) (start (.start p host files cfg cfgPath privileges)) inputs s →
      s.EarlyIgnored := by
  intro h
  obtain ⟨s, hrun, hhistory⟩ : ∃ s, Run (step Bench.platform) (start (Bench.boot brisk "c1"))
      (armedThenActivity (Bench.clock.read 0)) s ∧
      s.history = [⟨Bench.clock.read 0, Bench.clock.read 1, some (Bench.clock.read 0, 1), true⟩] :=
    ⟨_, run_get (by decide +kernel), by decide +kernel⟩
  have htriggered := h _ _ _ _ _ _ _ s hrun _ (by rw [hhistory]; exact List.mem_singleton_self _)
    ((Handling.inGrace_iff rfl).mpr (by decide +kernel))
  cases htriggered

end Sensing

end AlertU
