import AlertU.MachineInvariant
import Mathlib.Data.List.Chain
import Mathlib.Order.MinMax

/-! The run loop with its queues. An iteration takes a message off one of the three queues, or it is the
sleep until the next deadline that has ended. A sleep that ends leaves no deadline that has already
passed, so the loop makes no two such iterations in a row at the same time. -/

open FilePath Timing Runs

namespace AlertU

/-- What an iteration of the run loop did: take a message, or call `on_timer`, which reads the clock. -/
inductive Iteration where
  | message
  | timer (now : Instant)
  deriving DecidableEq

/-- The branches of the loop's `select!`. -/
inductive Branch where
  | signals
  | locks
  | controls
  | tick
  deriving DecidableEq, Repr

/-- The machine at the top of its loop, and the messages that wait for it. The senders of the queues
are alive. -/
structure RunLoop where
  daemon : Daemon
  signals : List InputSignal
  locks : List Bool
  controls : List Control
  iterations : List Iteration

inductive LoopInput where
  | signal (signal : InputSignal)
  | lock (locked : Bool)
  | control (ctrl : Control)
  | iterate (branch : Branch) (host : Host)

namespace RunLoop

def start (daemon : Daemon) : RunLoop := ⟨daemon, [], [], [], []⟩

/-- The messages that wait in the queues. -/
def waiting (s : RunLoop) : ℕ := s.signals.length + s.locks.length + s.controls.length

/-- Handle one wake-up. -/
def handle (p : Platform) (s : RunLoop) (wake : Wake) (host : Host) (iteration : Iteration) :
    Except Unit RunLoop :=
  match s.daemon.step p (wake, host) with
  | .ok daemon => .ok { s with daemon, iterations := s.iterations ++ [iteration] }
  | .error _ => .error ()

def step (p : Platform) (s : RunLoop) : LoopInput → Except Unit RunLoop
  | .signal signal => .ok { s with signals := s.signals ++ [signal] }
  | .lock locked => .ok { s with locks := s.locks ++ [locked] }
  | .control ctrl => .ok { s with controls := s.controls ++ [ctrl] }
  | .iterate .signals host =>
      match s.signals with
      | [] => .error ()
      | signal :: signals => { s with signals }.handle p (.input signal) host .message
  | .iterate .locks host =>
      match s.locks with
      | [] => .error ()
      | locked :: locks => { s with locks }.handle p (.lock locked) host .message
  | .iterate .controls host =>
      match s.controls with
      | [] => .error ()
      | ctrl :: controls => { s with controls }.handle p (.control ctrl) host .message
  | .iterate .tick host =>
      -- the sleep has ended: the clock has reached the deadline it was made for
      if s.daemon.nextDeadline.any (· ≤ p.clock.read s.daemon.reads) then
        s.handle p .timer host (.timer (p.clock.read s.daemon.reads))
      else .error ()

end RunLoop

namespace Daemon

variable {p : Platform} {host : Host} {d d' : Daemon}

/-- Every deadline of the machine lies strictly after `now`. -/
def DeadlineAfter (d : Daemon) (now : Instant) : Prop := ∀ t, d.nextDeadline = some t → now < t

theorem deadlineAfter_iff {now : Instant} : d.DeadlineAfter now ↔
    (∀ t, d.alarmDeadline = some t → now < t) ∧ ∀ t, d.nextWarning = some t → now < t := by
  unfold DeadlineAfter nextDeadline
  cases d.alarmDeadline <;> cases d.nextWarning <;> simp

/-- A deadline is pending exactly during the countdown. -/
theorem Consistent.nextDeadline_isSome (h : d.Consistent) :
    d.nextDeadline.isSome ↔ d.state = .triggered := by
  rw [← h.deadline, nextDeadline]
  have hboth : d.alarmDeadline.isSome ↔ d.nextWarning.isSome := h.deadline.trans h.warning.symm
  revert hboth
  cases d.alarmDeadline <;> cases d.nextWarning <;> simp

/-- The next warning tick lies after the reading at which the last one was considered. -/
theorem lt_warning {n : ℕ} {t : Instant} (h : (d.warning host (p.clock.read n)).2 = some t) :
    p.clock.read n < t := by
  rw [warning] at h
  cases hwarn : d.nextWarning with
  | none =>
      rw [hwarn] at h
      cases h
  | some warnAt =>
      rw [hwarn] at h
      simp only at h
      split_ifs at h with hdue
      · have hsum := Instant.checkedAdd_eq_some.mp h
        rw [← not_le, Instant.le_iff, hsum]
        simp [WARNING_INTERVAL, fromSecs, nanosPerSec]
      · cases h
        exact not_le.mp hdue

/-- `on_timer` never fails in a reachable state, and no deadline is left that has passed. -/
theorem Consistent.onTimer_deadlineAfter (h : d.Consistent) (p : Platform) (host : Host) :
    ∃ d', d.onTimer p host = .ok d' ∧ d'.DeadlineAfter (p.clock.read d.reads) := by
  by_cases hstate : d.state = .triggered
  · refine ⟨_, onTimer_eq hstate, ?_⟩
    rw [deadlineAfter_iff]
    split_ifs with hdue
    · constructor <;> intro t ht <;> cases ht
    · constructor
      · intro t ht
        have ht : d.alarmDeadline = some t := ht
        simpa [ht] using hdue
      · intro t ht
        exact lt_warning ht
  · refine ⟨d, by rw [onTimer, if_pos hstate], ?_⟩
    intro t ht
    have hsome : d.nextDeadline.isSome := by rw [ht]; rfl
    exact absurd (h.nextDeadline_isSome.mp hsome) hstate

end Daemon

/-- Of two iterations in a row, both woken by the timer, the second one reads a later time. -/
def Iteration.Before : Iteration → Iteration → Prop
  | .timer now, .timer later => now < later
  | _, _ => True

namespace RunLoop

variable {p : Platform} {s s' : RunLoop} {branch : Branch} {host : Host}

/-- What one iteration does: it handles a message, or a deadline that has been reached. -/
inductive Turned (p : Platform) (s : RunLoop) : Branch → RunLoop → Prop where
  | message (branch : Branch) (s' : RunLoop) (wake : Wake) (host : Host) (hbranch : branch ≠ .tick)
      (hwaiting : s'.waiting + 1 = s.waiting)
      (hdaemon : s.daemon.step p (wake, host) = .ok s'.daemon)
      (hiterations : s'.iterations = s.iterations ++ [.message]) : Turned p s branch s'
  | tick (host : Host) (deadline : Instant) (daemon : Daemon)
      (hdeadline : s.daemon.nextDeadline = some deadline)
      (hdue : deadline ≤ p.clock.read s.daemon.reads)
      (hdaemon : s.daemon.onTimer p host = .ok daemon) :
      Turned p s .tick
        { s with daemon, iterations := s.iterations ++ [.timer (p.clock.read s.daemon.reads)] }

theorem handle_eq_ok {wake : Wake} {iteration : Iteration}
    (h : s.handle p wake host iteration = .ok s') : ∃ daemon,
      s.daemon.step p (wake, host) = .ok daemon ∧
        s' = { s with daemon, iterations := s.iterations ++ [iteration] } := by
  rw [handle] at h
  cases hstep : s.daemon.step p (wake, host) with
  | ok daemon =>
      rw [hstep] at h
      cases h
      exact ⟨daemon, rfl, rfl⟩
  | error e =>
      rw [hstep] at h
      cases h

theorem turned_of_iterate (h : s.step p (.iterate branch host) = .ok s') : s.Turned p branch s' := by
  cases branch with
  | signals =>
      cases hqueue : s.signals with
      | nil => simp [step, hqueue] at h
      | cons signal signals =>
          simp only [step, hqueue] at h
          obtain ⟨daemon, hdaemon, rfl⟩ := handle_eq_ok h
          refine .message _ _ _ host (by simp) ?_ hdaemon rfl
          simp only [waiting, hqueue, List.length_cons]
          omega
  | locks =>
      cases hqueue : s.locks with
      | nil => simp [step, hqueue] at h
      | cons locked locks =>
          simp only [step, hqueue] at h
          obtain ⟨daemon, hdaemon, rfl⟩ := handle_eq_ok h
          refine .message _ _ _ host (by simp) ?_ hdaemon rfl
          simp only [waiting, hqueue, List.length_cons]
          omega
  | controls =>
      cases hqueue : s.controls with
      | nil => simp [step, hqueue] at h
      | cons ctrl controls =>
          simp only [step, hqueue] at h
          obtain ⟨daemon, hdaemon, rfl⟩ := handle_eq_ok h
          refine .message _ _ _ host (by simp) ?_ hdaemon rfl
          simp only [waiting, hqueue, List.length_cons]
          omega
  | tick =>
      simp only [step] at h
      split_ifs at h with hready
      obtain ⟨deadline, hdeadline, hdue⟩ := (Option.any_eq_true _ _).mp hready
      obtain ⟨daemon, hdaemon, rfl⟩ := handle_eq_ok h
      exact .tick host deadline daemon hdeadline (by simpa using hdue) hdaemon

/-- At the top of the loop: no two timer iterations in a row at the same time, and none of the deadlines
lies before the last of them. -/
structure Paced (s : RunLoop) : Prop where
  consistent : s.daemon.Consistent
  chain : s.iterations.IsChain Iteration.Before
  last : ∀ now, s.iterations.getLast? = some (.timer now) → s.daemon.DeadlineAfter now

theorem Paced.turned (h : s.Paced) (hturned : s.Turned p branch s') : s'.Paced := by
  cases hturned with
  | message _ s' _ _ _ _ hdaemon hiterations =>
      refine ⟨h.consistent.step (Daemon.step_cases hdaemon), ?_, ?_⟩
      · rw [hiterations]
        apply h.chain.append (List.isChain_singleton _)
        intro last _ next hnext
        cases hnext
        cases last <;> trivial
      · intro now hlast
        rw [hiterations, List.getLast?_concat] at hlast
        cases hlast
  | tick host deadline daemon hdeadline hdue hdaemon =>
      have hconsistent : daemon.Consistent :=
        h.consistent.step (Daemon.onTimer_cases hdaemon)
      refine ⟨hconsistent, ?_, ?_⟩
      · apply h.chain.append (List.isChain_singleton _)
        intro last hlast next hnext
        cases hnext
        cases last with
        | message => trivial
        | timer now => exact (h.last now hlast deadline hdeadline).trans_le hdue
      · intro now hlast
        rw [List.getLast?_concat] at hlast
        cases hlast
        obtain ⟨daemon', hdaemon', hafter⟩ := h.consistent.onTimer_deadlineAfter p host
        cases hdaemon.symm.trans hdaemon'
        exact hafter

theorem Paced.step (h : s.Paced) {input : LoopInput} (hstep : s.step p input = .ok s') : s'.Paced := by
  cases input with
  | signal signal =>
      cases hstep
      exact ⟨h.consistent, h.chain, h.last⟩
  | lock locked =>
      cases hstep
      exact ⟨h.consistent, h.chain, h.last⟩
  | control ctrl =>
      cases hstep
      exact ⟨h.consistent, h.chain, h.last⟩
  | iterate branch host => exact h.turned (turned_of_iterate hstep)

variable {host₀ : Host} {files : FileSystem} {cfg : Config} {cfgPath : PathBuf}
  {privileges : Privileges} {inputs : List LoopInput}

theorem paced_of_run
    (hrun : Run (RunLoop.step p) (start (.start p host₀ files cfg cfgPath privileges)) inputs s) :
    s.Paced :=
  hrun.invariant ⟨.start files cfg cfgPath privileges, List.isChain_nil, fun _ h => by cases h⟩
    fun _ _ _ h _ hnext => h.step hnext

/-- Every iteration of the run loop consumes a message or moves the earliest deadline past the clock
reading it has made, and a sleep that has ended is always handled. Hence two timer iterations in a row
never read the same time. -/
theorem iterations_make_progress
    (hrun : Run (RunLoop.step p) (start (.start p host₀ files cfg cfgPath privileges)) inputs s) :
    (∀ branch host s', branch ≠ .tick → s.step p (.iterate branch host) = .ok s' →
      s'.waiting + 1 = s.waiting) ∧
    (∀ host s', s.step p (.iterate .tick host) = .ok s' → s'.waiting = s.waiting ∧
      (∃ deadline, s.daemon.nextDeadline = some deadline ∧
        deadline ≤ p.clock.read s.daemon.reads) ∧
      ∀ deadline, s'.daemon.nextDeadline = some deadline →
        p.clock.read s.daemon.reads < deadline) ∧
    (∀ host deadline, s.daemon.nextDeadline = some deadline →
      deadline ≤ p.clock.read s.daemon.reads →
      ∃ s', s.step p (.iterate .tick host) = .ok s') ∧
    s.iterations.IsChain Iteration.Before := by
  have hpaced := paced_of_run hrun
  refine ⟨?_, ?_, ?_, hpaced.chain⟩
  · intro branch host s' hbranch hstep
    cases turned_of_iterate hstep with
    | message _ _ _ _ _ hwaiting _ _ => exact hwaiting
    | tick _ _ _ _ _ _ => exact absurd rfl hbranch
  · intro host s' hstep
    cases turned_of_iterate hstep with
    | message _ _ _ _ hbranch _ _ _ => exact absurd rfl hbranch
    | tick host deadline daemon hdeadline hdue hdaemon =>
        obtain ⟨daemon', hdaemon', hafter⟩ :=
          hpaced.consistent.onTimer_deadlineAfter p host
        cases hdaemon.symm.trans hdaemon'
        exact ⟨rfl, ⟨deadline, hdeadline, hdue⟩, hafter⟩
  · intro host deadline hdeadline hdue
    obtain ⟨daemon, hdaemon, -⟩ := hpaced.consistent.onTimer_deadlineAfter p host
    have hdaemon : s.daemon.step p (.timer, host) = .ok daemon := hdaemon
    rw [step, if_pos (by simpa [hdeadline] using hdue), handle, hdaemon]
    exact ⟨_, rfl⟩

/-- Arming, an intrusion and a countdown of no delay, each message queued before it is handled. -/
def escalation : List LoopInput :=
  [.control .arm, .iterate .controls (Bench.host "c1"), .signal (.activity "AT Keyboard"),
    .iterate .signals (Bench.host "c1")]

theorem iterations_make_progress_in_countdown :
    ∃ s s' : RunLoop, s.step Bench.platform (.iterate .tick (Bench.host "c1")) = .ok s' ∧
      s'.waiting = s.waiting ∧ ∀ deadline, s'.daemon.nextDeadline = some deadline →
        Bench.clock.read s.daemon.reads < deadline := by
  obtain ⟨s, hrun, deadline, hdeadline, hdue⟩ : ∃ s, Run (RunLoop.step Bench.platform)
      (start (Bench.boot Bench.prompt "c1")) escalation s ∧
        ∃ deadline, s.daemon.nextDeadline = some deadline ∧
          deadline ≤ Bench.clock.read s.daemon.reads :=
    ⟨_, run_get (by decide +kernel), Bench.clock.read 2, by decide +kernel⟩
  obtain ⟨-, hprogress, hhandled, -⟩ := iterations_make_progress hrun
  obtain ⟨s', hstep⟩ := hhandled (Bench.host "c1") deadline hdeadline hdue
  obtain ⟨hwaiting, -, hafter⟩ := hprogress _ s' hstep
  exact ⟨s, s', hstep, hwaiting, hafter⟩

end RunLoop

end AlertU
