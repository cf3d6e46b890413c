import AlertU.Logs
import AlertU.Retry
import AlertU.Runs

/-! The supervisor of the tray: how long it waits before it turns to the daemon again. A session counts as
one with a response once a line that is not blank has come in. Times are in milliseconds. -/

open Logs Retry Runs

namespace AlertU

/-- First retry delay after losing the daemon. -/
def INITIAL_BACKOFF : ℕ := 250

/-- Ceiling for the exponential backoff. -/
def MAX_BACKOFF : ℕ := 10000

/-- The next retry delay: double, capped. -/
def nextBackoff (current : ℕ) : ℕ := min (current * 2) MAX_BACKOFF

namespace TrayBackoff

/-- Where the supervisor is: in `run_session`, or asleep since then and for so long. -/
inductive SupervisorStage where
  | connecting
  | resyncing
  | looping (gotResponse : Bool)
  | sleeping (since delay : ℕ)
  deriving DecidableEq, Repr

/-- What the supervisor does: it ends a session, and tries again. -/
inductive SupervisorEvent where
  | ended (gotResponse : Bool)
  | retried
  deriving DecidableEq, Repr

def SupervisorEvent.isResponsive : SupervisorEvent → Bool
  | .ended gotResponse => gotResponse
  | .retried => false

def SupervisorEvent.isRetry : SupervisorEvent → Bool
  | .ended _ => false
  | .retried => true

inductive SupervisorInput where
  | connect (accepted : Bool)
  | resync (written : Bool)
  | line (blank : Bool)
  | hangUp
  | wake
  deriving DecidableEq, Repr

/-- The supervisor loop of `main`. -/
structure Supervising where
  now : ℕ
  backoff : ℕ
  stage : SupervisorStage
  log : List (ℕ × SupervisorEvent)
  deriving DecidableEq, Repr

namespace Supervising

def start (now : ℕ) : Supervising := ⟨now, INITIAL_BACKOFF, .connecting, []⟩

variable (s : Supervising)

/-- The session has ended: the delay is reset if it got a response, and slept for. -/
def endSession (gotResponse : Bool) : Supervising :=
  let backoff := if gotResponse then INITIAL_BACKOFF else s.backoff
  { s with backoff, stage := .sleeping s.now backoff, log := s.log ++ [(s.now, .ended gotResponse)] }

/-- One step, on a clock that does not go back. -/
def step (s : Supervising) : ℕ × SupervisorInput → Except Unit Supervising
  | (t, input) =>
      if t < s.now then .error ()
      else
        let s := { s with now := t }
        match input, s.stage with
        | .connect true, .connecting => .ok { s with stage := .resyncing }
        | .connect false, .connecting => .ok (s.endSession false)
        | .resync true, .resyncing => .ok { s with stage := .looping false }
        | .resync false, .resyncing => .ok (s.endSession false)
        | .line blank, .looping gotResponse => .ok { s with stage := .looping (gotResponse || !blank) }
        | .hangUp, .looping gotResponse => .ok (s.endSession gotResponse)
        | .wake, .sleeping since delay =>
            if since + delay ≤ t then
              .ok { s with
                backoff := nextBackoff s.backoff
                stage := .connecting
                log := s.log ++ [(t, .retried)] }
            else .error ()
        | _, _ => .error ()

/-- The retries since the last session with a response. -/
def retries (log : List (ℕ × SupervisorEvent)) : ℕ := count (·.2.isRetry) (·.2.isResponsive) log

/-- The delay that is due after these events. -/
def due (log : List (ℕ × SupervisorEvent)) : ℕ := delay INITIAL_BACKOFF MAX_BACKOFF (retries log)

/-- The supervisor keeps to its delays: every retry comes right after the end of a session, and no earlier
than the delay allows. -/
def Patient (log : List (ℕ × SupervisorEvent)) : Prop :=
  Each (fun before e _ => e.2 = .retried →
    ∃ earlier t gotResponse, before = earlier ++ [(t, .ended gotResponse)] ∧ t + due before ≤ e.1) [] log

/-- The delay in force is the one that is due, and the sleep is one of this delay since the end of the
session. -/
structure Keeping (s : Supervising) : Prop where
  patient : Patient s.log
  backoff : s.backoff = due s.log
  sleeping : ∀ since delay, s.stage = .sleeping since delay → delay = s.backoff ∧
    ∃ earlier gotResponse, s.log = earlier ++ [(since, .ended gotResponse)]

variable {s} {s' : Supervising}

theorem patient_snoc {log : List (ℕ × SupervisorEvent)} {e : ℕ × SupervisorEvent} :
    Patient (log ++ [e]) ↔ Patient log ∧ (e.2 = .retried →
      ∃ earlier t gotResponse, log = earlier ++ [(t, .ended gotResponse)] ∧ t + due log ≤ e.1) :=
  each_concat

theorem Keeping.start (now : ℕ) : (Supervising.start now).Keeping :=
  ⟨trivial, (delay_zero (show INITIAL_BACKOFF ≤ MAX_BACKOFF by decide)).symm, nofun⟩

theorem Keeping.endSession (h : s.Keeping) (gotResponse : Bool) : (s.endSession gotResponse).Keeping := by
  refine ⟨patient_snoc.mpr ⟨h.patient, nofun⟩, ?_, fun since delay hstage => ?_⟩
  · show (if gotResponse then INITIAL_BACKOFF else s.backoff) = due (s.log ++ _)
    cases gotResponse with
    | true =>
        rw [due, retries, count_of_reset rfl, delay_zero (by decide)]
        rfl
    | false =>
        rw [due, retries, count_of_neg rfl rfl]
        exact h.backoff
  · cases hstage
    exact ⟨rfl, s.log, gotResponse, rfl⟩

theorem Keeping.wake (h : s.Keeping) {since delay : ℕ} (hstage : s.stage = .sleeping since delay)
    (hslept : since + delay ≤ s.now) :
    Keeping { s with
      backoff := nextBackoff s.backoff
      stage := .connecting
      log := s.log ++ [(s.now, .retried)] } := by
  obtain ⟨hdelay, earlier, gotResponse, hlog⟩ := h.sleeping since delay hstage
  refine ⟨patient_snoc.mpr ⟨h.patient, fun _ => ⟨earlier, since, gotResponse, hlog, ?_⟩⟩, ?_, nofun⟩
  · rw [← h.backoff, ← hdelay]
    exact hslept
  · show min (s.backoff * 2) MAX_BACKOFF = _
    rw [h.backoff, due, min_delay_mul_two, due, retries, retries, count_of_pos rfl rfl]

theorem Keeping.step {input : ℕ × SupervisorInput} (h : s.Keeping) (hstep : s.step input = .ok s') :
    s'.Keeping := by
  obtain ⟨t, input⟩ := input
  simp only [Supervising.step] at hstep
  split at hstep
  · cases hstep
  · have hnow : Keeping { s with now := t } := ⟨h.patient, h.backoff, h.sleeping⟩
    split at hstep
    all_goals rename_i hstage
    case h_1 | h_3 | h_5 =>
      cases hstep
      exact ⟨h.patient, h.backoff, nofun⟩
    case h_2 | h_4 | h_6 =>
      cases hstep
      exact hnow.endSession _
    case h_7 =>
      split at hstep
      · rename_i hslept
        cases hstep
        exact hnow.wake hstage hslept
      · cases hstep
    case h_8 => cases hstep

theorem keeping_of_run {now : ℕ} {inputs : List (ℕ × SupervisorInput)}
    (hrun : Run step (start now) inputs s) : s.Keeping :=
  hrun.invariant (.start now) fun _ _ _ h _ hstep => h.step hstep

/-- Whatever the sessions come to: the supervisor sleeps after each of them, for 250 ms, doubled for every
retry since the last session with a response and never more than ten seconds; and it does not retry before
that sleep is over. -/
theorem supervisor_backs_off {now : ℕ} {inputs : List (ℕ × SupervisorInput)}
    (hrun : Run step (start now) inputs s) :
    (∀ since delay, s.stage = .sleeping since delay →
      delay = due s.log ∧ ∃ earlier gotResponse, s.log = earlier ++ [(since, .ended gotResponse)]) ∧
    ∀ before t after, s.log = before ++ (t, .retried) :: after →
      ∃ earlier ended gotResponse, before = earlier ++ [(ended, .ended gotResponse)] ∧
        ended + due before ≤ t := by
  have h := keeping_of_run hrun
  refine ⟨fun since delay hstage => ?_, fun before t after hlog => ?_⟩
  · obtain ⟨hdelay, hlast⟩ := h.sleeping since delay hstage
    exact ⟨hdelay.trans h.backoff, hlast⟩
  · exact (each_iff.mp h.patient) before (t, .retried) after hlog rfl

/-- The daemon is away twice, answers once, and goes away. -/
def restart : List (ℕ × SupervisorInput) :=
  [(0, .connect false), (250, .wake), (260, .connect false), (800, .wake), (800, .connect true),
    (801, .resync true), (802, .line false), (5000, .hangUp), (5250, .wake)]

theorem supervisor_backs_off_restart : ∃ s : Supervising,
    ∃ before t after, s.log = before ++ (t, .retried) :: after ∧ due before = 500 ∧
      ∃ earlier ended gotResponse, before = earlier ++ [(ended, .ended gotResponse)] ∧
        ended + due before ≤ t := by
  obtain ⟨s, hrun, before, t, after, hlog, hdue⟩ : ∃ s, Run step (start 0) restart s ∧
      ∃ before t after, s.log = before ++ (t, .retried) :: after ∧ due before = 500 := by
    refine ⟨_, run_get (by decide), ?_⟩
    exact ⟨[(0, .ended false), (250, .retried), (260, .ended false)], 800,
      [(5000, .ended true), (5250, .retried)], by decide, by decide⟩
  exact ⟨s, before, t, after, hlog, hdue, (supervisor_backs_off hrun).2 before t after hlog⟩

end Supervising

end TrayBackoff

end AlertU
