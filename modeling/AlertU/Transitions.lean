import Mathlib.Data.Nat.Notation
import Mathlib.Tactic.SplitIfs

/-! The pure core of the guard state machine: `decide` maps a state and an event to the next state
and the list of effects the interpreter must carry out. -/

namespace AlertU

/-- The high-level state of the alarm. -/
inductive GuardState where
  | idle
  | armed
  | triggered
  | alarm
  deriving DecidableEq, Repr

namespace GuardState

/-- Whether the alarm is "engaged" in any way. -/
def isActive (s : GuardState) : Bool := s ≠ .idle

def label : GuardState → String
  | .idle => "Idle"
  | .armed => "Armed"
  | .triggered => "Triggered"
  | .alarm => "Alarm"

end GuardState

/-- A stimulus the machine reacts to. -/
inductive Event where
  | toggle
  | forceArm
  | forceDisarm
  | intrusion
  | sessionUnlocked
  | countdownElapsed
  deriving DecidableEq, Repr

/-- The events that end an armed episode. -/
def Event.isDisarm (e : Event) : Bool :=
  e = .toggle ∨ e = .forceDisarm ∨ e = .sessionUnlocked

/-- A side effect the interpreter performs as part of a transition. -/
inductive Effect where
  | lockSession
  | unlockSession
  | playBeep
  | startSiren
  | stopSiren
  | snapshot
  | webhook
  | startGrace
  | startCountdown
  | clearTimers
  deriving DecidableEq, Repr

structure Transition where
  next : GuardState
  effects : List Effect
  deriving DecidableEq, Repr

/-- Decide the transition for an event, or `none` if it is ignored in the current state. -/
def decide (state : GuardState) (event : Event) : Option Transition :=
  match state, event with
  | .idle, .toggle | .idle, .forceArm => some ⟨.armed, [.lockSession, .playBeep, .startGrace]⟩
  | s, .toggle | s, .forceDisarm =>
      if s.isActive then some ⟨.idle, [.unlockSession, .stopSiren, .clearTimers, .playBeep]⟩
      else none
  | s, .sessionUnlocked =>
      if s.isActive then some ⟨.idle, [.stopSiren, .clearTimers, .playBeep]⟩ else none
  | .armed, .intrusion => some ⟨.triggered, [.startCountdown]⟩
  | .triggered, .countdownElapsed =>
      some ⟨.alarm, [.clearTimers, .startSiren, .snapshot, .webhook]⟩
  | _, _ => none

/-- The five transitions of the table. -/
theorem decide_cases {state : GuardState} {event : Event} {tr : Transition}
    (h : decide state event = some tr) :
    (state = .idle ∧ (event = .toggle ∨ event = .forceArm) ∧
      tr = ⟨.armed, [.lockSession, .playBeep, .startGrace]⟩) ∨
    (state ≠ .idle ∧ (event = .toggle ∨ event = .forceDisarm) ∧
      tr = ⟨.idle, [.unlockSession, .stopSiren, .clearTimers, .playBeep]⟩) ∨
    (state ≠ .idle ∧ event = .sessionUnlocked ∧
      tr = ⟨.idle, [.stopSiren, .clearTimers, .playBeep]⟩) ∨
    (state = .armed ∧ event = .intrusion ∧ tr = ⟨.triggered, [.startCountdown]⟩) ∨
    (state = .triggered ∧ event = .countdownElapsed ∧
      tr = ⟨.alarm, [.clearTimers, .startSiren, .snapshot, .webhook]⟩) := by
  cases state <;> cases event <;> simp_all [decide, GuardState.isActive]

/-- Every disarming event is accepted in every active state and leads to `idle`. -/
theorem decide_isDisarm {state : GuardState} {event : Event} (hstate : state ≠ .idle)
    (hevent : event.isDisarm) : ∃ effects, decide state event = some ⟨.idle, effects⟩ := by
  cases state <;> cases event <;> simp_all [decide, GuardState.isActive, Event.isDisarm]

end AlertU
