import AlertU.Input

/-! "Press a button on your remote" pairing: what one reader of the pairing window forwards and what
the window does with it. -/

open FilePath Timing

namespace AlertU

/-- Presses arriving within this window of the request are discarded. -/
def SETTLE : ℕ := fromMillis 600

/-- What the pairing attempt saw. -/
inductive Outcome where
  | learned (path : PathBuf) (name : String) (key : String)
  | timedOut
  deriving DecidableEq, Repr

/-- One observed key press. -/
structure Press where
  path : PathBuf
  name : String
  key : String
  deriving DecidableEq, Repr

namespace Learn

/-- Whether `code` is a `BTN_*` button rather than a key. -/
def isPointerButton (code : KeyCode) : Bool := 0x100 ≤ code.toNat && code.toNat < 0x160

/-- The devices `run` spawns a reader for: the main mouse is excluded. -/
def listened (entries : List DeviceEntry) : List DeviceEntry := entries.filter fun e => !e.isPointer

/-- What the reader of one device forwards for one event. -/
def watchOne (evdev : Evdev) (entry : DeviceEntry) (event : EventSummary) : Option Press :=
  match event with
  | .key code 1 =>
      if isPointerButton code then none else some ⟨entry.path, entry.name, evdev.debug code⟩
  | _ => none

/-- The body of the loop of `run` for a press received at `now`. -/
def receive (started now : Instant) (press : Press) : Option Outcome :=
  if now.elapsedSince started < SETTLE then none
  else some (.learned press.path press.name press.key)

theorem watchOne_eq_some {evdev : Evdev} {entry : DeviceEntry} {event : EventSummary} {press : Press}
    (h : watchOne evdev entry event = some press) :
    ∃ code, event = .key code 1 ∧ isPointerButton code = false ∧
      press = ⟨entry.path, entry.name, evdev.debug code⟩ := by
  unfold watchOne at h
  split at h
  · rename_i code
    split_ifs at h with hcode
    cases h
    exact ⟨code, rfl, by simpa using hcode, rfl⟩
  · cases h

end Learn

end AlertU
