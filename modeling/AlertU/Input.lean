import AlertU.Devices

/-! The readers of input devices: which events of a device become signals, for the remote and for a
watched device, and the names of keys. -/

open FilePath

namespace AlertU

/-- An evdev key code. -/
abbrev KeyCode := UInt16

/-- The key names of the `evdev` crate. `FromStr` accepts exactly the names of constants, which are
identifiers, and gives the constant's code. -/
structure Evdev where
  name : KeyCode → Option String
  fromStr : String → Option KeyCode
  fromStr_name : ∀ code text, name code = some text → fromStr text = some code
  identifier : ∀ text code, fromStr text = some code → ' ' ∉ text.toList

namespace Evdev

/-- The `Debug` text of a key code. -/
def debug (evdev : Evdev) (code : KeyCode) : String :=
  match evdev.name code with
  | some text => text
  | none => s!"unknown key: {code.toNat}"

theorem fromStr_debug_iff (evdev : Evdev) (code : KeyCode) :
    evdev.fromStr (evdev.debug code) = some code ↔ (evdev.name code).isSome := by
  unfold debug
  cases hname : evdev.name code with
  | some text => simp [evdev.fromStr_name code text hname]
  | none =>
      simp only [Option.isSome_none, Bool.false_eq_true, iff_false]
      intro h
      apply evdev.identifier _ _ h
      rw [String.toList_append, List.mem_append]
      exact Or.inl (by decide)

end Evdev

/-- Parse configured key names into evdev key codes, skipping unknown names. -/
def parseToggleKeys (evdev : Evdev) (names : List String) : List KeyCode :=
  names.filterMap evdev.fromStr

/-- A high-level signal derived from raw input events. -/
inductive InputSignal where
  | remoteToggle
  | activity (source : String)
  deriving DecidableEq, Repr

/-- What `InputEvent::destructure` tells about an event. -/
inductive EventSummary where
  | key (code : KeyCode) (value : ℤ)
  | relativeAxis (value : ℤ)
  | absoluteAxis (value : ℤ)
  | other
  deriving DecidableEq, Repr

/-- Role a reader plays. -/
inductive Role where
  | remote (keys : List KeyCode)
  | watch
  deriving DecidableEq, Repr

/-- A reader task: the device it opened and its role. -/
structure Reader where
  path : PathBuf
  role : Role
  deriving DecidableEq, Repr

/-- The signal a reader of the device `name` sends for an event. -/
def Role.signal (role : Role) (name : String) (event : EventSummary) : Option InputSignal :=
  match role, event with
  | .remote keys, .key code 1 => if code ∈ keys then some .remoteToggle else none
  | .remote _, _ => none
  | .watch, .key _ 1 => some (.activity name)
  | .watch, .relativeAxis value => if value ≠ 0 then some (.activity name) else none
  | .watch, .absoluteAxis _ => some (.activity name)
  | .watch, _ => none

/-- Only the reader of the remote sends a toggle, and only for a press of one of its keys. -/
theorem Role.signal_eq_remoteToggle {role : Role} {name : String} {event : EventSummary}
    (h : role.signal name event = some .remoteToggle) :
    ∃ keys code, role = .remote keys ∧ event = .key code 1 ∧ code ∈ keys := by
  unfold Role.signal at h
  split at h
  · rename_i keys code
    split_ifs at h with hcode
    exact ⟨keys, code, rfl, rfl, hcode⟩
  · cases h
  · cases h
  · split_ifs at h
    cases h
  · cases h
  · cases h

end AlertU
