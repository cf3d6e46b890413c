import AlertU.Protocol

/-! The tray of a user session: what it shows, what its menu offers, and what it sends. Menu callbacks
never block: what they send is queued for the session loop, and the local copy of the configuration is
updated at once. -/

open FilePath

namespace AlertU

/-- How long the daemon listens for a button press during pairing. -/
def PAIRING_WINDOW_SECS : UInt64 := 30

/-- Where a pairing attempt stands. -/
inductive Tray.Pairing where
  | idle
  | waiting
  | done (name : String) (key : String)
  | nothingPressed
  | refused
  deriving DecidableEq, Repr

/-- The tray model. -/
structure Tray where
  state : GuardState
  devices : List InputDeviceInfo
  cfg : Option Config
  connected : Bool
  pairing : Tray.Pairing
  deriving DecidableEq, Repr

/-- A row of the menu. -/
structure MenuItem where
  label : String
  enabled : Bool
  deriving DecidableEq, Repr

namespace Tray

def new : Tray := ⟨.idle, [], none, false, .idle⟩

variable (t : Tray)

/-- Ask the daemon to watch for a button press. -/
def startPairing : Tray × Option Request :=
  ({ t with pairing := .waiting }, some (.learnRemote PAIRING_WINDOW_SECS))

/-- Record the outcome of a pairing attempt and, on success, save it. -/
def finishPairing : Option (PathBuf × String × String) → Tray × Option Request
  | none => ({ t with pairing := .nothingPressed }, none)
  | some (path, name, key) =>
      match t.cfg with
      | some cfg =>
          let snapshot := cfg.applyLearnedRemote path name key
          ({ t with cfg := some snapshot, pairing := .done name key }, some (.setConfig snapshot))
      | none => ({ t with pairing := .refused }, some .getConfig)

/-- A pairing attempt the daemon refused. -/
def failPairing : Tray := if t.pairing = .waiting then { t with pairing := .refused } else t

/-- `apply_response`, and what it makes the tray send. -/
def applyResponse : Response → Tray × Option Request
  | .state state | .stateChanged state => ({ t with state }, none)
  | .config cfg => ({ t with cfg := some cfg }, none)
  | .devices devices => ({ t with devices }, none)
  | .ok => (t, none)
  | .learned path name key => t.finishPairing (some (path, name, key))
  | .learnTimedOut => t.finishPairing none
  | .error _ => (t.failPairing, none)

/-- The label of the item that sends `Toggle`, by the state that the tray shows. -/
def toggleLabel : GuardState → String
  | .idle => "Arm"
  | _ => "Disarm"

def toggleItem : MenuItem := ⟨toggleLabel t.state, t.connected⟩

/-- The one-click pairing entry. -/
def pairingItem : MenuItem :=
  match t.pairing with
  | .waiting => ⟨"Press a button on your remote…", false⟩
  | .idle => ⟨"Pair remote…", t.connected⟩
  | .done name key => ⟨s!"Paired: {name} ({key}) — pair again", t.connected⟩
  | .nothingPressed => ⟨"No button detected — pair again", t.connected⟩
  | .refused => ⟨"Pairing failed — disarm, then pair again", t.connected⟩

end Tray

end AlertU
