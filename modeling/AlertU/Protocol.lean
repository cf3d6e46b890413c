import AlertU.Machine

/-! The protocol of the control socket: the requests of a client, the responses and pushes of the
daemon, and how a request becomes a command of the machine. -/

open Timing

namespace AlertU

/-- Requests sent from a client to the daemon. -/
inductive Request where
  | getState
  | subscribe
  | arm
  | disarm
  | toggle
  | getConfig
  | setConfig (cfg : Config)
  | listDevices
  | learnRemote (timeoutSecs : UInt64)
  | testSound
  deriving DecidableEq, Repr

/-- Replies and asynchronous pushes sent from the daemon to a client. -/
inductive Response where
  | state (state : GuardState)
  | stateChanged (state : GuardState)
  | config (cfg : Config)
  | devices (devices : List InputDeviceInfo)
  | learned (path : FilePath.PathBuf) (name : String) (key : String)
  | learnTimedOut
  | ok
  | error (message : String)
  deriving DecidableEq, Repr

namespace Response

/-- The state that the response tells. -/
def state? : Response → Option GuardState
  | .state s | .stateChanged s => some s
  | _ => none

/-- The state that is pushed. -/
def pushed? : Response → Option GuardState
  | .stateChanged s => some s
  | _ => none

/-- The device list that the response tells. -/
def devices? : Response → Option (List InputDeviceInfo)
  | .devices infos => some infos
  | _ => none

def isError : Response → Bool
  | .error _ => true
  | _ => false

end Response

/-- A line of the socket, as `serde_json` reads it. -/
inductive Line where
  | blank
  | malformed (error : String)
  | request (req : Request)
  deriving DecidableEq, Repr

/-- The request that the line carries. -/
def Line.request? : Line → Option Request
  | .request req => some req
  | _ => none

namespace Request

/-- The command that the request sends to the machine. -/
def control : Request → Option Control
  | .arm => some .arm
  | .disarm => some .disarm
  | .toggle => some .toggle
  | .getConfig => some .getConfig
  | .setConfig cfg => some (.setConfig cfg)
  | .learnRemote timeoutSecs => some (.learnRemote (fromSecs timeoutSecs))
  | .testSound => some .testSound
  | .getState | .subscribe | .listDevices => none

/-- Whether the command carries a `oneshot` channel for an answer; the others need just an ack. -/
def expectsAnswer : Request → Bool
  | .getConfig | .setConfig _ | .learnRemote _ => true
  | _ => false

def isLearnRemote : Request → Bool
  | .learnRemote _ => true
  | _ => false

end Request

def daemonGone : Response := .error "daemon state machine unavailable"

/-- What `learn::run` answers for its outcome; it gives up at once if there is nothing to listen to. -/
def Learn.answer (entries : List DeviceEntry) (outcome : Outcome) : Response :=
  if (listened entries).isEmpty then .error "no input device available to learn from"
  else
    match outcome with
    | .learned path name key => .learned path name key
    | .timedOut => .learnTimedOut

/-- A pairing window tells neither the state nor the devices. -/
theorem Learn.answer_silent (entries : List DeviceEntry) (outcome : Outcome) :
    (answer entries outcome).state? = none ∧ (answer entries outcome).devices? = none := by
  unfold answer
  split_ifs
  · exact ⟨rfl, rfl⟩
  · cases outcome <;> exact ⟨rfl, rfl⟩

end AlertU
