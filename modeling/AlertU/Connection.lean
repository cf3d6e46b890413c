import AlertU.MachineTurn
import AlertU.Protocol

/-! One client connection of the daemon: `handle_conn` and the `dispatch` of a request. The connection
waits in a `select!` for a line, a state change or a device change; whatever it takes up there it
finishes before it returns to the `select!`, and it awaits the machine or a pairing window meanwhile.
A line carries a tag of its sender's choice, on which nothing depends. -/

open FilePath Channel

namespace AlertU

/-- The machine, and whether its task is still running. -/
structure Service where
  daemon : Daemon
  running : Bool

/-- A message of the machine is handled, or a panic ends the task. -/
def Service.wake (p : Platform) (v : Service) (wake : Wake) (host : Host) : Except Unit Service :=
  if v.running then
    match v.daemon.step p (wake, host) with
    | .ok next => .ok { v with daemon := next }
    | .error _ => .ok { v with running := false }
  else .error ()

variable {γ : Type}

/-- Where a connection stands. -/
inductive ConnPhase (γ : Type) where
  | starting
  | selecting
  | sending (e : Request × γ)
  | asking (e : Request × γ)
  | listening (e : Request × γ) (entries : List DeviceEntry)
  | answered (e : Request × γ) (response : Response)
  | stateMarked
  | devicesMarked
  | writing (origin : Option (Request × γ)) (response : Response)
  deriving DecidableEq, Repr

namespace ConnPhase

/-- The request that is being dispatched or answered. -/
def request : ConnPhase γ → Option (Request × γ)
  | .sending e | .asking e | .listening e _ | .answered e _ => some e
  | .writing origin _ => origin
  | _ => none

/-- The line that is being written, with the request that it answers. -/
def line : ConnPhase γ → List (Option (Request × γ) × Response)
  | .writing origin response => [(origin, response)]
  | _ => []

end ConnPhase

/-- A connection: the versions that its receivers have marked, the lines that have arrived, its
commands in the control channel and the lines it has written, with the requests they answer. -/
structure Conn (γ : Type) where
  subscribed : Bool
  stateRx : ℕ
  devicesRx : ℕ
  phase : ConnPhase γ
  lines : List (Line × γ)
  ctrl : List (Request × γ)
  written : List (Option (Request × γ) × Response)
  closed : Bool
  deriving DecidableEq, Repr

/-- What lets the task of a connection go on. -/
inductive Progress where
  | start
  | line
  | hangUp
  | send
  | outcome (outcome : Outcome)
  | resume
  | stateChanged
  | devicesChanged
  | borrow
  | write (written : Bool)
  deriving DecidableEq, Repr

/-- What an action of the machine does for the request whose command it handles. -/
def Action.settles (e : Request × γ) (action : Action) : Option (ConnPhase γ) :=
  match e.1, action with
  | .getConfig, .replyConfig cfg => some (.answered e (.config cfg))
  | .setConfig _, .replySet .ok => some (.answered e .ok)
  | .setConfig _, .replySet (.error message) => some (.answered e (.error message))
  | .learnRemote _, .refuseLearn message => some (.answered e (.error message))
  | .learnRemote _, .learn _ entries => some (.listening e entries)
  | _, _ => none

/-- A connection that awaits an answer gets it; an answer that is dropped is an error. -/
def ConnPhase.settle (actions : List Action) : ConnPhase γ → ConnPhase γ
  | .asking e => (actions.findSome? (Action.settles e)).getD (.answered e daemonGone)
  | phase => phase

namespace Conn

/-- A connection that has been accepted. -/
def new : Conn γ := ⟨false, 0, 0, .starting, [], [], [], false⟩

variable (c : Conn γ)

def reply (e : Request × γ) (response : Response) : Conn γ :=
  { c with phase := .writing (some e) response }

/-- `dispatch`, up to its first `await`. -/
def dispatch (d : Daemon) (e : Request × γ) : Conn γ :=
  match e.1 with
  | .getState => c.reply e (.state d.stateTx.value)
  | .subscribe => { c with subscribed := true }.reply e (.state d.stateTx.value)
  | .listDevices => c.reply e (.devices d.devicesTx.value)
  | .arm | .disarm | .toggle | .getConfig | .setConfig _ | .testSound | .learnRemote _ =>
      { c with phase := .sending e }

/-- A line that the `select!` has taken. -/
def take (d : Daemon) (line : Line) (tag : γ) : Conn γ :=
  match line with
  | .blank => c
  | .malformed error => { c with phase := .writing none (.error s!"bad request: {error}") }
  | .request req => c.dispatch d (req, tag)

/-- The machine handles the first command of the connection, whether or not that is still open. -/
def handle (p : Platform) (v : Service) (host : Host) : Except Unit (Service × Conn γ) :=
  match c.ctrl with
  | [] => .error ()
  | e :: rest =>
      match e.1.control, v.running with
      | some ctrl, true =>
          match v.daemon.step p (.control ctrl, host) with
          | .ok next =>
              .ok ({ v with daemon := next }, { c with
                ctrl := rest
                phase :=
                  if e.1.expectsAnswer then c.phase.settle (v.daemon.since next) else c.phase })
          | .error _ => .ok ({ v with running := false }, c)
      | _, _ => .error ()

/-- One step of the task of the connection. -/
def step (v : Service) (progress : Progress) : Except Unit (Conn γ) :=
  if c.closed then .error ()
  else
    match progress, c.phase with
    | .start, .starting =>
        -- `mark_unchanged`
        .ok { c with
          stateRx := v.daemon.stateTx.version
          devicesRx := v.daemon.devicesTx.version
          phase := .selecting }
    | .line, .selecting =>
        match c.lines with
        | [] => .error ()
        | (line, tag) :: rest => .ok ({ c with lines := rest }.take v.daemon line tag)
    | .hangUp, .selecting => .ok { c with closed := true }
    | .send, .sending e =>
        if v.running then
          .ok { c with
            ctrl := c.ctrl ++ [e]
            phase := if e.1.expectsAnswer then .asking e else .writing (some e) .ok }
        else .ok (c.reply e daemonGone)
    | .outcome outcome, .listening e entries =>
        .ok { c with phase := .answered e (Learn.answer entries outcome) }
    | .resume, .answered e response => .ok (c.reply e response)
    | .resume, .asking e =>
        -- the control channel is dropped together with the machine
        if v.running then .error () else .ok ({ c with ctrl := [] }.reply e daemonGone)
    | .stateChanged, .selecting =>
        if c.subscribed && v.daemon.stateTx.flagged c.stateRx then
          .ok { c with stateRx := v.daemon.stateTx.version, phase := .stateMarked }
        else .error ()
    | .devicesChanged, .selecting =>
        if c.subscribed && v.daemon.devicesTx.flagged c.devicesRx then
          .ok { c with devicesRx := v.daemon.devicesTx.version, phase := .devicesMarked }
        else .error ()
    | .borrow, .stateMarked =>
        .ok { c with phase := .writing none (.stateChanged v.daemon.stateTx.value) }
    | .borrow, .devicesMarked =>
        .ok { c with phase := .writing none (.devices v.daemon.devicesTx.value) }
    | .write true, .writing origin response =>
        .ok { c with phase := .selecting, written := c.written ++ [(origin, response)] }
    | .write false, .writing _ _ => .ok { c with closed := true }
    | _, _ => .error ()

/-- The process of the daemon has ended. -/
def kill : Conn γ := { c with closed := true, ctrl := [] }

/-- The lines written so far and the one being written. -/
def output : List (Option (Request × γ) × Response) := c.written ++ c.phase.line

/-- The requests received so far, in their order: answered, being dispatched, waiting. -/
def requests : List (Request × γ) :=
  c.written.filterMap (·.1) ++ c.phase.request.toList ++
    c.lines.filterMap fun line => line.1.request?.map (·, line.2)

end Conn

end AlertU
