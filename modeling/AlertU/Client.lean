import AlertU.Calls
import AlertU.Protocol

/-! The blocking client of the control socket. It sends one request at a time and reads one reply to it;
a request that is safe to replay is sent once more, over a fresh connection, if the client reconnects.
The functions are programs over the calls that they make; replies come as `serde_json` reads them. -/

open FilePath Calls

namespace AlertU

namespace Request

/-- Whether replaying the request after a dropped connection is safe. -/
def isReplaySafe : Request → Bool
  | .getConfig | .listDevices | .getState | .setConfig _ => true
  | .arm | .disarm | .toggle | .subscribe => false
  | .learnRemote _ => false
  | .testSound => true

/-- The request in the client's messages. -/
def name : Request → String
  | .getState => "GetState"
  | .subscribe => "Subscribe"
  | .arm => "Arm"
  | .disarm => "Disarm"
  | .toggle => "Toggle"
  | .getConfig => "GetConfig"
  | .setConfig _ => "SetConfig"
  | .listDevices => "ListDevices"
  | .learnRemote _ => "LearnRemote"
  | .testSound => "TestSound"

end Request

/-- A remote identified by pressing one of its buttons. -/
structure LearnedRemote where
  path : PathBuf
  name : String
  key : String
  deriving DecidableEq, Repr

/-- A client, apart from its connection. -/
structure Client where
  socket : PathBuf
  reconnect : Bool

namespace Client

/-- What the client calls for: `serde_json` on its requests, and its socket. -/
inductive Call where
  | connect
  | serialize (req : Request)
  | writeAll (req : Request)
  | flush
  | readLine
  deriving DecidableEq, Repr

/-- Why there is no connection. -/
inductive ConnectFault where
  | refused (permissionDenied : Bool) (error : String)
  | uncloned (error : String)
  deriving DecidableEq, Repr

/-- What a call is answered: nothing, unless it fails, but for the line that is read. That is none at the
end of the stream, and otherwise a response, unless it cannot be parsed. -/
abbrev Answer : Call → Type
  | .connect => Except ConnectFault Unit
  | .serialize _ | .writeAll _ | .flush => Except String Unit
  | .readLine => Except String (Option (Except String Response))

instance : ∀ k, Inhabited (Answer k)
  | .connect => ⟨.ok ()⟩
  | .serialize _ | .writeAll _ | .flush => ⟨.ok ()⟩
  | .readLine => ⟨.ok none⟩

/-- An `anyhow` error: its contexts, the outermost first, and its root. -/
abbrev Chain := List String

/-- The error as `{e}`. -/
def Chain.display (e : Chain) : String := e.headD ""

/-- The error as `{e:#}`. -/
def Chain.alternate (e : Chain) : String := ": ".intercalate e

/-- A function of the client. -/
abbrev Method := Fallible Call Answer Chain

variable {α : Type}

def withContext (text : String) (x : Method α) : Method α := Fallible.mapError (text :: ·) x

/-- A call with the context of its error. -/
def ask (text : String) (p : Prog Call Answer (Except String α)) : Method α :=
  p.bind fun r => .ret (r.mapError fun e => [text, e])

/-- The parenthetical after a failed connect: which hypothesis to check first. -/
def connectHint (permissionDenied : Bool) : String :=
  if permissionDenied then
    "permission denied: your login is probably not in the socket's group — run `sudo usermod -aG " ++
      "alertu \"$USER\"`, then start a new login session"
  else "is alertu-daemon running?"

/-- Connect to the daemon's Unix socket. -/
def connect (socket : PathBuf) : Method Unit :=
  (Prog.perform .connect).bind fun (r : Except ConnectFault Unit) => .ret (r.mapError fun
    | .refused permissionDenied error =>
        [s!"connecting to {socket.raw} ({connectHint permissionDenied})", error]
    | .uncloned error => ["cloning socket", error])

/-- Read a single newline-delimited response off the socket. -/
def readResponse : Method Response := do
  match ← ask "reading reply" (.perform Call.readLine) with
  | none => throw ["daemon closed the connection"]
  | some (.ok response) => pure response
  | some (.error error) => throw ["parsing reply", error]

/-- Attempt one request/response round trip without retry. -/
def attemptRoundTrip (req : Request) : Method Response := do
  ask "serializing request" (.perform (Call.serialize req))
  ask "writing request" (.perform (Call.writeAll req))
  ask "flushing request" (.perform Call.flush)
  readResponse

variable (client : Client)

/-- Re-establish the connection in place, keeping the same `Client`. -/
def reopen : Method Unit := connect client.socket

/-- What follows a first attempt that has failed: another one through a fresh connection, if the client
reconnects and the request is replay-safe. -/
def retry (req : Request) (e : Chain) : Method Response :=
  if client.reconnect && req.isReplaySafe then do
    withContext s!"retrying after: {e.display}" client.reopen
    withContext s!"failed again after reconnecting (first failure: {e.alternate})"
      (attemptRoundTrip req)
  else throw e

/-- Send one request and read exactly one reply, retrying once if that is possible. -/
def roundTrip (req : Request) : Method Response :=
  Prog.bind (attemptRoundTrip req) fun
    | .ok response => .ret (.ok response)
    | .error e => client.retry req e

variable (debug : Response → String)

/-- The content of a response of the kind that is expected; an error of the daemon is one of the client. -/
def unpack (req : Request) (content : Response → Option α) (response : Response) : Method α :=
  match content response, response with
  | some a, _ => pure a
  | none, .error message => throw [message]
  | none, other => throw [s!"unexpected reply to {req.name}: {debug other}"]

/-- A round trip that expects a response of one kind. -/
def expecting (req : Request) (content : Response → Option α) : Method α := do
  let response ← client.roundTrip req
  unpack debug req content response

def getConfig : Method Config :=
  client.expecting debug .getConfig fun
    | .config cfg => some cfg
    | _ => none

def listDevices : Method (List InputDeviceInfo) :=
  client.expecting debug .listDevices fun
    | .devices infos => some infos
    | _ => none

def getState : Method GuardState :=
  client.expecting debug .getState fun
    | .state state => some state
    | _ => none

/-- Round-trip a request whose only successful answer is a bare `Ok`. -/
def expectOk (req : Request) : Method Unit :=
  client.expecting debug req fun
    | .ok => some ()
    | _ => none

def setConfig (cfg : Config) : Method Unit := client.expectOk debug (.setConfig cfg)

/-- Watch every input device and report the first button press. -/
def learnRemote (timeoutSecs : UInt64) : Method (Option LearnedRemote) :=
  client.expecting debug (.learnRemote timeoutSecs) fun
    | .learned path name key => some (some ⟨path, name, key⟩)
    | .learnTimedOut => some none
    | _ => none

def testSound : Method Unit := client.expectOk debug .testSound

def arm : Method Unit := client.expectOk debug .arm

def disarm : Method Unit := client.expectOk debug .disarm

def toggle : Method Unit := client.expectOk debug .toggle

/-- Register for asynchronous pushes. -/
def subscribe : Method GuardState :=
  client.expecting debug .subscribe fun
    | .state state => some state
    | _ => none

/-- Block until the daemon pushes the next response. -/
def nextPush : Method Response := readResponse

/-- There is nothing to be done with a response but to return from the method. -/
theorem unpack_cases (req : Request) (content : Response → Option α) (response : Response) :
    (∃ a, content response = some a ∧ unpack debug req content response = pure a) ∨
      ∃ e, unpack debug req content response = throw e := by
  unfold unpack
  cases content response with
  | some a => exact .inl ⟨a, rfl, rfl⟩
  | none => cases response <;> exact .inr ⟨_, rfl⟩

/-- A use of the client: the method of a request, or `nextPush`. -/
inductive Use where
  | request (req : Request)
  | nextPush
  deriving DecidableEq, Repr

/-- What a method returns. -/
inductive Content where
  | config (cfg : Config)
  | devices (infos : List InputDeviceInfo)
  | state (state : GuardState)
  | learned (remote : Option LearnedRemote)
  | done
  | push (response : Response)
  deriving DecidableEq, Repr

/-- The content of a response, as a method returns it. -/
def Content.of : Response → Option Content
  | .config cfg => some (.config cfg)
  | .devices infos => some (.devices infos)
  | .state s => some (.state s)
  | .learned path name key => some (.learned (some ⟨path, name, key⟩))
  | .learnTimedOut => some (.learned none)
  | .ok => some .done
  | .stateChanged _ | .error _ => none

def done (x : Method Unit) : Method Content := do
  x
  pure .done

/-- The method that is used. -/
def perform : Use → Method Content
  | .request .getConfig => do pure (.config (← client.getConfig debug))
  | .request .listDevices => do pure (.devices (← client.listDevices debug))
  | .request .getState => do pure (.state (← client.getState debug))
  | .request .subscribe => do pure (.state (← client.subscribe debug))
  | .request (.learnRemote timeoutSecs) => do
      pure (.learned (← client.learnRemote debug timeoutSecs))
  | .request (.setConfig cfg) => done (client.setConfig debug cfg)
  | .request .testSound => done (client.testSound debug)
  | .request .arm => done (client.arm debug)
  | .request .disarm => done (client.disarm debug)
  | .request .toggle => done (client.toggle debug)
  | .nextPush => do pure (.push (← nextPush))

end Client

end AlertU
