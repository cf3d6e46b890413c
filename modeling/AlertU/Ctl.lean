import AlertU.Client
import AlertU.Config

/-! `alertu-ctl`. A command connects, makes its round trips and prints what they came to; only after that
is anything written to its standard output. Each command is a program over what it calls for: the socket,
the file that it reads and the lines that it prints. A line that cannot be printed is a panic. -/

open FilePath Calls Text

namespace AlertU.Ctl

/-- The daemon refused the request, or nothing was listening on the socket. -/
def EXIT_DAEMON : UInt8 := 1

/-- Bad input from the caller, caught before any socket is touched. -/
def EXIT_USAGE : UInt8 := 2

/-- The exit code of a process that panics. -/
def EXIT_PANIC : UInt8 := 101

/-- What a command calls for. The file `-` is the standard input; what is printed goes to the standard
output, the prompt and the complaint to the standard error. -/
inductive Call where
  | client (k : Client.Call)
  | read (file : PathBuf)
  | writeSounds (dir : PathBuf) (force : Bool)
  | prompt (text : String)
  | print (text : String)
  | complain (source : Client.Chain)
  deriving DecidableEq, Repr

/-- What a call is answered; for a text that is printed, whether it could be written, which may fail midway.
What becomes of the sounds is not looked into here. -/
abbrev Answer : Call → Type
  | .client k => Client.Answer k
  | .read _ => Except String String
  | .writeSounds _ _ => Except Client.Chain Unit
  | .prompt _ | .print _ | .complain _ => Bool

instance : ∀ k, Inhabited (Answer k)
  | .client k => inferInstanceAs (Inhabited (Client.Answer k))
  | .read _ => ⟨.ok ""⟩
  | .writeSounds _ _ => ⟨.ok ()⟩
  | .prompt _ | .print _ | .complain _ => ⟨true⟩

/-- A failure together with the exit code it maps to. -/
structure CliError where
  code : UInt8
  source : Client.Chain
  deriving DecidableEq, Repr

/-- Bad local input. -/
def CliError.usage (source : Client.Chain) : CliError := ⟨EXIT_USAGE, source⟩

/-- Anything that fails in an exchange with the daemon. -/
def CliError.daemon (source : Client.Chain) : CliError := ⟨EXIT_DAEMON, source⟩

/-- The crates that the output is written with. -/
structure Formats where
  toJson : Response → Except String String
  toml : Toml
  debug : Response → String

/-- What a command produced, before rendering. -/
inductive Outcome where
  | state (state : GuardState)
  | config (cfg : Config)
  | devices (infos : List InputDeviceInfo)
  | paired (remote : Option LearnedRemote)
  | ack
  deriving DecidableEq, Repr

/-- The protocol response this outcome came from. -/
def Outcome.toResponse : Outcome → Response
  | .state s => .state s
  | .config cfg => .config cfg
  | .devices infos => .devices infos
  | .paired (some learned) => .learned learned.path learned.name learned.key
  | .paired none => .learnTimedOut
  | .ack => .ok

def renderDevice (d : InputDeviceInfo) : String :=
  let tags := (if d.isKeyboard then ["keyboard"] else []) ++ if d.isPointer then ["pointer"] else []
  let tags := if tags.isEmpty then "" else " [" ++ ",".intercalate tags ++ "]"
  d.path.raw ++ "  " ++ d.name ++ tags

def renderDevices (devices : List InputDeviceInfo) : String :=
  if devices.isEmpty then "no input devices" else "\n".intercalate (devices.map renderDevice)

/-- Serialize a response for `--json`. -/
def renderJson (formats : Formats) (response : Response) : Except Client.Chain String :=
  (formats.toJson response).mapError fun e => ["serializing JSON output", e]

/-- Render an outcome for the terminal, as JSON or in human form. -/
def render (formats : Formats) (outcome : Outcome) (json : Bool) : Except Client.Chain String :=
  if json then renderJson formats outcome.toResponse
  else
    match outcome with
    | .state state => .ok state.label
    | .ack => .ok "ok"
    | .config cfg =>
        match formats.toml.toStringPretty cfg with
        | some text => .ok (String.ofList (trimEnd text.toList))
        | none => .error ["serializing config as TOML"]
    | .devices infos => .ok (renderDevices infos)
    | .paired (some learned) =>
        .ok s!"paired {learned.name} ({learned.key}) on {learned.path.raw}"
    | .paired none =>
        .ok ("no button detected — the remote may be asleep; press a button to wake it and " ++
          "retry")

/-- Why a function does not come to its end: an error that it returns, or a panic. -/
inductive Stop (ε : Type) where
  | error (e : ε)
  | panic
  deriving DecidableEq, Repr

/-- What `?` makes of an error; a panic goes on. -/
def Stop.map {ε δ : Type} (f : ε → δ) : Stop ε → Stop δ
  | .error e => .error (f e)
  | .panic => .panic

/-- A function that fails with an `anyhow` error. -/
abbrev Action := Fallible Call Answer (Stop Client.Chain)

/-- A subcommand. -/
abbrev Command := Fallible Call Answer (Stop CliError)

variable {α : Type}

/-- A result that has been computed without a call. -/
def yielded (r : Except Client.Chain α) : Action α := Prog.ret (r.mapError .error)

/-- A method of the client. -/
def onClient (x : Client.Method α) : Action α := Prog.bind (Prog.via Call.client (fun _ r => r) x) yielded

/-- What `println!` and `eprintln!` make of the answer to their write. -/
def written : Bool → Except (Stop Client.Chain) Unit
  | true => .ok ()
  | false => .error .panic

def prompt (text : String) : Action Unit := Prog.call (Call.prompt text) fun r => .ret (written r)

/-- Print what is rendered, unless it cannot be. -/
def printRendered : Except Client.Chain String → Action Unit
  | .ok text => Prog.call (Call.print text) fun r => .ret (written r)
  | .error e => throw (.error e)

def printOutcome (formats : Formats) (outcome : Outcome) (json : Bool) : Action Unit :=
  printRendered (render formats outcome json)

/-- What `?` makes of an error in a command. -/
def fallibly (f : Client.Chain → CliError) (x : Action α) : Command α :=
  Prog.bind x fun r => .ret (r.mapError (Stop.map f))

variable (formats : Formats) (socket : PathBuf) (json : Bool)

/-- Connect, run a single request/response exchange, and print the result. -/
def withClient (f : Client → Action Outcome) : Command Unit :=
  fallibly .daemon do
    onClient (Client.connect socket)
    let outcome ← f ⟨socket, false⟩
    printOutcome formats outcome json

def arm : Command Unit :=
  withClient formats socket json fun client => do
    onClient (client.arm formats.debug)
    pure .ack

def disarm : Command Unit :=
  withClient formats socket json fun client => do
    onClient (client.disarm formats.debug)
    pure .ack

def toggle : Command Unit :=
  withClient formats socket json fun client => do
    onClient (client.toggle formats.debug)
    pure .ack

/-- Print the current guard state, once. -/
def status : Command Unit :=
  withClient formats socket json fun client => do
    pure (.state (← onClient (client.getState formats.debug)))

/-- Print the daemon's effective configuration. -/
def get : Command Unit :=
  withClient formats socket json fun client => do
    pure (.config (← onClient (client.getConfig formats.debug)))

/-- List the input devices the daemon can see. -/
def list : Command Unit :=
  withClient formats socket json fun client => do
    pure (.devices (← onClient (client.listDevices formats.debug)))

/-- The configuration that a text holds, if it is a valid one. -/
def checkConfig (text : String) : Except Client.Chain Config :=
  match formats.toml.fromStr text with
  | none => .error ["parsing config TOML"]
  | some cfg =>
      match cfg.validate with
      | .error e => .error ["validating config", e]
      | .ok () => .ok cfg

/-- Read and validate a config locally. -/
def readConfig (file : PathBuf) : Action Config := do
  let text ← (Prog.bind (.perform (Call.read file)) fun (r : Except String String) =>
    yielded (r.mapError fun e =>
      [if file.raw = "-" then "reading config from stdin" else s!"reading config {file.raw}", e])
    : Action String)
  yielded (checkConfig formats text)

/-- Replace the daemon's configuration from a file, which is validated before connecting. -/
def set (file : PathBuf) : Command Unit := do
  let cfg ← fallibly .usage (readConfig formats file)
  fallibly .daemon do
    onClient (Client.connect socket)
    onClient (Client.setConfig ⟨socket, false⟩ formats.debug cfg)
    printOutcome formats .ack json

/-- The exchange of `pair`: what is learned is written into the configuration that the daemon reports. -/
def learnAndSave (client : Client) (timeoutSecs : UInt64) : Action Outcome := do
  match ← onClient (client.learnRemote formats.debug timeoutSecs) with
  | none => pure (.paired none)
  | some learned =>
      let cfg ← onClient (client.getConfig formats.debug)
      onClient (client.setConfig formats.debug
        (cfg.applyLearnedRemote learned.path learned.name learned.key))
      pure (.paired (some learned))

/-- Learn a remote by pressing one of its buttons, then save it. -/
def pair (timeoutSecs : UInt64) : Command Unit :=
  withClient formats socket json fun client => do
    if !json then prompt s!"Press a button on your remote… ({timeoutSecs}s)"
    learnAndSave formats client timeoutSecs

/-- Write the default sounds and acknowledge. -/
def genSounds (dir : PathBuf) (force : Bool) : Command Unit := do
  fallibly .usage (Prog.bind (.perform (Call.writeSounds dir force)) yielded : Action Unit)
  fallibly .daemon (printOutcome formats .ack json)

/-- What `status --watch` prints for a push: the response itself as JSON, or the bare state. -/
def renderPush (push : Response) (state : GuardState) : Except Client.Chain String :=
  if json then renderJson formats push else render formats (.state state) false

/-- The first `rounds` rounds of the loop of `watch_states`. -/
def watchPushes : ℕ → Action Unit
  | 0 => pure ()
  | rounds + 1 => do
      let push ← onClient Client.nextPush
      match push with
      | .state state | .stateChanged state => printRendered (renderPush formats json push state)
      | .devices _ | .config _ | .ok | .learned _ _ _ | .learnTimedOut => pure ()
      | .error message => throw (.error [message])
      watchPushes rounds

/-- `status --watch`, as far as the first `rounds` pushes. -/
def watch (rounds : ℕ) : Command Unit :=
  fallibly .daemon do
    onClient (Client.connect socket)
    let state ← onClient (Client.subscribe ⟨socket, false⟩ formats.debug)
    printOutcome formats (.state state) json
    watchPushes formats json rounds

inductive Subcommand where
  | arm
  | disarm
  | toggle
  | status (watch : Bool)
  | getConfig
  | setConfig (file : PathBuf)
  | listDevices
  | pair (timeoutSecs : UInt64)
  | genSounds (dir : PathBuf) (force : Bool)
  deriving DecidableEq, Repr

/-- Dispatch a command. `status --watch` is followed for the first `rounds` pushes. -/
def run (rounds : ℕ) : Subcommand → Command Unit
  | .arm => arm formats socket json
  | .disarm => disarm formats socket json
  | .toggle => toggle formats socket json
  | .status false => status formats socket json
  | .status true => watch formats socket json rounds
  | .getConfig => get formats socket json
  | .setConfig file => set formats socket json file
  | .listDevices => list formats socket json
  | .pair timeoutSecs => pair formats socket json timeoutSecs
  | .genSounds dir force => genSounds formats json dir force

/-- The exit code of the process. -/
def main (rounds : ℕ) (cmd : Subcommand) : Prog Call Answer UInt8 :=
  Prog.bind (run formats socket json rounds cmd) fun
    | .ok () => .ret 0
    | .error (.error e) =>
        .call (.complain e.source) fun (complained : Bool) =>
          .ret (if complained then e.code else EXIT_PANIC)
    | .error .panic => .ret EXIT_PANIC

end AlertU.Ctl
