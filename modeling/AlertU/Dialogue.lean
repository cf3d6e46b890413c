import AlertU.Client
import AlertU.ConnectionReplies

/-! The client and the daemon. The connections of the daemon are there from their acceptance on, the
client's and those of others; the client talks on the last one that it has opened. Between any two calls
of the client the machine, the connections and the other clients go on, and the daemon may be restarted.
A line of the client is tagged with the number of the use that has written it. -/

open FilePath Calls Runs

namespace AlertU

/-- A connection at the daemon, with all lines that have arrived on it. What a failed write has left of
a line of the client is there without its end: it becomes a line when the client closes, and the
beginning of one when it writes again. -/
structure Wire where
  conn : Conn (Option ℕ)
  arrived : List (Line × Option ℕ)
  fragment : Option (Line × Option ℕ)
  mine : Bool

namespace Wire

def new (mine : Bool) : Wire := ⟨.new, [], none, mine⟩

variable (wire : Wire)

/-- A line arrives. -/
def receive (line : Line × Option ℕ) : Wire :=
  { wire with
    conn.lines := wire.conn.lines ++ [line]
    arrived := wire.arrived ++ [line]
    fragment := none }

/-- What the daemon reads for a line that is written after a fragment. -/
def joined (error : String) (line : Line) : Line :=
  if wire.fragment.isSome then .malformed error else line

/-- The process of the daemon has ended. -/
def kill : Wire := { wire with conn := wire.conn.kill }

end Wire

/-- The client's socket: its connection, the responses that have been read from it, and whether there
can be more. -/
structure Socket where
  wire : ℕ
  read : ℕ
  readable : Bool
  deriving DecidableEq, Repr

/-- A response that has been read: during which use, on which connection and at which place. -/
structure Receipt where
  call : ℕ
  wire : ℕ
  position : ℕ
  deriving DecidableEq, Repr

structure Exchange where
  service : Service
  wires : List Wire
  socket : Socket
  call : ℕ
  receipts : List Receipt

/-- What goes on besides the client. -/
inductive Exchange.Move where
  | machine (wake : Wake) (host : Host)
  | control (n : ℕ) (host : Host)
  | progress (n : ℕ) (progress : Progress)
  | accept
  | arrive (n : ℕ) (line : Line)
  | close (n : ℕ)
  | restart (host : Host)

/-- How a call of the client fares: a fault, if it fails, and what a write that fails leaves on the wire,
with the whole line but its end or less; and whether a response is cut short, or cannot be parsed. -/
structure Fate where
  fault : Option String
  refusal : Option Client.ConnectFault
  landed : Option Bool
  cut : Bool
  garbled : Option String
  error : String

/-- Nothing goes wrong. -/
def Fate.fair : Fate := ⟨none, none, none, false, none, ""⟩

namespace Exchange

/-- The connection of the client at the start. -/
def start (daemon : Daemon) : Exchange := ⟨⟨daemon, true⟩, [.new true], ⟨0, 0, true⟩, 0, []⟩

variable (x : Exchange)

/-- A step of the machine, of a connection or of another client. -/
def act (p : Platform) (x : Exchange) : Move → Except Unit Exchange
  | .machine wake host =>
      match x.service.wake p wake host with
      | .ok service => .ok { x with service }
      | .error e => .error e
  | .control n host =>
      match x.wires[n]? with
      | none => .error ()
      | some wire =>
          match wire.conn.handle p x.service host with
          | .ok (service, conn) => .ok { x with service, wires := x.wires.set n { wire with conn } }
          | .error e => .error e
  | .progress n progress =>
      match x.wires[n]? with
      | none => .error ()
      | some wire =>
          match wire.conn.step x.service progress with
          | .ok conn => .ok { x with wires := x.wires.set n { wire with conn } }
          | .error e => .error e
  | .accept => .ok { x with wires := x.wires ++ [.new false] }
  | .arrive n line =>
      match x.wires[n]? with
      | none => .error ()
      | some wire =>
          if wire.mine then .error ()
          else .ok { x with wires := x.wires.set n (wire.receive (line, none)) }
  | .close n =>
      match x.wires[n]? with
      | none => .error ()
      | some wire =>
          match wire.fragment with
          | none => .error ()
          | some line =>
              if n = x.socket.wire then .error ()
              else .ok { x with wires := x.wires.set n (wire.receive line) }
  | .restart host =>
      match Daemon.main p host x.service.daemon.files x.service.daemon.cfgPath
        x.service.daemon.privileges with
      | .error _ => .error ()
      | .ok daemon => .ok { x with
          service := ⟨daemon, true⟩
          wires := x.wires.map Wire.kill }

/-- Change the connection of the client. -/
def modify (f : Wire → Wire) : Exchange := { x with wires := x.wires.modify x.socket.wire f }

/-- There is nothing more to read on the connection. -/
def finish : Exchange := { x with socket.readable := false }

/-- The client takes a response from its socket. -/
def take : Exchange :=
  { x with
    socket.read := x.socket.read + 1
    receipts := x.receipts ++ [⟨x.call, x.socket.wire, x.socket.read⟩] }

/-- `write_all` of a request and its newline. -/
def writeAll (req : Request) (fate : Fate) : Except String Unit × Exchange :=
  match fate.fault, fate.landed with
  | none, _ => (.ok (), x.modify fun wire =>
      wire.receive (wire.joined fate.error (.request req), some x.call))
  | some error, none => (.error error, x)
  | some error, some whole => (.error error, x.modify fun wire =>
      let line := if whole then .request req else .malformed fate.error
      { wire with fragment := some (wire.joined fate.error line, some x.call) })

/-- What `serde_json` makes of a response. -/
def parse (fate : Fate) (response : Response) : Except String Response :=
  match fate.garbled with
  | some error => .error error
  | none => .ok response

/-- `read_line`, which tries again when it is interrupted; any other failure has ended the connection. A
response that is still being written has been cut short, or lacks nothing but its newline. -/
def readLine (fate : Fate) : Except String (Option (Except String Response)) × Exchange :=
  match fate.fault, x.socket.readable, x.wires[x.socket.wire]? with
  | some error, _, _ => (.error error, x.finish)
  | none, true, some wire =>
      match wire.conn.output[x.socket.read]? with
      | none => (.ok none, x.finish)
      | some (_, response) =>
          if x.socket.read < wire.conn.written.length then
            (.ok (some (parse fate response)), x.take)
          else if fate.cut then (.ok (some (parse fate response)), x.take.finish)
          else (.ok none, x.finish)
  | none, _, _ => (.ok none, x)

/-- What a call of the client is answered. Flushing a socket does nothing. -/
def exec (x : Exchange) (k : Client.Call) (fate : Fate) : Client.Answer k × Exchange :=
  match k with
  | .connect =>
      match fate.refusal with
      | some fault => (.error fault, x)
      | none => (.ok (), { x with
          wires := x.wires ++ [.new true]
          socket := ⟨x.wires.length, 0, true⟩ })
  | .serialize _ =>
      match fate.fault with
      | some error => (.error error, x)
      | none => (.ok (), x)
  | .writeAll req => x.writeAll req fate
  | .flush => (.ok (), x)
  | .readLine => x.readLine fate

/-- Whether the call can be answered so: a write to a connection that is closed fails, and a read waits
for a line or for the end. -/
def ready (k : Client.Call) (fate : Fate) : Bool :=
  match k, x.wires[x.socket.wire]? with
  | .writeAll _, some wire => fate.fault.isSome || !wire.conn.closed
  | .readLine, some wire =>
      fate.fault.isSome || !x.socket.readable || x.socket.read < wire.conn.written.length ||
        wire.conn.closed
  | _, _ => true

end Exchange

/-- A use of the client that has come to its end. -/
structure Finished where
  use : Client.Use
  call : ℕ
  result : Except Client.Chain Client.Content

/-- The client at the daemon: what is left of the method in use, and the uses that have come to an
end. -/
structure Dialogue where
  exchange : Exchange
  current : Option (Client.Use × Prog Client.Call Client.Answer (Except Client.Chain Client.Content))
  results : List Finished

inductive DialogueInput where
  | move (move : Exchange.Move)
  | use (use : Client.Use)
  | call (fate : Fate)

namespace Dialogue

def start (daemon : Daemon) : Dialogue := ⟨.start daemon, none, []⟩

/-- The client goes on with a method, or returns from it. -/
def goOn (s : Dialogue) (use : Client.Use) :
    Prog Client.Call Client.Answer (Except Client.Chain Client.Content) → Dialogue
  | .ret result =>
      { s with current := none, results := s.results ++ [⟨use, s.exchange.call, result⟩] }
  | .call k next => { s with current := some (use, .call k next) }

def step (p : Platform) (client : Client) (debug : Response → String) (s : Dialogue) :
    DialogueInput → Except Unit Dialogue
  | .move move =>
      match s.exchange.act p move with
      | .ok exchange => .ok { s with exchange }
      | .error e => .error e
  | .use use =>
      match s.current with
      | none => .ok (goOn { s with exchange.call := s.exchange.call + 1 } use (client.perform debug use))
      | some _ => .error ()
  | .call fate =>
      match s.current with
      | some (use, .call k next) =>
          if s.exchange.ready k fate then
            let (answer, exchange) := s.exchange.exec k fate
            .ok (goOn { s with exchange } use (next answer))
          else .error ()
      | _ => .error ()

end Dialogue

/-! ### The connections -/

/-- What happens to a connection in one step: of its task, of the machine, or of those who write on it. -/
inductive Wire.Goes : Option Wire → Option Wire → Prop
  | same (wire : Option Wire) : Goes wire wire
  | accepted (mine : Bool) : Goes none (some (.new mine))
  | moved {wire : Wire} {v : Service} {progress : Progress} {conn : Conn (Option ℕ)}
      (h : Conn.Moved v wire.conn progress conn) : Goes (some wire) (some { wire with conn })
  | handled {wire : Wire} {p : Platform} {host : Host} {v v' : Service} {conn : Conn (Option ℕ)}
      (h : Conn.Handled p host v wire.conn v' conn) : Goes (some wire) (some { wire with conn })
  | killed (wire : Wire) : Goes (some wire) (some wire.kill)
  | received (wire : Wire) (line : Line × Option ℕ) : Goes (some wire) (some (wire.receive line))
  | stranded (wire : Wire) (fragment : Option (Line × Option ℕ)) :
      Goes (some wire) (some { wire with fragment })

/-- The client does not subscribe on the connection, and nobody else does. -/
def Wire.Unsubscribed (wire : Wire) : Prop := Unsubscribing wire.arrived

namespace Wire

variable {wire wire' : Wire} {w w' : Option Wire}

/-- The connection keeps what has arrived and what has been written. -/
theorem Goes.grows (h : Goes w w') (hw : w = some wire) : ∃ wire', w' = some wire' ∧
    wire'.mine = wire.mine ∧ wire.arrived <+: wire'.arrived ∧
    wire.conn.output <+: wire'.conn.output := by
  cases h with
  | same _ => exact ⟨wire, hw, rfl, List.prefix_rfl, List.prefix_rfl⟩
  | accepted _ => cases hw
  | moved h =>
      cases hw
      exact ⟨_, rfl, rfl, List.prefix_rfl, h.output_grows⟩
  | handled h =>
      cases hw
      exact ⟨_, rfl, rfl, List.prefix_rfl, Conn.output_prefix_of_eq h.output⟩
  | killed _ =>
      cases hw
      exact ⟨_, rfl, rfl, List.prefix_rfl, List.prefix_rfl⟩
  | received _ line =>
      cases hw
      exact ⟨_, rfl, rfl, List.prefix_append _ _, List.prefix_rfl⟩
  | stranded _ _ =>
      cases hw
      exact ⟨_, rfl, rfl, List.prefix_rfl, List.prefix_rfl⟩

/-- A connection on which nobody subscribes stays in step with its lines. -/
theorem Goes.inStep (h : Goes w w')
    (hw : ∀ wire, w = some wire → wire.Unsubscribed → wire.conn.InStep wire.arrived)
    (hw' : w' = some wire') (hlines : wire'.Unsubscribed) : wire'.conn.InStep wire'.arrived := by
  cases h with
  | same _ => exact hw wire' hw' hlines
  | accepted _ =>
      cases hw'
      exact .new
  | moved h =>
      cases hw'
      exact (hw _ rfl hlines).moved hlines h
  | handled h =>
      cases hw'
      exact (hw _ rfl hlines).handled h
  | killed _ =>
      cases hw'
      exact (hw _ rfl hlines).kill
  | received wire line =>
      cases hw'
      have hbefore : wire.Unsubscribed := fun line' hmem =>
        hlines line' (List.mem_append_left _ hmem)
      exact (hw wire rfl hbefore).arrive [line]
  | stranded wire _ =>
      cases hw'
      exact hw wire rfl hlines

end Wire

/-! ### One step -/

namespace Exchange

variable {p : Platform} {x x' : Exchange} {move : Move}

/-- A change of one connection. -/
theorem goes_set {wires : List Wire} {n : ℕ} {wire wire' : Wire} (hwire : wires[n]? = some wire)
    (h : Wire.Goes (some wire) (some wire')) (m : ℕ) : Wire.Goes wires[m]? (wires.set n wire')[m]? := by
  by_cases hm : n = m
  · subst hm
    rw [hwire, List.getElem?_set_self (List.getElem?_eq_some_iff.mp hwire).1]
    exact h
  · rw [List.getElem?_set_ne hm]
    exact .same _

theorem goes_append (wires : List Wire) (mine : Bool) (m : ℕ) :
    Wire.Goes wires[m]? (wires ++ [.new mine])[m]? := by
  rcases Nat.lt_trichotomy m wires.length with hm | rfl | hm
  · rw [List.getElem?_append_left hm]
    exact .same _
  · rw [List.getElem?_concat_length, List.getElem?_eq_none (le_refl _)]
    exact .accepted mine
  · rw [List.getElem?_eq_none hm.le, List.getElem?_eq_none (by simp; omega)]
    exact .same _

/-- What goes on besides the client: every connection goes on, and nothing arrives on the client's. -/
structure Acted (x x' : Exchange) : Prop where
  socket : x'.socket = x.socket
  call : x'.call = x.call
  receipts : x'.receipts = x.receipts
  goes : ∀ n : ℕ, Wire.Goes x.wires[n]? x'.wires[n]?
  own : ∀ wire wire', x.wires[x.socket.wire]? = some wire → wire.mine = true →
    x'.wires[x.socket.wire]? = some wire' → wire'.arrived = wire.arrived

/-- A step at one connection on which nothing arrives. -/
theorem acted_set {n : ℕ} {wire wire' : Wire} {service : Service} (hwire : x.wires[n]? = some wire)
    (h : Wire.Goes (some wire) (some wire')) (harrived : wire'.arrived = wire.arrived) :
    Acted x { x with service, wires := x.wires.set n wire' } := by
  refine ⟨rfl, rfl, rfl, goes_set hwire h, fun own own' hown _ hown' => ?_⟩
  rcases getElem?_set_cases hown' with ⟨rfl, rfl⟩ | ⟨-, hown'⟩
  · cases hwire.symm.trans hown
    exact harrived
  · cases hown.symm.trans hown'
    rfl

/-- A line that arrives on a connection that is not the client's, or no longer. -/
theorem acted_receive {n : ℕ} {wire : Wire} (hwire : x.wires[n]? = some wire)
    (hother : n = x.socket.wire → wire.mine = false) (line : Line × Option ℕ) :
    Acted x { x with wires := x.wires.set n (wire.receive line) } := by
  refine ⟨rfl, rfl, rfl, goes_set hwire (.received wire line), fun own own' hown hmine hown' => ?_⟩
  rcases getElem?_set_cases hown' with ⟨hn, rfl⟩ | ⟨-, hown'⟩
  · rw [← hn] at hown
    cases hwire.symm.trans hown
    rw [hother hn] at hmine
    cases hmine
  · cases hown.symm.trans hown'
    rfl

theorem act_acted (h : x.act p move = .ok x') : Acted x x' := by
  cases move with
  | machine wake host =>
      simp only [act] at h
      split at h
      · cases h
        refine ⟨rfl, rfl, rfl, fun _ => .same _, fun wire wire' hwire _ hwire' => ?_⟩
        rw [hwire] at hwire'
        cases hwire'
        rfl
      · cases h
  | control n host =>
      simp only [act] at h
      split at h
      · cases h
      · rename_i wire hwire
        split at h
        · rename_i service conn hhandle
          cases h
          exact acted_set hwire (.handled (Conn.handle_cases hhandle)) rfl
        · cases h
  | progress n progress =>
      simp only [act] at h
      split at h
      · cases h
      · rename_i wire hwire
        split at h
        · rename_i conn hconn
          cases h
          exact acted_set hwire (.moved (Conn.step_cases hconn).2) rfl
        · cases h
  | accept =>
      cases h
      refine ⟨rfl, rfl, rfl, goes_append x.wires false, fun wire wire' hwire _ hwire' => ?_⟩
      change (x.wires ++ [Wire.new false])[x.socket.wire]? = some wire' at hwire'
      rw [List.getElem?_append_left (List.getElem?_eq_some_iff.mp hwire).1, hwire] at hwire'
      cases hwire'
      rfl
  | arrive n line =>
      simp only [act] at h
      split at h
      · cases h
      · rename_i wire hwire
        split_ifs at h with hmine
        cases h
        exact acted_receive hwire (fun _ => by simpa using hmine) _
  | close n =>
      simp only [act] at h
      split at h
      · cases h
      · rename_i wire hwire
        split at h
        · cases h
        · rename_i line hline
          split_ifs at h with hn
          cases h
          exact acted_receive hwire (fun hn' => absurd hn' hn) _
  | restart host =>
      simp only [act] at h
      split at h
      · cases h
      · cases h
        refine ⟨rfl, rfl, rfl, fun n => ?_, fun wire wire' hwire _ hwire' => ?_⟩
        · show Wire.Goes x.wires[n]? (x.wires.map Wire.kill)[n]?
          rw [List.getElem?_map]
          cases x.wires[n]? with
          | none => exact .same _
          | some wire => exact .killed wire
        · change (x.wires.map Wire.kill)[x.socket.wire]? = some wire' at hwire'
          rw [List.getElem?_map, hwire] at hwire'
          cases hwire'
          rfl

end Exchange

end AlertU
