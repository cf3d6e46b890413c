import AlertU.ConnectionStep
import AlertU.Tray

/-! The tray and the daemon: the supervisor loop of the tray's `main` with one session after another,
the connections of the sessions, and the machine, which any number of other clients command as well.
A connection that the tray has given up goes on at the daemon until it notices. Each request is listed
with what the tray knew when it was queued. -/

open FilePath

namespace AlertU

/-- What the tray knew when it queued a request: the state it showed, the configuration it had fetched
last, and the number of presses it had learned. -/
structure Origin where
  shown : GuardState
  fetched : Option Config
  press : ℕ
  deriving DecidableEq, Repr

/-- The connection of the session, and how many of its lines the tray has read. -/
structure Link where
  conn : Conn Origin
  read : ℕ
  deriving DecidableEq, Repr

/-- The requests written to the connection whose answers the tray has not read. -/
def Link.unanswered (link : Link) : List (Request × Origin) :=
  (link.conn.written.drop link.read).filterMap (·.1) ++ link.conn.phase.request.toList ++
    link.conn.lines.filterMap fun line => line.1.request?.map (·, line.2)

/-- What happens to the tray's requests: a configuration is fetched, a press is turned into a
`SetConfig`, the machine handles a `Toggle` or accepts a `SetConfig` of the tray, the tray reads an
answer, or a request is lost. -/
inductive Deed where
  | fetched (cfg : Config)
  | pressed (cfg : Config)
  | toggled (shown before after : GuardState)
  | applied (origin : Origin) (force cfg : Config)
  | replied (e : Request × Origin) (response : Response)
  | lost (e : Request × Origin)
  deriving DecidableEq, Repr

structure FrontEnd where
  service : Service
  tray : Tray
  requests : List (Request × Origin)
  link : Option Link
  orphans : List (Conn Origin)
  fetched : Option Config
  presses : ℕ
  history : List Deed

/-- The connection that goes on: that of the session, or one that the tray has given up. -/
inductive Peer where
  | link
  | orphan (n : ℕ)
  deriving DecidableEq, Repr

inductive FrontEndInput where
  | machine (wake : Wake) (host : Host)
  | control (peer : Peer) (host : Host)
  | progress (peer : Peer) (progress : Progress)
  | restart (host : Host)
  | connect
  | toggle
  | pair
  | write (written : Bool)
  | read
  | lose
  | setOffline

/-- What the handling of a request of the tray by the machine amounts to. -/
def deeds (e : Request × Origin) (v next : Service) : List Deed :=
  match e.1 with
  | .toggle =>
      if next.running then [.toggled e.2.shown v.daemon.state next.daemon.state] else []
  | .setConfig cfg =>
      if .replySet .ok ∈ v.daemon.since next.daemon then [.applied e.2 v.daemon.cfg cfg] else []
  | _ => []

namespace FrontEnd

def start (daemon : Daemon) : FrontEnd := ⟨⟨daemon, true⟩, .new, [], none, [], none, 0, []⟩

variable (s : FrontEnd)

def origin : Origin := ⟨s.tray.state, s.fetched, s.presses⟩

/-- The tray has changed to `next.1` and queues `next.2`. -/
def queue (next : Tray × Option Request) : FrontEnd :=
  { s with tray := next.1, requests := s.requests ++ next.2.toList.map (·, s.origin) }

/-- The connection of a peer. -/
def peer? : Peer → Option (Conn Origin)
  | .link => s.link.map Link.conn
  | .orphan n => s.orphans[n]?

def setPeer (conn : Conn Origin) : Peer → FrontEnd
  | .link => { s with link := s.link.map fun link => { link with conn } }
  | .orphan n => { s with orphans := s.orphans.set n conn }

/-- The session ends. -/
def drop (link : Link) : FrontEnd :=
  { s with
    link := none
    orphans := s.orphans ++ [link.conn]
    history := s.history ++ link.unanswered.map Deed.lost }

/-- `run_session` from the connection to its loop: what was queued meanwhile is discarded, and the
state, the configuration and the device list are requested. -/
def connect : FrontEnd :=
  { s with
    tray.connected := true
    requests := []
    link := some ⟨{ Conn.new with lines :=
      [(.request .subscribe, s.origin), (.request .getConfig, s.origin),
        (.request .listDevices, s.origin)] }, 0⟩
    history := s.history ++ s.requests.map Deed.lost }

/-- The tray has read the next line of its connection. -/
def readLine (link : Link) (origin : Option (Request × Origin)) (response : Response) : FrontEnd :=
  { s with
    link := some { link with read := link.read + 1 }
    history := s.history ++ origin.toList.map fun e => Deed.replied e response }

/-- The tray applies a response that it has read. -/
def apply : Response → FrontEnd
  | .config cfg =>
      queue { s with fetched := some cfg, history := s.history ++ [.fetched cfg] }
        (s.tray.applyResponse (.config cfg))
  | .learned path name key =>
      match s.tray.cfg with
      | some cfg =>
          queue { s with
            presses := s.presses + 1
            history := s.history ++ [.pressed (cfg.applyLearnedRemote path name key)] }
            (s.tray.applyResponse (.learned path name key))
      | none => s.queue (s.tray.applyResponse (.learned path name key))
  | response => s.queue (s.tray.applyResponse response)

def step (p : Platform) (s : FrontEnd) : FrontEndInput → Except Unit FrontEnd
  | .machine wake host =>
      match s.service.wake p wake host with
      | .ok service => .ok { s with service }
      | .error e => .error e
  | .control peer host =>
      match s.peer? peer with
      | some conn =>
          match conn.ctrl, conn.handle p s.service host with
          | e :: _, .ok (service, conn) =>
              .ok (setPeer { s with
                service
                history := s.history ++ deeds e s.service service } conn peer)
          | _, _ => .error ()
      | none => .error ()
  | .progress peer progress =>
      match s.peer? peer with
      | some conn =>
          match conn.step s.service progress with
          | .ok conn => .ok (s.setPeer conn peer)
          | .error e => .error e
      | none => .error ()
  | .restart host =>
      match Daemon.main p host s.service.daemon.files s.service.daemon.cfgPath
        s.service.daemon.privileges with
      | .ok daemon =>
          .ok { s with
            service := ⟨daemon, true⟩
            link := s.link.map fun link => { link with conn := link.conn.kill }
            orphans := [] }
      | .error _ => .error ()
  | .connect => if s.link.isSome || s.tray.connected then .error () else .ok s.connect
  | .toggle =>
      if s.tray.toggleItem.enabled then .ok (s.queue (s.tray, some .toggle)) else .error ()
  | .pair => if s.tray.pairingItem.enabled then .ok (s.queue s.tray.startPairing) else .error ()
  | .write written =>
      match s.link, s.requests with
      | some link, e :: rest =>
          if written then
            .ok { s with
              requests := rest
              link := some { link with
                conn.lines := link.conn.lines ++ [(.request e.1, e.2)] } }
          else
            .ok (drop { s with requests := rest, history := s.history ++ [.lost e] } link)
      | _, _ => .error ()
  | .read =>
      match s.link with
      | some link =>
          match link.conn.written[link.read]? with
          | some (origin, response) =>
              .ok ((s.readLine link origin response).apply response)
          | none => .error ()
      | none => .error ()
  | .lose =>
      match s.link with
      | some link => .ok (s.drop link)
      | none => .error ()
  | .setOffline =>
      if s.link.isSome then .error () else .ok { s with tray.connected := false }

end FrontEnd

end AlertU
