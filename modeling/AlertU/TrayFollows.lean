import AlertU.ConnectionPush
import AlertU.MachineInvariant
import AlertU.TrayToggle

/-! How the tray keeps up with the guard: once nothing is under way on the connection of its session, it
shows the state of the guard and the devices, whatever the guard, the other clients and the earlier sessions
have been through. -/

open FilePath Channel Logs Runs

namespace AlertU

/-! ### A connection that resynchronises -/

namespace Conn

variable {γ : Type} {p : Platform} {host : Host} {v v' : Service} {c c' : Conn γ}
  {progress : Progress}

/-- What a connection sends to the machine, and has sent, are commands; it awaits the answer to one that
the machine has not taken up. -/
structure Commanding (c : Conn γ) (v : Service) : Prop where
  sending : ∀ e, c.phase = .sending e → e.1.control.isSome
  commands : ∀ e ∈ c.ctrl, e.1.control.isSome
  awaiting : ∀ e, c.phase = .asking e → e.1.expectsAnswer ∧ (v.running = true → e ∈ c.ctrl)

/-- A connection on which `Subscribe` and `ListDevices` have been sent: each of them has been taken up, or
waits in its line. -/
structure Serving (c : Conn γ) (v : Service) : Prop where
  upToDate : c.UpToDate v
  commanding : c.Commanding v
  subscribed : c.subscribed = true ∨ ∃ tag, (.request .subscribe, tag) ∈ c.lines
  listed : c.lastDevices.isSome ∨ ∃ tag, (.request .listDevices, tag) ∈ c.lines

theorem lastDevices_isSome {segment : List (Option (Request × γ) × Response)}
    (houtput : c'.output = c.output ++ segment) (h : c.lastDevices.isSome) : c'.lastDevices.isSome := by
  rw [lastDevices_append houtput]
  cases latest (fun line => line.2.devices?) segment with
  | none => exact h
  | some devices => rfl

theorem lastDevices_of_writing {origin : Option (Request × γ)} {devices : List InputDeviceInfo}
    (hline : c.phase.line = []) (hwritten : c'.written = c.written)
    (hphase : c'.phase = .writing origin (.devices devices)) : c'.lastDevices.isSome := by
  rw [lastDevices_append (output_writing hline hwritten hphase)]
  rfl

/-- A step of the connection writes at most a line. -/
theorem Moved.output_append (h : Moved v c progress c') : ∃ segment, c'.output = c.output ++ segment := by
  cases h with
  | written origin response hphase =>
      exact ⟨[], (output_written hphase rfl rfl).trans (List.append_nil _).symm⟩
  | hungUp _ | failed _ _ _ | blank _ _ _ _ => exact ⟨[], (List.append_nil _).symm⟩
  | malformed _ _ _ hphase _ | stated _ _ _ hphase _ _ | listed _ _ hphase _ _ | acked _ hphase _ _
  | unsent _ hphase _ | resumed _ _ hphase | dropped _ hphase _ | stateBorrowed hphase
  | devicesBorrowed hphase => exact ⟨_, output_writing (by rw [hphase]; rfl) rfl rfl⟩
  | started hphase | dispatched _ _ hphase _ _ | asked _ hphase _ _ | ended _ _ _ hphase
  | stateMarked hphase _ _ | devicesMarked hphase _ _ =>
      refine ⟨[], ?_⟩
      rw [List.append_nil]
      exact output_eq (by rw [hphase]; rfl) rfl rfl

theorem Moved.closed (h : Moved v c progress c') (hopen : c'.closed = false) : c.closed = false := by
  cases h with
  | hungUp hphase => cases hopen
  | failed origin response hphase => cases hopen
  | _ => exact hopen

theorem Handled.closed (h : Handled p host v c v' c') : c'.closed = c.closed := by
  cases h <;> rfl

theorem Handled.running (h : Handled p host v c v' c') : v'.running = true → v.running = true := by
  cases h with
  | handled e rest ctrl next hctrl hcontrol hrunning hstep => exact fun _ => hrunning
  | died e rest hctrl => exact fun hrunning => by cases hrunning

/-- The machine settles a connection that awaits it. -/
theorem settle_ne_asking (actions : List Action) (phase : ConnPhase γ) (e : Request × γ) :
    phase.settle actions ≠ .asking e := by
  cases phase with
  | asking e' =>
      rw [ConnPhase.settle]
      cases hsettled : actions.findSome? (Action.settles e') with
      | none =>
          intro h
          cases h
      | some settled =>
          obtain ⟨action, -, haction⟩ := List.exists_of_findSome?_eq_some hsettled
          intro h
          rcases settles_cases haction with ⟨response, rfl⟩ | ⟨entries, rfl⟩
          · cases h
          · cases h
  | _ =>
      intro h
      cases h

namespace Commanding

theorem moved (h : c.Commanding v) (hmoved : Moved v c progress c') : c'.Commanding v := by
  cases hmoved with
  | dispatched e rest hphase hlines hcontrol =>
      refine ⟨fun e' he' => ?_, h.commands, fun e' he' => by cases he'⟩
      cases he'
      exact hcontrol
  | asked e hphase hrunning hexpects =>
      refine ⟨fun e' he' => (by cases he'), ?_, fun e' he' => ?_⟩
      · exact List.forall_mem_append.mpr
          ⟨h.commands, List.forall_mem_singleton.mpr (h.sending e hphase)⟩
      · cases he'
        exact ⟨hexpects, fun _ => List.mem_append_right _ List.mem_cons_self⟩
  | acked e hphase hrunning hexpects =>
      refine ⟨fun e' he' => (by cases he'), ?_, fun e' he' => by cases he'⟩
      exact List.forall_mem_append.mpr ⟨h.commands, List.forall_mem_singleton.mpr (h.sending e hphase)⟩
  | dropped e hphase hrunning =>
      exact ⟨fun e' he' => (by cases he'), List.forall_mem_nil _, fun e' he' => by cases he'⟩
  | blank _ _ _ _ | hungUp _ | failed _ _ _ => exact ⟨h.sending, h.commands, h.awaiting⟩
  | _ => exact ⟨fun e' he' => (by cases he'), h.commands, fun e' he' => by cases he'⟩

/-- A command that is handled without an answer is not the one that is awaited. -/
theorem handled (h : c.Commanding v) (hhandled : Handled p host v c v' c') : c'.Commanding v' := by
  cases hhandled with
  | handled e rest ctrl next hctrl hcontrol hrunning hstep =>
      have hcommands : ∀ e' ∈ rest, e'.1.control.isSome := fun e' he' =>
        h.commands e' (hctrl ▸ List.mem_cons_of_mem _ he')
      by_cases hexpects : e.1.expectsAnswer
      · simp only [hexpects, if_true]
        refine ⟨fun e' he' => ?_, hcommands, fun e' he' => absurd he' (settle_ne_asking _ _ _)⟩
        rcases settle_cases (v.daemon.since next) c.phase with hsame | ⟨_, _, ⟨_, hsettled⟩ | ⟨_, hsettled⟩⟩
        · exact h.sending e' (hsame ▸ he')
        · cases hsettled.symm.trans he'
        · cases hsettled.symm.trans he'
      · simp only [hexpects]
        refine ⟨h.sending, hcommands, fun e' he' => ?_⟩
        obtain ⟨hexpects', hmem⟩ := h.awaiting e' he'
        refine ⟨hexpects', fun _ => ?_⟩
        have hmem := hmem hrunning
        rw [hctrl, List.mem_cons] at hmem
        rcases hmem with rfl | hmem
        · exact absurd hexpects' hexpects
        · exact hmem
  | died e rest hctrl =>
      exact ⟨h.sending, h.commands, fun e' he' => ⟨(h.awaiting e' he').1, fun hrun => by cases hrun⟩⟩

end Commanding

namespace Serving

theorem becomes (h : c.Serving v) (hstate : v.daemon.stateTx.Becomes v'.daemon.stateTx)
    (hdevices : v.daemon.devicesTx.Becomes v'.daemon.devicesTx)
    (hrunning : v'.running = true → v.running = true) : c.Serving v' :=
  ⟨h.upToDate.becomes hstate hdevices, ⟨h.commanding.sending, h.commanding.commands, fun e he =>
    (h.commanding.awaiting e he).imp_right fun hctrl hrun => hctrl (hrunning hrun)⟩,
    h.subscribed, h.listed⟩

/-- A connection that has been accepted. -/
theorem new (v : Service) {lines : List (Line × γ)} (hsubscribe : ∃ tag, (.request .subscribe, tag) ∈ lines)
    (hlist : ∃ tag, (.request .listDevices, tag) ∈ lines) : Serving { Conn.new with lines } v where
  upToDate := ⟨⟨Nat.zero_le _, fun _ _ h => by cases h⟩, ⟨Nat.zero_le _, fun _ _ h => by cases h⟩,
    fun h => (by cases h), fun _ => ⟨rfl, rfl⟩, trivial⟩
  commanding := ⟨fun _ h => (by cases h), List.forall_mem_nil _, fun _ h => by cases h⟩
  subscribed := .inr hsubscribe
  listed := .inr hlist

/-- Lines may arrive at any time. -/
theorem arrive (h : c.Serving v) (more : List (Line × γ)) :
    Serving { c with lines := c.lines ++ more } v := by
  refine ⟨⟨h.upToDate.state, h.upToDate.devices, h.upToDate.told, h.upToDate.fresh, h.upToDate.answer⟩,
    ⟨h.commanding.sending, h.commanding.commands, h.commanding.awaiting⟩, h.subscribed.imp_right ?_,
    h.listed.imp_right ?_⟩
  · rintro ⟨tag, hmem⟩
    exact ⟨tag, List.mem_append_left _ hmem⟩
  · rintro ⟨tag, hmem⟩
    exact ⟨tag, List.mem_append_left _ hmem⟩

/-- A line is taken up: unless it is the request itself, that one goes on waiting. -/
theorem mem_rest {line : Line × γ} {rest : List (Line × γ)} {req : Request}
    (hlines : c.lines = line :: rest) (hother : line.1 ≠ .request req)
    (h : ∃ tag, (.request req, tag) ∈ c.lines) : ∃ tag, (.request req, tag) ∈ rest := by
  obtain ⟨tag, hmem⟩ := h
  rw [hlines, List.mem_cons] at hmem
  rcases hmem with rfl | hmem
  · exact absurd rfl hother
  · exact ⟨tag, hmem⟩

theorem moved (h : c.Serving v) (hmoved : Moved v c progress c') : c'.Serving v := by
  obtain ⟨segment, houtput⟩ := hmoved.output_append
  have hupToDate := h.upToDate.moved hmoved
  have hcommanding := h.commanding.moved hmoved
  have hlisted : c.lastDevices.isSome → c'.lastDevices.isSome := lastDevices_isSome houtput
  cases hmoved with
  | blank tag rest hphase hlines =>
      have hother (req : Request) : Line.blank ≠ .request req := fun heq => by cases heq
      exact ⟨hupToDate, hcommanding, h.subscribed.imp_right (mem_rest hlines (hother _)),
        h.listed.imp hlisted (mem_rest hlines (hother _))⟩
  | malformed error tag rest hphase hlines =>
      have hother (req : Request) : Line.malformed error ≠ .request req := fun heq => by cases heq
      exact ⟨hupToDate, hcommanding, h.subscribed.imp_right (mem_rest hlines (hother _)),
        h.listed.imp hlisted (mem_rest hlines (hother _))⟩
  | stated e subscribed rest hphase hlines hrequest =>
      refine ⟨hupToDate, hcommanding, ?_, h.listed.imp hlisted (mem_rest hlines ?_)⟩
      · rcases hrequest with ⟨hget, hsame⟩ | ⟨_, htrue⟩
        · rw [hsame]
          exact h.subscribed.imp_right (mem_rest hlines fun heq =>
            (by cases hget.symm.trans (Line.request.inj heq)))
        · exact .inl htrue
      · intro heq
        rcases hrequest with ⟨hreq, _⟩ | ⟨hreq, _⟩ <;> cases hreq.symm.trans (Line.request.inj heq)
  | listed e rest hphase hlines hrequest =>
      refine ⟨hupToDate, hcommanding, h.subscribed.imp_right (mem_rest hlines fun heq => ?_), .inl ?_⟩
      · cases hrequest.symm.trans (Line.request.inj heq)
      · exact lastDevices_of_writing (c := c) (by rw [hphase]; rfl) rfl rfl
  | dispatched e rest hphase hlines hcontrol =>
      obtain ⟨req, tag⟩ := e
      refine ⟨hupToDate, hcommanding, h.subscribed.imp_right (mem_rest hlines ?_),
        h.listed.imp hlisted (mem_rest hlines ?_)⟩
      · rintro ⟨⟩
        cases hcontrol
      · rintro ⟨⟩
        cases hcontrol
  | _ => exact ⟨hupToDate, hcommanding, h.subscribed, h.listed.imp_left hlisted⟩

theorem handled (h : c.Serving v) (hhandled : Handled p host v c v' c') : c'.Serving v' := by
  have hupToDate := h.upToDate.handled hhandled
  have hcommanding := h.commanding.handled hhandled
  have houtput : c'.output = c.output ++ [] := hhandled.output.trans (List.append_nil _).symm
  cases hhandled <;>
    exact ⟨hupToDate, hcommanding, h.subscribed, h.listed.imp_left (lastDevices_isSome houtput)⟩

end Serving

end Conn

theorem Daemon.Consistent.main {p : Platform} {host : Host} {files : FileSystem} {cfgPath : PathBuf}
    {privileges : Privileges} {d : Daemon}
    (h : Daemon.main p host files cfgPath privileges = .ok d) : d.Consistent := by
  obtain ⟨cfg, -, -, rfl⟩ := main_ok_iff.mp h
  exact .start files cfg cfgPath privileges

/-! ### The tray and its connection -/

namespace Tray

variable (t : Tray)

/-- What a response does to what the tray shows. -/
theorem applyResponse_shows (response : Response) :
    (t.applyResponse response).1.state = response.state?.getD t.state ∧
      (t.applyResponse response).1.devices = response.devices?.getD t.devices ∧
      (t.applyResponse response).1.connected = t.connected := by
  cases response with
  | learned path name key =>
      simp only [applyResponse, finishPairing]
      cases t.cfg <;> exact ⟨rfl, rfl, rfl⟩
  | error message =>
      simp only [applyResponse, failPairing]
      split_ifs <;> exact ⟨rfl, rfl, rfl⟩
  | _ => exact ⟨rfl, rfl, rfl⟩

end Tray

/-- The lines that the tray has read. -/
def Link.seen (link : Link) : List (Option (Request × Origin) × Response) :=
  link.conn.written.take link.read

/-- The tray shows what it has been told last on a connection, and the daemon, as long as it serves that
connection, tells whatever changes. -/
structure Link.Follows (link : Link) (v : Service) (t : Tray) : Prop where
  connected : t.connected = true
  read : link.read ≤ link.conn.written.length
  state : ∀ state, latest (fun line => line.2.state?) link.seen = some state → t.state = state
  devices : ∀ devices, latest (fun line => line.2.devices?) link.seen = some devices →
    t.devices = devices
  serving : link.conn.closed = false → link.conn.Serving v

namespace Link.Follows

variable {link : Link} {v v' : Service} {t : Tray}

/-- The connection and the daemon go on. -/
theorem moved (h : link.Follows v t) {conn : Conn Origin} (hwritten : link.conn.written <+: conn.written)
    (hserving : conn.closed = false → conn.Serving v') : Follows { link with conn } v' t := by
  obtain ⟨more, hmore⟩ := hwritten
  have hseen : Link.seen { link with conn } = link.seen := by
    rw [Link.seen, Link.seen, ← hmore, List.take_append_of_le_length h.read]
  refine ⟨h.connected, ?_, ?_, ?_, hserving⟩
  · refine h.read.trans ?_
    rw [← hmore, List.length_append]
    exact Nat.le_add_right _ _
  · rw [hseen]
    exact h.state
  · rw [hseen]
    exact h.devices

theorem seen_read {origin : Option (Request × Origin)} {response : Response}
    (hline : link.conn.written[link.read]? = some (origin, response)) :
    Link.seen { link with read := link.read + 1 } = link.seen ++ [(origin, response)] := by
  rw [Link.seen, Link.seen, List.take_add_one, hline]
  rfl

/-- The tray reads the next line. -/
theorem readLine (h : link.Follows v t) {origin : Option (Request × Origin)} {response : Response}
    (hline : link.conn.written[link.read]? = some (origin, response)) :
    Follows { link with read := link.read + 1 } v (t.applyResponse response).1 := by
  obtain ⟨hstate, hdevices, hconnected⟩ := t.applyResponse_shows response
  refine ⟨hconnected.trans h.connected, (List.getElem?_eq_some_iff.mp hline).1, fun state hlast => ?_,
    fun devices hlast => ?_, h.serving⟩
  · rw [seen_read hline, latest_append, latest_singleton] at hlast
    rw [hstate]
    cases hresponse : response.state? with
    | none =>
        rw [hresponse, Option.none_or] at hlast
        exact h.state state hlast
    | some state' =>
        rw [hresponse, Option.some_or] at hlast
        exact Option.some.inj hlast
  · rw [seen_read hline, latest_append, latest_singleton] at hlast
    rw [hdevices]
    cases hresponse : response.devices? with
    | none =>
        rw [hresponse, Option.none_or] at hlast
        exact h.devices devices hlast
    | some devices' =>
        rw [hresponse, Option.some_or] at hlast
        exact Option.some.inj hlast

end Link.Follows

namespace FrontEnd

variable {p : Platform} {s s' : FrontEnd} {input : FrontEndInput} {link : Link}

/-- The tray follows the connection of its session, and the machine is consistent. -/
structure Following (s : FrontEnd) : Prop where
  follows : ∀ link, s.link = some link → link.Follows s.service s.tray
  consistent : s.service.daemon.Consistent

namespace Following

theorem wake_running {v v' : Service} {wake : Wake} {host : Host} (h : v.wake p wake host = .ok v') :
    v'.running = true → v.running = true := by
  unfold Service.wake at h
  split_ifs at h with hrunning
  exact fun _ => hrunning

theorem apply_frame (s : FrontEnd) (response : Response) :
    (s.apply response).link = s.link ∧ (s.apply response).service = s.service ∧
      (s.apply response).tray = (s.tray.applyResponse response).1 := by
  cases response with
  | learned path name key =>
      simp only [apply]
      cases s.tray.cfg <;> exact ⟨rfl, rfl, rfl⟩
  | _ => exact ⟨rfl, rfl, rfl⟩

theorem start {daemon : Daemon} (h : daemon.Consistent) : (FrontEnd.start daemon).Following :=
  ⟨fun link hlink => (by cases hlink), h⟩

/-- The link stays, and so does what the tray shows. -/
theorem keep (h : s.Following) (hlink : s'.link = s.link) (hservice : s'.service = s.service)
    (htray : s'.tray.state = s.tray.state ∧ s'.tray.devices = s.tray.devices ∧
      s'.tray.connected = s.tray.connected) : ∀ link, s'.link = some link → link.Follows s'.service s'.tray := by
  intro link hlink'
  have hfollows := h.follows link (hlink ▸ hlink')
  rw [hservice]
  exact ⟨htray.2.2.trans hfollows.connected, hfollows.read, fun state hlast =>
    htray.1.trans (hfollows.state state hlast), fun devices hlast =>
    htray.2.1.trans (hfollows.devices devices hlast), hfollows.serving⟩

/-- The connection of a peer goes on, and the machine with it. -/
theorem setPeer (h : s.Following) {peer : Peer} {conn conn' : Conn Origin} {service : Service}
    (hpeer : s.peer? peer = some conn) (hwritten : conn.written <+: conn'.written)
    (hserving : conn.Serving s.service → conn'.Serving service)
    (hclosed : conn'.closed = false → conn.closed = false)
    (hother : ∀ c : Conn Origin, c.Serving s.service → c.Serving service) (history : List Deed) :
    ∀ link, (FrontEnd.setPeer { s with service, history } conn' peer).link = some link →
      link.Follows service s.tray := by
  intro link hlink
  cases peer with
  | link =>
      obtain ⟨link₁, hlink₁, rfl⟩ := Option.map_eq_some_iff.mp hlink
      obtain ⟨link₂, hlink₂, rfl⟩ := Option.map_eq_some_iff.mp hpeer
      cases hlink₁.symm.trans hlink₂
      have hfollows := h.follows link₁ hlink₁
      exact hfollows.moved hwritten fun hopen => hserving (hfollows.serving (hclosed hopen))
  | orphan n =>
      have hfollows := h.follows link hlink
      exact hfollows.moved List.prefix_rfl fun hopen => hother _ (hfollows.serving hopen)

theorem follows_step (h : s.Following) (hwent : Went p s input s') :
    ∀ link, s'.link = some link → link.Follows s'.service s'.tray := by
  cases hwent with
  | machine wake host service hwake =>
      intro link hlink
      have hfollows := h.follows link hlink
      obtain ⟨hstate, hdevices⟩ := Served.wake_becomes hwake
      exact hfollows.moved List.prefix_rfl fun hopen =>
        (hfollows.serving hopen).becomes hstate hdevices (wake_running hwake)
  | handled peer host conn conn' service e rest hpeer hctrl hhandled =>
      obtain ⟨hstate, hdevices⟩ := hhandled.becomes
      have hfollows := h.setPeer hpeer (by rw [hhandled.written_eq]) (fun hserving => hserving.handled hhandled)
        (fun hopen => hhandled.closed ▸ hopen)
        (fun c hserving => hserving.becomes hstate hdevices hhandled.running)
        (s.history ++ deeds e s.service service)
      cases peer <;> exact hfollows
  | moved peer progress conn conn' hpeer hmoved =>
      have hfollows := h.setPeer hpeer hmoved.written_prefix (fun hserving => hserving.moved hmoved)
        hmoved.closed (fun c hserving => hserving) s.history
      cases peer <;> exact hfollows
  | restarted host daemon =>
      intro link hlink
      obtain ⟨link₁, hlink₁, rfl⟩ := Option.map_eq_some_iff.mp hlink
      exact (h.follows link₁ hlink₁).moved List.prefix_rfl fun hopen => (by cases hopen)
  | connected hlink =>
      intro link' hlink'
      cases hlink'
      exact ⟨rfl, Nat.zero_le _, fun _ hlast => (by cases hlast), fun _ hlast => (by cases hlast),
        fun _ => .new s.service ⟨s.origin, by simp⟩ ⟨s.origin, by simp⟩⟩
  | toggled => exact h.keep rfl rfl ⟨rfl, rfl, rfl⟩
  | paired => exact h.keep rfl rfl ⟨rfl, rfl, rfl⟩
  | wrote link e rest hlink hrequests =>
      intro link' hlink'
      cases hlink'
      have hfollows := h.follows link hlink
      exact hfollows.moved List.prefix_rfl fun hopen => (hfollows.serving hopen).arrive _
  | failed link e rest hlink hrequests =>
      intro link' hlink'
      cases hlink'
  | read link origin response hlink hline =>
      obtain ⟨hlink', hservice, htray⟩ := apply_frame (s.readLine link origin response) response
      intro link' hnext
      rw [hlink'] at hnext
      cases hnext
      rw [hservice, htray]
      exact (h.follows link hlink).readLine hline
  | lost link hlink =>
      intro link' hlink'
      cases hlink'
  | offline hlink =>
      intro link' hlink'
      cases hlink.symm.trans hlink'

theorem consistent_step (h : s.service.daemon.Consistent) (hstep : s.step p input = .ok s') :
    s'.service.daemon.Consistent := by
  by_cases hrestart : ∃ host, input = .restart host
  · obtain ⟨host, rfl⟩ := hrestart
    simp only [FrontEnd.step] at hstep
    split at hstep
    · rename_i daemon hmain
      cases hstep
      exact .main hmain
    · cases hstep
  cases step_cases hstep with
  | machine wake host service hwake =>
      unfold Service.wake at hwake
      split_ifs at hwake
      split at hwake
      · rename_i next hnext
        cases hwake
        exact h.step (Daemon.step_cases hnext)
      · cases hwake
        exact h
  | handled peer host conn conn' service e rest hpeer hctrl hhandled =>
      have hnext : service.daemon.Consistent := by
        cases hhandled with
        | handled e rest ctrl next hctrl hcontrol hrunning hnext => exact h.step (Daemon.step_cases hnext)
        | died e rest hctrl => exact h
      cases peer <;> exact hnext
  | moved peer progress conn conn' hpeer hmoved => cases peer <;> exact h
  | restarted host daemon => exact absurd ⟨host, rfl⟩ hrestart
  | read link origin response hlink hline =>
      rw [(apply_frame (s.readLine link origin response) response).2.1]
      exact h
  | _ => exact h

theorem step (h : s.Following) (hstep : s.step p input = .ok s') : s'.Following :=
  ⟨h.follows_step (step_cases hstep), consistent_step h.consistent hstep⟩

end Following

theorem following_of_run {host : Host} {files : FileSystem} {cfg : Config} {cfgPath : PathBuf}
    {privileges : Privileges} {inputs : List FrontEndInput}
    (hrun : Run (step p) (start (.start p host files cfg cfgPath privileges)) inputs s) : s.Following :=
  hrun.invariant (.start (.start files cfg cfgPath privileges)) fun _ _ _ h _ hstep => h.step hstep

/-- Nothing is under way on the connection of the session: the daemon has taken up every line and waits
with no change flagged, and the tray has read every line. -/
structure CaughtUp (s : FrontEnd) (link : Link) : Prop where
  live : s.link = some link
  opened : link.conn.closed = false
  selecting : link.conn.phase = .selecting
  taken : link.conn.lines = []
  stateSeen : s.service.daemon.stateTx.flagged link.conn.stateRx = false
  devicesSeen : s.service.daemon.devicesTx.flagged link.conn.devicesRx = false
  read : link.conn.written.length ≤ link.read

/-- The tray shows that it is connected, the state of the guard and the devices. -/
structure ShowsGuard (s : FrontEnd) : Prop where
  connected : s.tray.connected = true
  state : s.tray.state = s.service.daemon.state
  devices : s.tray.devices = s.service.daemon.devicesTx.value

theorem Following.showsGuard (h : s.Following) (hcaught : s.CaughtUp link) : s.ShowsGuard := by
  have hfollows := h.follows link hcaught.live
  have hserving := hfollows.serving hcaught.opened
  have hall : link.seen = link.conn.output := by
    rw [Link.seen, List.take_of_length_le hcaught.read, Conn.output, hcaught.selecting]
    exact (List.append_nil _).symm
  have hnone {req : Request} : ¬∃ tag, (Line.request req, tag) ∈ link.conn.lines := by
    rintro ⟨tag, hmem⟩
    rw [hcaught.taken] at hmem
    cases hmem
  refine ⟨hfollows.connected, ?_, ?_⟩
  · obtain ⟨state, hlast⟩ := Option.isSome_iff_exists.mp
      (hserving.upToDate.told (hserving.subscribed.resolve_right hnone))
    have hshown := hserving.upToDate.state
    rw [hcaught.selecting] at hshown
    rw [hfollows.state state (by rw [hall]; exact hlast), ← h.consistent.published]
    exact hshown.current hcaught.stateSeen state hlast
  · obtain ⟨devices, hlast⟩ := Option.isSome_iff_exists.mp (hserving.listed.resolve_right hnone)
    have hshown := hserving.upToDate.devices
    rw [hcaught.selecting] at hshown
    rw [hfollows.devices devices (by rw [hall]; exact hlast)]
    exact hshown.current hcaught.devicesSeen devices hlast

/-- Whatever has happened before: when nothing is under way on the connection of its session, the tray shows
the state of the guard and its devices. -/
theorem tray_shows_guard {host : Host} {files : FileSystem} {cfg : Config} {cfgPath : PathBuf}
    {privileges : Privileges} {inputs : List FrontEndInput}
    (hrun : Run (step p) (start (.start p host files cfg cfgPath privileges)) inputs s)
    (hcaught : s.CaughtUp link) : s.ShowsGuard :=
  (following_of_run hrun).showsGuard hcaught

/-- Another client arms the guard while the tray is connected. -/
def armedElsewhere : List FrontEndInput := synchronise ++ [.machine (.control .arm) (Bench.host "c1")]

/-- The change is pushed to the tray. -/
def pushed : List FrontEndInput :=
  [.progress .link .stateChanged, .progress .link .borrow, .progress .link (.write true), .read]

theorem tray_shows_guard_armed : ∃ s : FrontEnd, s.service.daemon.state = .armed ∧ s.ShowsGuard := by
  obtain ⟨s, hrun, harmed, link, hcaught⟩ : ∃ s, Run (step Bench.platform)
      (start (Bench.boot .default "c1")) (armedElsewhere ++ pushed) s ∧
      s.service.daemon.state = .armed ∧ ∃ link, s.CaughtUp link :=
    ⟨_, run_get (by decide +kernel), by decide +kernel, _, (Option.some_get (by decide +kernel)).symm,
      by decide +kernel, by decide +kernel, by decide +kernel, by decide +kernel, by decide +kernel,
      by decide +kernel⟩
  exact ⟨s, harmed, tray_shows_guard hrun hcaught⟩

end FrontEnd

end AlertU
