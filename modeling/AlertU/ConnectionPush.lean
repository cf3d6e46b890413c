import AlertU.Bench
import AlertU.ConnectionStep
import AlertU.Logs
import AlertU.Runs

/-! What a subscribed connection tells its client about the state and the devices. A change that is
flagged is never lost: in its `select!`, a connection either has a change to push or has shown what is
published. But a push carries whatever is published when it is read, which need not differ from what
was shown before: the change may have been seen already, or have been taken back. -/

open FilePath Channel Runs Logs

namespace AlertU

namespace ConnPhase

variable {γ : Type}

/-- The state receiver is marked, and the state has not been read yet. -/
def marksState : ConnPhase γ → Bool
  | .stateMarked => true
  | _ => false

def marksDevices : ConnPhase γ → Bool
  | .devicesMarked => true
  | _ => false

/-- An answer that waits to be written tells neither the state nor the devices. -/
def Silent : ConnPhase γ → Prop
  | .answered _ response => response.state? = none ∧ response.devices? = none
  | _ => True

end ConnPhase

namespace Conn

variable {γ : Type} {p : Platform} {host : Host} {v v' : Service} {c c' : Conn γ}
  {progress : Progress}

/-- The last state that the client has been told. -/
def lastState (c : Conn γ) : Option GuardState := latest (fun line => line.2.state?) c.output

/-- The last device list that the client has been told. -/
def lastDevices (c : Conn γ) : Option (List InputDeviceInfo) :=
  latest (fun line => line.2.devices?) c.output

/-- What the client has been told last is what is published, unless a change is flagged or about to be
read. -/
structure UpToDate (c : Conn γ) (v : Service) : Prop where
  state : v.daemon.stateTx.Shown c.stateRx (if c.phase.marksState then none else c.lastState)
  devices : v.daemon.devicesTx.Shown c.devicesRx (if c.phase.marksDevices then none else c.lastDevices)
  told : c.subscribed = true → c.lastState.isSome
  fresh : c.phase = .starting → c.written = [] ∧ c.subscribed = false
  answer : c.phase.Silent

theorem lastState_append {segment : List (Option (Request × γ) × Response)}
    (houtput : c'.output = c.output ++ segment) :
    c'.lastState = (latest (fun line => line.2.state?) segment).or c.lastState := by
  rw [lastState, houtput, latest_append]
  rfl

theorem lastDevices_append {segment : List (Option (Request × γ) × Response)}
    (houtput : c'.output = c.output ++ segment) :
    c'.lastDevices = (latest (fun line => line.2.devices?) segment).or c.lastDevices := by
  rw [lastDevices, houtput, latest_append]
  rfl

namespace UpToDate

/-- The machine goes on. -/
theorem becomes (h : c.UpToDate v) (hstate : v.daemon.stateTx.Becomes v'.daemon.stateTx)
    (hdevices : v.daemon.devicesTx.Becomes v'.daemon.devicesTx) : c.UpToDate v' :=
  ⟨h.state.becomes hstate, h.devices.becomes hdevices, h.told, h.fresh, h.answer⟩

theorem output_still (hline : c.phase.line = []) (hwritten : c'.written = c.written)
    (hline' : c'.phase.line = []) : c'.output = c.output ++ [] := by
  rw [output_eq hline hwritten hline', List.append_nil]

/-- A step that tells neither the state nor the devices. -/
theorem append (h : c.UpToDate v) (segment : List (Option (Request × γ) × Response))
    (houtput : c'.output = c.output ++ segment)
    (hsilent : ∀ line ∈ segment, line.2.state? = none ∧ line.2.devices? = none)
    (hreceivers : c'.stateRx = c.stateRx ∧ c'.devicesRx = c.devicesRx)
    (hsubscribed : c'.subscribed = c.subscribed)
    (hmarks : c'.phase.marksState = c.phase.marksState ∧
      c'.phase.marksDevices = c.phase.marksDevices)
    (hfresh : c'.phase = .starting → c'.written = [] ∧ c'.subscribed = false)
    (hanswer : c'.phase.Silent) : c'.UpToDate v := by
  have hstate : c'.lastState = c.lastState := by
    rw [lastState_append houtput, latest_eq_none fun line hline => (hsilent line hline).1,
      Option.none_or]
  have hdevices : c'.lastDevices = c.lastDevices := by
    rw [lastDevices_append houtput, latest_eq_none fun line hline => (hsilent line hline).2,
      Option.none_or]
  refine ⟨?_, ?_, ?_, hfresh, hanswer⟩
  · rw [hreceivers.1, hmarks.1, hstate]
    exact h.state
  · rw [hreceivers.2, hmarks.2, hdevices]
    exact h.devices
  · rw [hsubscribed, hstate]
    exact h.told

/-- A step that does nothing but answer a request, or take one up. -/
theorem answer_request (h : c.UpToDate v) {phase : ConnPhase γ} (lines : List (Line × γ))
    (ctrl : List (Request × γ)) (hline : c.phase.line = [])
    (hquiet : c.phase.marksState = false ∧ c.phase.marksDevices = false)
    (hphase : (∃ e, phase = .sending e) ∨ (∃ e, phase = .asking e) ∨
      ∃ origin response, phase = .writing origin response ∧ response.state? = none ∧
        response.devices? = none) :
    UpToDate { c with lines, ctrl, phase } v := by
  rcases hphase with ⟨e, rfl⟩ | ⟨e, rfl⟩ | ⟨origin, response, rfl, hsilent⟩
  · refine h.append [] (output_still hline rfl rfl) (List.forall_mem_nil _) ⟨rfl, rfl⟩ rfl
      ⟨hquiet.1.symm, hquiet.2.symm⟩ (fun hstarting => ?_) trivial
    cases hstarting
  · refine h.append [] (output_still hline rfl rfl) (List.forall_mem_nil _) ⟨rfl, rfl⟩ rfl
      ⟨hquiet.1.symm, hquiet.2.symm⟩ (fun hstarting => ?_) trivial
    cases hstarting
  · refine h.append [(origin, response)] (output_writing hline rfl rfl) (by simpa using hsilent)
      ⟨rfl, rfl⟩ rfl ⟨hquiet.1.symm, hquiet.2.symm⟩ (fun hstarting => ?_) trivial
    cases hstarting

/-- The state that is published is read and written. -/
theorem tell_state (h : c.UpToDate v) {origin : Option (Request × γ)} {response : Response}
    (hresponse : response.state? = some v.daemon.stateTx.value ∧ response.devices? = none)
    (hline : c.phase.line = []) (hmarks : c.phase.marksDevices = false)
    (hwritten : c'.written = c.written) (hphase : c'.phase = .writing origin response)
    (hreceivers : c'.stateRx = c.stateRx ∧ c'.devicesRx = c.devicesRx) : c'.UpToDate v := by
  have houtput := output_writing hline hwritten hphase
  have hstate : c'.lastState = some v.daemon.stateTx.value := by
    rw [lastState_append houtput, latest_singleton, hresponse.1, Option.some_or]
  have hdevices : c'.lastDevices = c.lastDevices := by
    rw [lastDevices_append houtput, latest_singleton, hresponse.2, Option.none_or]
  refine ⟨?_, ?_, ?_, ?_, ?_⟩
  · rw [hstate, hreceivers.1, hphase]
    exact h.state.read
  · have := h.devices
    rw [hmarks] at this
    rw [hdevices, hreceivers.2, hphase]
    exact this
  · rw [hstate]
    exact fun _ => rfl
  · rw [hphase]
    intro hstarting
    cases hstarting
  · rw [hphase]
    trivial

/-- The device list that is published is read and written. -/
theorem tell_devices (h : c.UpToDate v) {origin : Option (Request × γ)} {response : Response}
    (hresponse : response.state? = none ∧ response.devices? = some v.daemon.devicesTx.value)
    (hline : c.phase.line = []) (hmarks : c.phase.marksState = false)
    (hwritten : c'.written = c.written) (hphase : c'.phase = .writing origin response)
    (hreceivers : c'.stateRx = c.stateRx ∧ c'.devicesRx = c.devicesRx)
    (hsubscribed : c'.subscribed = c.subscribed) : c'.UpToDate v := by
  have houtput := output_writing hline hwritten hphase
  have hstate : c'.lastState = c.lastState := by
    rw [lastState_append houtput, latest_singleton, hresponse.1, Option.none_or]
  have hdevices : c'.lastDevices = some v.daemon.devicesTx.value := by
    rw [lastDevices_append houtput, latest_singleton, hresponse.2, Option.some_or]
  refine ⟨?_, ?_, ?_, ?_, ?_⟩
  · have := h.state
    rw [hmarks] at this
    rw [hstate, hreceivers.1, hphase]
    exact this
  · rw [hdevices, hreceivers.2, hphase]
    exact h.devices.read
  · rw [hsubscribed, hstate]
    exact h.told
  · rw [hphase]
    intro hstarting
    cases hstarting
  · rw [hphase]
    trivial

/-- `handle_conn` starts with fresh receivers, and the client has been told nothing. -/
theorem started (h : c.UpToDate v) (hphase : c.phase = .starting) :
    UpToDate { c with
      stateRx := v.daemon.stateTx.version
      devicesRx := v.daemon.devicesTx.version
      phase := .selecting } v := by
  obtain ⟨hwritten, hsubscribed⟩ := h.fresh hphase
  refine ⟨?_, ?_, fun hsub => ?_, fun hstarting => ?_, trivial⟩
  · have hstate : lastState { c with
        stateRx := v.daemon.stateTx.version
        devicesRx := v.daemon.devicesTx.version
        phase := .selecting } = none := by
      simp [lastState, output, hwritten, ConnPhase.line]
    rw [hstate, ite_self]
    exact Watch.shown_none _
  · have hdevices : lastDevices { c with
        stateRx := v.daemon.stateTx.version
        devicesRx := v.daemon.devicesTx.version
        phase := .selecting } = none := by
      simp [lastDevices, output, hwritten, ConnPhase.line]
    rw [hdevices, ite_self]
    exact Watch.shown_none _
  · rw [hsubscribed] at hsub
    cases hsub
  · cases hstarting

/-- The change of the state is taken up, and the state is read next. -/
theorem mark_state (h : c.UpToDate v) (hphase : c.phase = .selecting) :
    UpToDate { c with stateRx := v.daemon.stateTx.version, phase := .stateMarked } v := by
  have hdevices := h.devices
  rw [hphase] at hdevices
  have houtput : output { c with
      stateRx := v.daemon.stateTx.version, phase := .stateMarked } = c.output ++ [] :=
    output_still (by rw [hphase]; rfl) rfl rfl
  refine ⟨Watch.shown_none _, ?_, ?_, fun hstarting => ?_, trivial⟩
  · rw [lastDevices_append houtput]
    exact hdevices
  · rw [lastState_append houtput]
    exact h.told
  · cases hstarting

/-- The change of the devices is taken up, and they are read next. -/
theorem mark_devices (h : c.UpToDate v) (hphase : c.phase = .selecting) :
    UpToDate { c with devicesRx := v.daemon.devicesTx.version, phase := .devicesMarked } v := by
  have hstate := h.state
  rw [hphase] at hstate
  have houtput : output { c with
      devicesRx := v.daemon.devicesTx.version, phase := .devicesMarked } = c.output ++ [] :=
    output_still (by rw [hphase]; rfl) rfl rfl
  refine ⟨?_, Watch.shown_none _, ?_, fun hstarting => ?_, trivial⟩
  · rw [lastState_append houtput]
    exact hstate
  · rw [lastState_append houtput]
    exact h.told
  · cases hstarting

theorem moved (h : c.UpToDate v) (hmoved : Moved v c progress c') : c'.UpToDate v := by
  cases hmoved with
  | started hphase => exact h.started hphase
  | blank tag rest hphase hlines =>
      exact ⟨h.state, h.devices, h.told, h.fresh, h.answer⟩
  | malformed error tag rest hphase hlines =>
      exact h.answer_request rest c.ctrl (by rw [hphase]; rfl) (by rw [hphase]; exact ⟨rfl, rfl⟩)
        (.inr (.inr ⟨_, _, rfl, rfl, rfl⟩))
  | stated e subscribed rest hphase hlines hrequest =>
      exact h.tell_state ⟨rfl, rfl⟩ (by rw [hphase]; rfl) (by rw [hphase]; rfl) rfl rfl ⟨rfl, rfl⟩
  | listed e rest hphase hlines hrequest =>
      exact h.tell_devices ⟨rfl, rfl⟩ (by rw [hphase]; rfl) (by rw [hphase]; rfl) rfl rfl ⟨rfl, rfl⟩ rfl
  | dispatched e rest hphase hlines hcontrol =>
      exact h.answer_request rest c.ctrl (by rw [hphase]; rfl) (by rw [hphase]; exact ⟨rfl, rfl⟩)
        (.inl ⟨_, rfl⟩)
  | hungUp hphase => exact ⟨h.state, h.devices, h.told, h.fresh, h.answer⟩
  | asked e hphase hrunning hexpects =>
      exact h.answer_request c.lines _ (by rw [hphase]; rfl) (by rw [hphase]; exact ⟨rfl, rfl⟩)
        (.inr (.inl ⟨_, rfl⟩))
  | acked e hphase hrunning hexpects =>
      exact h.answer_request c.lines _ (by rw [hphase]; rfl) (by rw [hphase]; exact ⟨rfl, rfl⟩)
        (.inr (.inr ⟨_, _, rfl, rfl, rfl⟩))
  | unsent e hphase hrunning =>
      exact h.answer_request c.lines c.ctrl (by rw [hphase]; rfl)
        (by rw [hphase]; exact ⟨rfl, rfl⟩) (.inr (.inr ⟨_, _, rfl, rfl, rfl⟩))
  | ended e entries outcome hphase =>
      refine h.append [] (output_still (by rw [hphase]; rfl) rfl rfl) (List.forall_mem_nil _)
        ⟨rfl, rfl⟩ rfl (by rw [hphase]; exact ⟨rfl, rfl⟩) (fun hstarting => ?_)
        (Learn.answer_silent entries outcome)
      cases hstarting
  | resumed e response hphase =>
      have hsilent := h.answer
      rw [hphase] at hsilent
      exact h.answer_request c.lines c.ctrl (by rw [hphase]; rfl)
        (by rw [hphase]; exact ⟨rfl, rfl⟩) (.inr (.inr ⟨_, _, rfl, hsilent⟩))
  | dropped e hphase hrunning =>
      exact h.answer_request c.lines [] (by rw [hphase]; rfl) (by rw [hphase]; exact ⟨rfl, rfl⟩)
        (.inr (.inr ⟨_, _, rfl, rfl, rfl⟩))
  | stateMarked hphase hsubscribed hflagged => exact h.mark_state hphase
  | devicesMarked hphase hsubscribed hflagged => exact h.mark_devices hphase
  | stateBorrowed hphase =>
      exact h.tell_state ⟨rfl, rfl⟩ (by rw [hphase]; rfl) (by rw [hphase]; rfl) rfl rfl ⟨rfl, rfl⟩
  | devicesBorrowed hphase =>
      exact h.tell_devices ⟨rfl, rfl⟩ (by rw [hphase]; rfl) (by rw [hphase]; rfl) rfl rfl ⟨rfl, rfl⟩ rfl
  | written origin response hphase =>
      refine h.append [] ((output_written hphase rfl rfl).trans (List.append_nil _).symm)
        (List.forall_mem_nil _) ⟨rfl, rfl⟩ rfl (by rw [hphase]; exact ⟨rfl, rfl⟩)
        (fun hstarting => ?_) trivial
      cases hstarting
  | failed origin response hphase => exact ⟨h.state, h.devices, h.told, h.fresh, h.answer⟩

/-- An answer of the machine tells neither the state nor the devices. -/
theorem settle_silent (actions : List Action) {phase : ConnPhase γ} (h : phase.Silent) :
    (phase.settle actions).Silent := by
  cases phase with
  | asking e =>
      rw [ConnPhase.settle]
      cases hfound : actions.findSome? (Action.settles e) with
      | none => exact ⟨rfl, rfl⟩
      | some settled =>
          obtain ⟨action, -, haction⟩ := List.exists_of_findSome?_eq_some hfound
          unfold Action.settles at haction
          split at haction <;> cases haction
          · exact ⟨rfl, rfl⟩
          · exact ⟨rfl, rfl⟩
          · exact ⟨rfl, rfl⟩
          · exact ⟨rfl, rfl⟩
          · trivial
  | _ => exact h

theorem settle (h : c.UpToDate v) (ctrl : List (Request × γ)) (actions : List Action) :
    UpToDate { c with ctrl, phase := c.phase.settle actions } v := by
  refine h.append [] ?_ (List.forall_mem_nil _) ⟨rfl, rfl⟩ rfl ?_ ?_ (settle_silent actions h.answer)
  · simp [output]
  · rcases settle_cases actions c.phase with hsame | ⟨e, hphase, ⟨response, hsettled⟩ |
      ⟨entries, hsettled⟩⟩
    · simp only [hsame, and_self]
    · rw [hsettled, hphase]
      exact ⟨rfl, rfl⟩
    · rw [hsettled, hphase]
      exact ⟨rfl, rfl⟩
  · intro hstarting
    rcases settle_cases actions c.phase with hsame | ⟨e, -, ⟨response, hsettled⟩ |
      ⟨entries, hsettled⟩⟩
    · exact h.fresh (hsame ▸ hstarting)
    · cases hsettled.symm.trans hstarting
    · cases hsettled.symm.trans hstarting

theorem handled (h : c.UpToDate v) (hhandled : Handled p host v c v' c') : c'.UpToDate v' := by
  cases hhandled with
  | handled e rest ctrl next hctrl hcontrol hrunning hstep =>
      obtain ⟨hstate, hdevices⟩ := (Daemon.step_cases hstep).becomes
      have hnext : c.UpToDate { v with daemon := next } := h.becomes hstate hdevices
      split_ifs
      · exact hnext.settle rest _
      · exact ⟨hnext.state, hnext.devices, hnext.told, hnext.fresh, hnext.answer⟩
  | died e rest hctrl => exact ⟨h.state, h.devices, h.told, h.fresh, h.answer⟩

end UpToDate

/-- The machine does not wake a connection. -/
theorem Handled.marks (h : Handled p host v c v' c') :
    c'.subscribed = c.subscribed ∧ c'.phase.marksState = c.phase.marksState := by
  cases h with
  | handled e rest ctrl next hctrl hcontrol hrunning hstep =>
      refine ⟨rfl, ?_⟩
      simp only
      split_ifs
      · rcases settle_cases (v.daemon.since next) c.phase with hsame | ⟨e, hphase, ⟨response, hsettled⟩ |
          ⟨entries, hsettled⟩⟩
        · rw [hsame]
        · rw [hsettled, hphase]
          rfl
        · rw [hsettled, hphase]
          rfl
      · rfl
  | died e rest hctrl => exact ⟨rfl, rfl⟩

end Conn

/-- What bears on the pushes, in its order: a state that is published, and four things that the connection
does. It marks its receiver when it starts and when it is woken, and it reads the state for a subscriber
when it answers `Subscribe` and when it pushes. -/
inductive Mark where
  | entered (state : GuardState)
  | started
  | snapshot
  | woken
  | borrowed
  deriving DecidableEq, Repr

/-- The daemon with one connection; the commands of every other client are messages of the machine. -/
structure Served where
  service : Service
  conn : Conn Unit
  trail : List Mark

inductive ServedInput where
  | machine (wake : Wake) (host : Host)
  | control (host : Host)
  | arrive (line : Line)
  | progress (progress : Progress)

namespace Served

def start (daemon : Daemon) : Served := ⟨⟨daemon, true⟩, .new, []⟩

/-- The state that the machine has published on the way to `next`. -/
def published (v next : Service) : List Mark :=
  if next.daemon.stateTx.version = v.daemon.stateTx.version then []
  else [.entered next.daemon.stateTx.value]

/-- What a step of the connection does about the state. -/
def marks (c : Conn Unit) (progress : Progress) : List Mark :=
  match progress, c.phase with
  | .start, .starting => [.started]
  | .stateChanged, .selecting => [.woken]
  | .borrow, .stateMarked => [.borrowed]
  | .line, .selecting =>
      match c.lines with
      | (.request .subscribe, _) :: _ => [.snapshot]
      | _ => []
  | _, _ => []

def step (p : Platform) (s : Served) : ServedInput → Except Unit Served
  | .machine wake host =>
      match s.service.wake p wake host with
      | .ok service =>
          .ok { s with service, trail := s.trail ++ published s.service service }
      | .error e => .error e
  | .control host =>
      match s.conn.handle p s.service host with
      | .ok (service, conn) =>
          .ok { s with service, conn, trail := s.trail ++ published s.service service }
      | .error e => .error e
  | .arrive line => .ok { s with conn.lines := s.conn.lines ++ [(line, ())] }
  | .progress progress =>
      match s.conn.step s.service progress with
      | .ok conn => .ok { s with conn, trail := s.trail ++ marks s.conn progress }
      | .error e => .error e

variable {p : Platform} {s s' : Served}

theorem wake_becomes {v v' : Service} {wake : Wake} {host : Host}
    (h : v.wake p wake host = .ok v') :
    v.daemon.stateTx.Becomes v'.daemon.stateTx ∧
      v.daemon.devicesTx.Becomes v'.daemon.devicesTx := by
  unfold Service.wake at h
  split_ifs at h
  split at h
  · rename_i next hnext
    cases h
    exact (Daemon.step_cases hnext).becomes
  · cases h
    exact ⟨Watch.becomes_self _, Watch.becomes_self _⟩

/-! ### No change is lost -/

theorem upToDate_start (daemon : Daemon) : (start daemon).conn.UpToDate (start daemon).service :=
  ⟨⟨Nat.zero_le _, fun _ _ => nofun⟩, ⟨Nat.zero_le _, fun _ _ => nofun⟩, nofun,
    fun _ => ⟨rfl, rfl⟩, trivial⟩

theorem upToDate_step (h : s.conn.UpToDate s.service) {input : ServedInput}
    (hstep : s.step p input = .ok s') : s'.conn.UpToDate s'.service := by
  cases input with
  | machine wake host =>
      simp only [Served.step] at hstep
      split at hstep
      · rename_i service hwake
        cases hstep
        obtain ⟨hstate, hdevices⟩ := wake_becomes hwake
        exact h.becomes hstate hdevices
      · cases hstep
  | control host =>
      simp only [Served.step] at hstep
      split at hstep
      · rename_i service conn hhandle
        cases hstep
        exact h.handled (Conn.handle_cases hhandle)
      · cases hstep
  | arrive line =>
      cases hstep
      exact ⟨h.state, h.devices, h.told, h.fresh, h.answer⟩
  | progress progress =>
      simp only [Served.step] at hstep
      split at hstep
      · rename_i conn hconn
        cases hstep
        exact h.moved (Conn.step_cases hconn).2
      · cases hstep

/-- A subscribed connection that waits in its `select!` with no change flagged has told its client the
state that is published, and, if it has told it any, the device list that is published. -/
theorem subscriber_is_up_to_date {host : Host} {files : FileSystem} {cfg : Config}
    {cfgPath : PathBuf} {privileges : Privileges} {inputs : List ServedInput}
    (hrun : Run (step p) (start (.start p host files cfg cfgPath privileges)) inputs s)
    (hselecting : s.conn.phase = .selecting) (hsubscribed : s.conn.subscribed = true) :
    (s.service.daemon.stateTx.flagged s.conn.stateRx = false →
      s.conn.lastState = some s.service.daemon.stateTx.value) ∧
    (s.service.daemon.devicesTx.flagged s.conn.devicesRx = false →
      ∀ devices, s.conn.lastDevices = some devices → devices = s.service.daemon.devicesTx.value) := by
  have h : s.conn.UpToDate s.service :=
    hrun.invariant (upToDate_start _) fun _ _ _ h _ hnext => upToDate_step h hnext
  have hstate := h.state
  have hdevices := h.devices
  rw [hselecting] at hstate hdevices
  refine ⟨fun hquiet => ?_, hdevices.current⟩
  obtain ⟨state, hlast⟩ := Option.isSome_iff_exists.mp (h.told hsubscribed)
  rw [hlast, hstate.current hquiet state hlast]

/-- A request that is answered at once. -/
def exchange (req : Request) : List ServedInput :=
  [.arrive (.request req), .progress .line, .progress (.write true)]

/-- A push of the state. -/
def push : List ServedInput :=
  [.progress .stateChanged, .progress .borrow, .progress (.write true)]

/-- A client subscribes, and is told that the guard has been armed. -/
def armedUnderSubscription : List ServedInput :=
  .progress .start :: exchange .subscribe ++ .machine (.control .arm) (Bench.host "c1") :: push

theorem subscriber_is_up_to_date_after_arming :
    ∃ s : Served, s.conn.lastState = some .armed ∧ s.service.daemon.stateTx.value = .armed := by
  obtain ⟨s, hrun, hselecting, hsubscribed, hquiet, hvalue⟩ : ∃ s, Run (step Bench.platform)
      (start (Bench.boot .default "c1")) armedUnderSubscription s ∧ s.conn.phase = .selecting ∧
      s.conn.subscribed = true ∧ s.service.daemon.stateTx.flagged s.conn.stateRx = false ∧
      s.service.daemon.stateTx.value = .armed :=
    ⟨_, run_get (by decide +kernel), by decide +kernel⟩
  have hlast := (subscriber_is_up_to_date hrun hselecting hsubscribed).1 hquiet
  rw [hvalue] at hlast
  exact ⟨s, hlast, hvalue⟩

/-! ### What a push repeats -/

/-- The state that the `Subscribe` reply carries. -/
def snapshot? : Option (Request × Unit) × Response → Option GuardState
  | (some (.subscribe, _), .state s) => some s
  | _ => none

/-- The state that the client was shown by the last `StateChanged` line, or by the `Subscribe` reply if
there is none. -/
def basis (lines : List (Option (Request × Unit) × Response)) : Option GuardState :=
  (latest (fun line => line.2.pushed?) lines).or (latest snapshot? lines)

/-- A `StateChanged` line carries another state than the client was shown before. -/
def Changes (before : List (Option (Request × Unit) × Response))
    (line : Option (Request × Unit) × Response)
    (_after : List (Option (Request × Unit) × Response)) : Prop :=
  ∀ state, line.2 = .stateChanged state → basis before ≠ some state

/-- How the published state has moved: what it is, what it was when the receiver was marked last and the
time before, whether there has been a transition since it was marked last, and whether any state has been
pushed. -/
structure Course where
  now : GuardState
  marked : GuardState
  previous : GuardState
  moved : Bool
  pushes : Bool
  deriving DecidableEq, Repr

def Course.pass (course : Course) : Mark → Course
  | .entered state => { course with now := state, moved := true }
  | .started | .woken =>
      { course with marked := course.now, previous := course.marked, moved := false }
  | .snapshot => course
  | .borrowed => { course with pushes := true }

def course (trail : List Mark) : Course := trail.foldl Course.pass ⟨.idle, .idle, .idle, false, false⟩

/-- There is no transition between the start of the connection and a `Subscribe` that is answered before
the first push, and none between a wake-up and the reading of the state for its push. -/
def Undisturbed (before : List Mark) (mark : Mark) (_after : List Mark) : Prop :=
  (mark = .snapshot → (course before).pushes = true ∨ (course before).moved = false) ∧
  (mark = .borrowed → (course before).moved = false)

/-- The transitions between two wake-ups, or between the start of the connection and its first wake-up, do
not end in the state in which they began. -/
def MovesOn (before : List Mark) (mark : Mark) (_after : List Mark) : Prop :=
  mark = .borrowed → (course before).marked ≠ (course before).previous

theorem course_snoc (trail : List Mark) (mark : Mark) :
    course (trail ++ [mark]) = (course trail).pass mark := by
  rw [course, List.foldl_append]
  rfl

/-- What a subscriber has been shown, if nothing disturbs its connection: the state at the last mark, or at
the one before while the wake-up has not led to a push yet. -/
def Course.basis (course : Course) (woken : Bool) : GuardState :=
  if woken then course.previous else course.marked

theorem undisturbed_snoc {trail : List Mark} {mark : Mark} : Each Undisturbed [] (trail ++ [mark]) ↔
    Each Undisturbed [] trail ∧ Undisturbed trail mark [] := by
  rw [each_append fun _ _ _ _ h => h, each_cons, List.nil_append]
  exact and_congr_right fun _ => and_iff_left trivial

theorem movesOn_snoc {trail : List Mark} {mark : Mark} : Each MovesOn [] (trail ++ [mark]) ↔
    Each MovesOn [] trail ∧ MovesOn trail mark [] := by
  rw [each_append fun _ _ _ _ h => h, each_cons, List.nil_append]
  exact and_congr_right fun _ => and_iff_left trivial

theorem changes_snoc {lines : List (Option (Request × Unit) × Response)}
    {line : Option (Request × Unit) × Response} : Each Changes [] (lines ++ [line]) ↔
    Each Changes [] lines ∧ Changes lines line [] := by
  rw [each_append fun _ _ _ _ h => h, each_cons, List.nil_append]
  exact and_congr_right fun _ => and_iff_left trivial

/-- The trail and the lines tell the same story. If nothing disturbs the connection, a subscriber has been
shown the state at which the receiver was marked. -/
structure Told (s : Served) : Prop where
  now : (course s.trail).now = s.service.daemon.stateTx.value
  still : (course s.trail).moved = false → (course s.trail).now = (course s.trail).marked
  pushes : (course s.trail).pushes = (latest (fun line => line.2.pushed?) s.conn.output).isSome
  quiet : s.conn.subscribed = false →
    s.conn.phase.marksState = false ∧ latest (fun line => line.2.pushed?) s.conn.output = none
  shown : Each Undisturbed [] s.trail → s.conn.subscribed = true →
    basis s.conn.output = some ((course s.trail).basis s.conn.phase.marksState)
  changes : Each Undisturbed [] s.trail →
    (Each Changes [] s.conn.output ↔ Each MovesOn [] s.trail)

theorem silent_of_state? {origin : Option (Request × Unit)} {response : Response}
    (h : response.state? = none) : response.pushed? = none ∧ snapshot? (origin, response) = none := by
  cases response with
  | state s => cases h
  | stateChanged s => cases h
  | _ => exact ⟨rfl, by unfold snapshot?; split <;> simp_all⟩

/-- The segment tells nothing of the state. -/
theorem silent_segment (lines : List (Option (Request × Unit) × Response))
    {segment : List (Option (Request × Unit) × Response)}
    (hsilent : ∀ line ∈ segment, line.2.pushed? = none ∧ snapshot? line = none) :
    latest (fun line => line.2.pushed?) (lines ++ segment) = latest (fun line => line.2.pushed?) lines ∧
    basis (lines ++ segment) = basis lines ∧
    (Each Changes [] (lines ++ segment) ↔ Each Changes [] lines) := by
  have hpushed : latest (fun line => line.2.pushed?) (lines ++ segment) =
      latest (fun line => line.2.pushed?) lines := by
    rw [latest_append, latest_eq_none fun line hline => (hsilent line hline).1, Option.none_or]
  refine ⟨hpushed, ?_, ?_⟩
  · rw [basis, basis, hpushed, latest_append snapshot?,
      latest_eq_none fun line hline => (hsilent line hline).2, Option.none_or]
  · rw [each_append fun _ _ _ _ hchanges => hchanges]
    refine and_iff_left (each_iff.mpr ?_)
    rintro middle line after rfl state hline
    have := (hsilent line (List.mem_append_right _ List.mem_cons_self)).1
    rw [hline] at this
    cases this

namespace Told

/-- A step that tells nothing of the state, and neither reads nor marks it. -/
theorem silent (h : s.Told) (segment : List (Option (Request × Unit) × Response))
    (htrail : s'.trail = s.trail) (houtput : s'.conn.output = s.conn.output ++ segment)
    (hvalue : s'.service.daemon.stateTx.value = s.service.daemon.stateTx.value)
    (hsubscribed : s'.conn.subscribed = s.conn.subscribed)
    (hmarks : s'.conn.phase.marksState = s.conn.phase.marksState)
    (hsilent : ∀ line ∈ segment, line.2.pushed? = none ∧ snapshot? line = none) : s'.Told := by
  obtain ⟨hpushed, hbasis, hchanges⟩ := silent_segment s.conn.output hsilent
  refine ⟨?_, ?_, ?_, ?_, ?_, ?_⟩
  · rw [htrail, hvalue]
    exact h.now
  · rw [htrail]
    exact h.still
  · rw [htrail, houtput, hpushed]
    exact h.pushes
  · rw [hsubscribed, hmarks, houtput, hpushed]
    exact h.quiet
  · rw [htrail, hsubscribed, hmarks, houtput, hbasis]
    exact h.shown
  · rw [htrail, houtput, hchanges]
    exact h.changes

/-- A mark that is no reading for a push changes nothing about what the pushes repeat. -/
theorem changes_marked (h : s.Told) {mark : Mark} (hmark : mark ≠ .borrowed) :
    Each Undisturbed [] (s.trail ++ [mark]) →
      (Each Changes [] s.conn.output ↔ Each MovesOn [] (s.trail ++ [mark])) := by
  rw [undisturbed_snoc, movesOn_snoc]
  intro hcalm
  rw [h.changes hcalm.1]
  exact (and_iff_left fun hborrowed => absurd hborrowed hmark).symm

/-- The machine goes on. -/
theorem becomes (h : s.Told) {service : Service} {conn : Conn Unit}
    (houtput : conn.output = s.conn.output) (hsubscribed : conn.subscribed = s.conn.subscribed)
    (hmarks : conn.phase.marksState = s.conn.phase.marksState)
    (hbecomes : s.service.daemon.stateTx.Becomes service.daemon.stateTx) :
    Told { s with service, conn, trail := s.trail ++ published s.service service } := by
  unfold published
  split_ifs with hversion
  · rw [List.append_nil]
    exact h.silent [] rfl (by rw [List.append_nil, houtput]) (hbecomes.value hversion) hsubscribed
      hmarks (List.forall_mem_nil _)
  · refine ⟨?_, ?_, ?_, ?_, ?_, ?_⟩
    · rw [course_snoc]
      rfl
    · rw [course_snoc]
      nofun
    · rw [course_snoc, houtput]
      exact h.pushes
    · rw [hsubscribed, hmarks, houtput]
      exact h.quiet
    · rw [course_snoc, undisturbed_snoc, hsubscribed, hmarks, houtput]
      exact fun hcalm => h.shown hcalm.1
    · rw [houtput]
      exact h.changes_marked nofun

/-- The connection starts. -/
theorem started (h : s.Told) {conn : Conn Unit} (houtput : conn.output = s.conn.output)
    (hsubscribed : conn.subscribed = s.conn.subscribed) (hfresh : s.conn.subscribed = false)
    (hmarks : conn.phase.marksState = false) :
    Told { s with conn, trail := s.trail ++ [.started] } := by
  obtain ⟨-, hnone⟩ := h.quiet hfresh
  refine ⟨?_, ?_, ?_, ?_, ?_, ?_⟩
  · rw [course_snoc]
    exact h.now
  · rw [course_snoc]
    exact fun _ => rfl
  · rw [course_snoc, houtput]
    exact h.pushes
  · rw [hmarks, houtput]
    exact fun _ => ⟨rfl, hnone⟩
  · rw [hsubscribed, hfresh]
    nofun
  · rw [houtput]
    exact h.changes_marked nofun

/-- The state is read for the reply to `Subscribe`. -/
theorem subscribed (h : s.Told) {conn : Conn Unit} (tag : Unit)
    (hselecting : s.conn.phase.marksState = false)
    (hsubscribed : conn.subscribed = true) (hmarks : conn.phase.marksState = false)
    (houtput : conn.output =
      s.conn.output ++ [(some (.subscribe, tag), .state s.service.daemon.stateTx.value)]) :
    Told { s with conn, trail := s.trail ++ [.snapshot] } := by
  have hpushed : latest (fun line => line.2.pushed?) conn.output =
      latest (fun line => line.2.pushed?) s.conn.output := by
    rw [houtput, latest_append, latest_singleton]
    rfl
  refine ⟨?_, ?_, ?_, ?_, ?_, ?_⟩
  · rw [course_snoc]
    exact h.now
  · rw [course_snoc]
    exact h.still
  · rw [course_snoc, hpushed]
    exact h.pushes
  · rw [hsubscribed]
    nofun
  · rw [course_snoc, undisturbed_snoc, hmarks]
    rintro ⟨hcalm, hundisturbed, -⟩ -
    rw [basis, hpushed, houtput, latest_append, latest_singleton]
    cases hlast : latest (fun line => line.2.pushed?) s.conn.output with
    | some state =>
        -- what has been pushed counts, and the subscriber had been shown it before
        have hwas : s.conn.subscribed = true := by
          by_contra hnot
          rw [(h.quiet (by simpa using hnot)).2] at hlast
          cases hlast
        have := h.shown hcalm hwas
        rw [basis, hlast, Option.some_or, hselecting] at this
        rw [Option.some_or]
        exact this
    | none =>
        have hpushes := h.pushes
        rw [hlast] at hpushes
        rcases hundisturbed rfl with hsome | hstill
        · rw [hpushes] at hsome
          cases hsome
        · rw [Option.none_or, ← h.now, h.still hstill]
          rfl
  · rw [undisturbed_snoc, movesOn_snoc, houtput, changes_snoc]
    intro hcalm
    rw [h.changes hcalm.1]
    exact and_congr_right fun _ => iff_of_true nofun nofun

/-- The connection is woken. -/
theorem woken (h : s.Told) {conn : Conn Unit} (hselecting : s.conn.phase.marksState = false)
    (hwas : s.conn.subscribed = true) (hsubscribed : conn.subscribed = true)
    (hmarks : conn.phase.marksState = true) (houtput : conn.output = s.conn.output) :
    Told { s with conn, trail := s.trail ++ [.woken] } := by
  refine ⟨?_, ?_, ?_, ?_, ?_, ?_⟩
  · rw [course_snoc]
    exact h.now
  · rw [course_snoc]
    exact fun _ => rfl
  · rw [course_snoc, houtput]
    exact h.pushes
  · rw [hsubscribed]
    nofun
  · rw [course_snoc, undisturbed_snoc, hmarks, houtput]
    intro hcalm _
    have := h.shown hcalm.1 hwas
    rw [hselecting] at this
    exact this
  · rw [houtput]
    exact h.changes_marked nofun

/-- The state is read for a push. -/
theorem borrowed (h : s.Told) {conn : Conn Unit} (hwoken : s.conn.phase.marksState = true)
    (hsubscribed : conn.subscribed = s.conn.subscribed) (hmarks : conn.phase.marksState = false)
    (houtput : conn.output =
      s.conn.output ++ [(none, .stateChanged s.service.daemon.stateTx.value)]) :
    Told { s with conn, trail := s.trail ++ [.borrowed] } := by
  have hwas : s.conn.subscribed = true := by
    by_contra hnot
    rw [(h.quiet (by simpa using hnot)).1] at hwoken
    cases hwoken
  have hpushed : latest (fun line => line.2.pushed?) conn.output =
      some s.service.daemon.stateTx.value := by
    rw [houtput, latest_append, latest_singleton]
    rfl
  have hvalue : Each Undisturbed [] (s.trail ++ [.borrowed]) →
      Each Undisturbed [] s.trail ∧ s.service.daemon.stateTx.value = (course s.trail).marked := by
    rw [undisturbed_snoc]
    rintro ⟨hcalm, -, hundisturbed⟩
    rw [← h.now]
    exact ⟨hcalm, h.still (hundisturbed rfl)⟩
  refine ⟨?_, ?_, ?_, ?_, ?_, ?_⟩
  · rw [course_snoc]
    exact h.now
  · rw [course_snoc]
    exact h.still
  · rw [course_snoc, hpushed]
    rfl
  · rw [hsubscribed, hwas]
    nofun
  · intro hcalm _
    rw [course_snoc, basis, hpushed, hmarks, (hvalue hcalm).2]
    rfl
  · intro hcalm
    obtain ⟨hearlier, hmarked⟩ := hvalue hcalm
    rw [movesOn_snoc, houtput, changes_snoc, h.changes hearlier]
    refine and_congr_right fun _ => ?_
    have hbasis := h.shown hearlier hwas
    rw [hwoken] at hbasis
    constructor
    · intro hchanges _ hback
      refine hchanges _ rfl ?_
      rw [hbasis, hmarked, hback]
      rfl
    · intro hmoves state hline hsame
      cases hline
      rw [hbasis, hmarked] at hsame
      exact hmoves rfl (Option.some.inj hsame).symm

/-- A step of the connection that writes nothing and neither reads nor marks the state. -/
theorem quietly (h : s.Told) {conn : Conn Unit} {progress : Progress}
    (hnone : marks s.conn progress = []) (houtput : conn.output = s.conn.output)
    (hsubscribed : conn.subscribed = s.conn.subscribed)
    (hmarks : conn.phase.marksState = s.conn.phase.marksState) :
    Told { s with conn, trail := s.trail ++ marks s.conn progress } := by
  rw [hnone, List.append_nil]
  exact h.silent [] rfl (by rw [List.append_nil, houtput]) rfl hsubscribed hmarks
    (List.forall_mem_nil _)

/-- A step of the connection that writes a line without the state. -/
theorem writing (h : s.Told) {conn : Conn Unit} {progress : Progress}
    {origin : Option (Request × Unit)} {response : Response}
    (hnone : marks s.conn progress = []) (hline : s.conn.phase.line = [])
    (hmarks : s.conn.phase.marksState = false) (hwritten : conn.written = s.conn.written)
    (hphase : conn.phase = .writing origin response)
    (hsubscribed : conn.subscribed = s.conn.subscribed)
    (hsilent : response.pushed? = none ∧ snapshot? (origin, response) = none) :
    Told { s with conn, trail := s.trail ++ marks s.conn progress } := by
  rw [hnone, List.append_nil]
  refine h.silent [(origin, response)] rfl (Conn.output_writing hline hwritten hphase) rfl hsubscribed
    ?_ ?_
  · rw [hmarks, hphase]
    rfl
  · intro line hmem
    rw [List.mem_singleton.mp hmem]
    exact hsilent

theorem moved (h : s.Told) (hupToDate : s.conn.UpToDate s.service) {progress : Progress}
    {conn : Conn Unit} (hmoved : Conn.Moved s.service s.conn progress conn) :
    Told { s with conn, trail := s.trail ++ marks s.conn progress } := by
  cases hmoved with
  | started hphase =>
      have hmarks : marks s.conn .start = [.started] := by simp [marks, hphase]
      rw [hmarks]
      exact h.started (Conn.output_eq (by rw [hphase]; rfl) rfl rfl) rfl (hupToDate.fresh hphase).2 rfl
  | blank tag rest hphase hlines => exact h.quietly (by simp [marks, hphase, hlines]) rfl rfl rfl
  | malformed error tag rest hphase hlines =>
      exact h.writing (by simp [marks, hphase, hlines]) (by rw [hphase]; rfl) (by rw [hphase]; rfl) rfl
        rfl rfl (silent_of_state? rfl)
  | stated e subscribed rest hphase hlines hrequest =>
      obtain ⟨req, tag⟩ := e
      rcases hrequest with ⟨hreq, hsame⟩ | ⟨hreq, hsubscribed⟩
      · change req = .getState at hreq
        subst hreq
        exact h.writing (by simp [marks, hphase, hlines]) (by rw [hphase]; rfl) (by rw [hphase]; rfl)
          rfl rfl hsame ⟨rfl, rfl⟩
      · change req = .subscribe at hreq
        subst hreq
        have hmarks : marks s.conn .line = [.snapshot] := by simp [marks, hphase, hlines]
        rw [hmarks]
        exact h.subscribed tag (by rw [hphase]; rfl) hsubscribed rfl
          (Conn.output_writing (by rw [hphase]; rfl) rfl rfl)
  | listed e rest hphase hlines hrequest =>
      exact h.writing (by simp [marks, hphase, hlines, hrequest]) (by rw [hphase]; rfl)
        (by rw [hphase]; rfl) rfl rfl rfl (silent_of_state? rfl)
  | dispatched e rest hphase hlines hcontrol =>
      refine h.quietly ?_ (Conn.output_eq (by rw [hphase]; rfl) rfl rfl) rfl (by rw [hphase]; rfl)
      obtain ⟨req, tag⟩ := e
      cases req with
      | subscribe => cases hcontrol
      | _ => simp [marks, hphase, hlines]
  | hungUp hphase => exact h.quietly rfl rfl rfl rfl
  | asked e hphase hrunning hexpects =>
      exact h.quietly rfl (Conn.output_eq (by rw [hphase]; rfl) rfl rfl) rfl (by rw [hphase]; rfl)
  | acked e hphase hrunning hexpects =>
      exact h.writing rfl (by rw [hphase]; rfl) (by rw [hphase]; rfl) rfl rfl rfl (silent_of_state? rfl)
  | unsent e hphase hrunning =>
      exact h.writing rfl (by rw [hphase]; rfl) (by rw [hphase]; rfl) rfl rfl rfl (silent_of_state? rfl)
  | ended e entries outcome hphase =>
      exact h.quietly rfl (Conn.output_eq (by rw [hphase]; rfl) rfl rfl) rfl (by rw [hphase]; rfl)
  | resumed e response hphase =>
      have hsilent := hupToDate.answer
      rw [hphase] at hsilent
      exact h.writing rfl (by rw [hphase]; rfl) (by rw [hphase]; rfl) rfl rfl rfl
        (silent_of_state? hsilent.1)
  | dropped e hphase hrunning =>
      exact h.writing rfl (by rw [hphase]; rfl) (by rw [hphase]; rfl) rfl rfl rfl (silent_of_state? rfl)
  | stateMarked hphase hsubscribed hflagged =>
      have hmarks : marks s.conn .stateChanged = [.woken] := by simp [marks, hphase]
      rw [hmarks]
      exact h.woken (by rw [hphase]; rfl) hsubscribed hsubscribed rfl
        (Conn.output_eq (by rw [hphase]; rfl) rfl rfl)
  | devicesMarked hphase hsubscribed hflagged =>
      exact h.quietly rfl (Conn.output_eq (by rw [hphase]; rfl) rfl rfl) rfl (by rw [hphase]; rfl)
  | stateBorrowed hphase =>
      have hmarks : marks s.conn .borrow = [.borrowed] := by simp [marks, hphase]
      rw [hmarks]
      exact h.borrowed (by rw [hphase]; rfl) rfl rfl (Conn.output_writing (by rw [hphase]; rfl) rfl rfl)
  | devicesBorrowed hphase =>
      exact h.writing (by simp [marks, hphase]) (by rw [hphase]; rfl) (by rw [hphase]; rfl) rfl rfl rfl
        (silent_of_state? rfl)
  | written origin response hphase =>
      exact h.quietly rfl (Conn.output_written hphase rfl rfl) rfl (by rw [hphase]; rfl)
  | failed origin response hphase => exact h.quietly rfl rfl rfl rfl

theorem step (h : s.Told) (hupToDate : s.conn.UpToDate s.service) {input : ServedInput}
    (hstep : s.step p input = .ok s') : s'.Told := by
  cases input with
  | machine wake host =>
      simp only [Served.step] at hstep
      split at hstep
      · rename_i service hwake
        cases hstep
        exact h.becomes rfl rfl rfl (wake_becomes hwake).1
      · cases hstep
  | control host =>
      simp only [Served.step] at hstep
      split at hstep
      · rename_i service conn hhandle
        cases hstep
        have hhandled := Conn.handle_cases hhandle
        exact h.becomes hhandled.output hhandled.marks.1 hhandled.marks.2 hhandled.becomes.1
      · cases hstep
  | arrive line =>
      cases hstep
      exact h.silent [] rfl (List.append_nil _).symm rfl rfl rfl (List.forall_mem_nil _)
  | progress progress =>
      simp only [Served.step] at hstep
      split at hstep
      · rename_i conn hconn
        cases hstep
        exact h.moved hupToDate (Conn.step_cases hconn).2
      · cases hstep

end Told

theorem told_start (daemon : Daemon) (hidle : daemon.stateTx.value = .idle) : (start daemon).Told :=
  ⟨hidle.symm, fun _ => rfl, rfl, fun _ => ⟨rfl, rfl⟩, nofun, fun _ => iff_of_true trivial trivial⟩

/-- The two invariants together. -/
def Consistent (s : Served) : Prop := s.conn.UpToDate s.service ∧ s.Told

/-- If there is no transition between the start of a connection and its `Subscribe`, and none between a
wake-up and the reading that follows it, then no push repeats what the client was shown before, exactly if
the transitions between two wake-ups never end in the state in which they began. -/
theorem pushes_change_iff {host : Host} {files : FileSystem} {cfg : Config} {cfgPath : PathBuf}
    {privileges : Privileges} {inputs : List ServedInput}
    (hrun : Run (step p) (start (.start p host files cfg cfgPath privileges)) inputs s)
    (hcalm : Each Undisturbed [] s.trail) :
    Each Changes [] s.conn.output ↔ Each MovesOn [] s.trail := by
  have h : s.Consistent := hrun.invariant ⟨upToDate_start _, told_start _ rfl⟩
    fun _ _ _ h _ hnext => ⟨upToDate_step h.1 hnext, h.2.step h.1 hnext⟩
  exact h.2.changes hcalm

theorem pushes_change_iff_after_arming :
    ∃ s : Served, (none, .stateChanged .armed) ∈ s.conn.output ∧ Each Changes [] s.conn.output := by
  obtain ⟨s, hrun, hpushed, htrail⟩ : ∃ s, Run (step Bench.platform)
      (start (Bench.boot .default "c1")) armedUnderSubscription s ∧
      (none, .stateChanged .armed) ∈ s.conn.output ∧
      s.trail = [.started, .snapshot, .entered .armed, .woken, .borrowed] :=
    ⟨_, run_get (by decide +kernel), by decide +kernel⟩
  refine ⟨s, hpushed, (pushes_change_iff hrun ?_).mpr ?_⟩
  · rw [htrail]
    exact ⟨⟨nofun, nofun⟩, ⟨fun _ => .inr rfl, nofun⟩, ⟨nofun, nofun⟩, ⟨nofun, nofun⟩,
      ⟨nofun, fun _ => rfl⟩, trivial⟩
  · rw [htrail]
    exact ⟨nofun, nofun, nofun, nofun, fun _ => by decide, trivial⟩

/-- The guard is armed after the connection has been accepted and before it subscribes: the change is
still flagged when the reply has carried it already, and it is pushed once more. -/
theorem push_repeats_snapshot :
    ¬∀ (p : Platform) (host : Host) (files : FileSystem) (cfg : Config) (cfgPath : PathBuf)
        (privileges : Privileges) (inputs : List ServedInput) (s : Served),
      Run (step p) (start (.start p host files cfg cfgPath privileges)) inputs s →
      Each Changes [] s.conn.output := by
  intro h
  obtain ⟨s, hrun, houtput⟩ : ∃ s, Run (step Bench.platform) (start (Bench.boot .default "c1"))
      (.progress .start :: .machine (.control .arm) (Bench.host "c1") :: exchange .subscribe ++ push)
      s ∧ s.conn.output =
        [(some (.subscribe, ()), .state .armed), (none, .stateChanged .armed)] :=
    ⟨_, run_get (by decide +kernel), by decide +kernel⟩
  have hchanges := h _ _ _ _ _ _ _ s hrun
  rw [houtput] at hchanges
  exact hchanges.2.1 .armed rfl rfl

end Served

end AlertU
