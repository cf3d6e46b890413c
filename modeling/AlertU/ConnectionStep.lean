import AlertU.Connection

/-! What one step of a connection can do. `Moved` lists the outcomes of a step of its task and
`Handled` those of a command that the machine takes up; the invariants of connections are derived from
the two. -/

open FilePath Channel

namespace AlertU.Conn

variable {γ : Type} {p : Platform} {host : Host} {v v' : Service} {c c' : Conn γ}
  {progress : Progress}

/-- The outcomes of a step of the connection's task. -/
inductive Moved (v : Service) (c : Conn γ) : Progress → Conn γ → Prop where
  | started (hphase : c.phase = .starting) :
      Moved v c .start { c with
        stateRx := v.daemon.stateTx.version
        devicesRx := v.daemon.devicesTx.version
        phase := .selecting }
  | blank (tag : γ) (rest : List (Line × γ)) (hphase : c.phase = .selecting)
      (hlines : c.lines = (.blank, tag) :: rest) : Moved v c .line { c with lines := rest }
  | malformed (error : String) (tag : γ) (rest : List (Line × γ)) (hphase : c.phase = .selecting)
      (hlines : c.lines = (.malformed error, tag) :: rest) :
      Moved v c .line { c with
        lines := rest, phase := .writing none (.error s!"bad request: {error}") }
  | stated (e : Request × γ) (subscribed : Bool) (rest : List (Line × γ))
      (hphase : c.phase = .selecting) (hlines : c.lines = (.request e.1, e.2) :: rest)
      (hrequest : e.1 = .getState ∧ subscribed = c.subscribed ∨
        e.1 = .subscribe ∧ subscribed = true) :
      Moved v c .line { c with
        lines := rest, subscribed
        phase := .writing (some e) (.state v.daemon.stateTx.value) }
  | listed (e : Request × γ) (rest : List (Line × γ)) (hphase : c.phase = .selecting)
      (hlines : c.lines = (.request e.1, e.2) :: rest) (hrequest : e.1 = .listDevices) :
      Moved v c .line { c with
        lines := rest, phase := .writing (some e) (.devices v.daemon.devicesTx.value) }
  | dispatched (e : Request × γ) (rest : List (Line × γ)) (hphase : c.phase = .selecting)
      (hlines : c.lines = (.request e.1, e.2) :: rest) (hcontrol : e.1.control.isSome) :
      Moved v c .line { c with lines := rest, phase := .sending e }
  | hungUp (hphase : c.phase = .selecting) : Moved v c .hangUp { c with closed := true }
  | asked (e : Request × γ) (hphase : c.phase = .sending e) (hrunning : v.running = true)
      (hexpects : e.1.expectsAnswer) :
      Moved v c .send { c with ctrl := c.ctrl ++ [e], phase := .asking e }
  | acked (e : Request × γ) (hphase : c.phase = .sending e) (hrunning : v.running = true)
      (hexpects : e.1.expectsAnswer = false) :
      Moved v c .send { c with ctrl := c.ctrl ++ [e], phase := .writing (some e) .ok }
  | unsent (e : Request × γ) (hphase : c.phase = .sending e) (hrunning : v.running = false) :
      Moved v c .send { c with phase := .writing (some e) daemonGone }
  | ended (e : Request × γ) (entries : List DeviceEntry) (outcome : Outcome)
      (hphase : c.phase = .listening e entries) :
      Moved v c (.outcome outcome) { c with phase := .answered e (Learn.answer entries outcome) }
  | resumed (e : Request × γ) (response : Response) (hphase : c.phase = .answered e response) :
      Moved v c .resume { c with phase := .writing (some e) response }
  | dropped (e : Request × γ) (hphase : c.phase = .asking e) (hrunning : v.running = false) :
      Moved v c .resume { c with ctrl := [], phase := .writing (some e) daemonGone }
  | stateMarked (hphase : c.phase = .selecting) (hsubscribed : c.subscribed = true)
      (hflagged : v.daemon.stateTx.flagged c.stateRx) :
      Moved v c .stateChanged { c with
        stateRx := v.daemon.stateTx.version, phase := .stateMarked }
  | devicesMarked (hphase : c.phase = .selecting) (hsubscribed : c.subscribed = true)
      (hflagged : v.daemon.devicesTx.flagged c.devicesRx) :
      Moved v c .devicesChanged { c with
        devicesRx := v.daemon.devicesTx.version, phase := .devicesMarked }
  | stateBorrowed (hphase : c.phase = .stateMarked) :
      Moved v c .borrow { c with phase := .writing none (.stateChanged v.daemon.stateTx.value) }
  | devicesBorrowed (hphase : c.phase = .devicesMarked) :
      Moved v c .borrow { c with phase := .writing none (.devices v.daemon.devicesTx.value) }
  | written (origin : Option (Request × γ)) (response : Response)
      (hphase : c.phase = .writing origin response) :
      Moved v c (.write true) { c with
        phase := .selecting, written := c.written ++ [(origin, response)] }
  | failed (origin : Option (Request × γ)) (response : Response)
      (hphase : c.phase = .writing origin response) :
      Moved v c (.write false) { c with closed := true }

theorem take_cases {line : Line} {tag : γ} {rest : List (Line × γ)}
    (hphase : c.phase = .selecting) (hlines : c.lines = (line, tag) :: rest) :
    Moved v c .line ({ c with lines := rest }.take v.daemon line tag) := by
  cases line with
  | blank => exact .blank tag rest hphase hlines
  | malformed error => exact .malformed error tag rest hphase hlines
  | request req =>
      cases req with
      | getState => exact .stated (.getState, tag) _ rest hphase hlines (.inl ⟨rfl, rfl⟩)
      | subscribe => exact .stated (.subscribe, tag) _ rest hphase hlines (.inr ⟨rfl, rfl⟩)
      | listDevices => exact .listed (.listDevices, tag) rest hphase hlines rfl
      | arm => exact .dispatched (.arm, tag) rest hphase hlines rfl
      | disarm => exact .dispatched (.disarm, tag) rest hphase hlines rfl
      | toggle => exact .dispatched (.toggle, tag) rest hphase hlines rfl
      | getConfig => exact .dispatched (.getConfig, tag) rest hphase hlines rfl
      | setConfig cfg => exact .dispatched (.setConfig cfg, tag) rest hphase hlines rfl
      | learnRemote secs => exact .dispatched (.learnRemote secs, tag) rest hphase hlines rfl
      | testSound => exact .dispatched (.testSound, tag) rest hphase hlines rfl

/-- Everything that one step of the task can do. -/
theorem step_cases (h : c.step v progress = .ok c') : c.closed = false ∧ Moved v c progress c' := by
  unfold step at h
  by_cases hclosed : c.closed = true
  · rw [if_pos hclosed] at h
    cases h
  rw [if_neg hclosed] at h
  refine ⟨by simpa using hclosed, ?_⟩
  split at h
  · rename_i hphase
    cases h
    exact .started hphase
  · rename_i hphase
    split at h
    · cases h
    · rename_i hlines
      cases h
      exact take_cases hphase hlines
  · rename_i hphase
    cases h
    exact .hungUp hphase
  · rename_i e hphase
    split_ifs at h with hrunning hexpects
    · cases h
      exact .asked e hphase hrunning hexpects
    · cases h
      exact .acked e hphase hrunning (by simpa using hexpects)
    · cases h
      exact .unsent e hphase (by simpa using hrunning)
  · rename_i outcome e entries hphase
    cases h
    exact .ended e entries outcome hphase
  · rename_i e response hphase
    cases h
    exact .resumed e response hphase
  · rename_i e hphase
    split_ifs at h with hrunning
    cases h
    exact .dropped e hphase (by simpa using hrunning)
  · rename_i hphase
    split_ifs at h with hflagged
    cases h
    rw [Bool.and_eq_true] at hflagged
    exact .stateMarked hphase hflagged.1 hflagged.2
  · rename_i hphase
    split_ifs at h with hflagged
    cases h
    rw [Bool.and_eq_true] at hflagged
    exact .devicesMarked hphase hflagged.1 hflagged.2
  · rename_i hphase
    cases h
    exact .stateBorrowed hphase
  · rename_i hphase
    cases h
    exact .devicesBorrowed hphase
  · rename_i origin response hphase
    cases h
    exact .written origin response hphase
  · rename_i origin response hphase
    cases h
    exact .failed origin response hphase
  · cases h

/-- The outcomes of a command of the connection that the machine takes up. -/
inductive Handled (p : Platform) (host : Host) (v : Service) (c : Conn γ) :
    Service → Conn γ → Prop where
  | handled (e : Request × γ) (rest : List (Request × γ)) (ctrl : Control) (next : Daemon)
      (hctrl : c.ctrl = e :: rest) (hcontrol : e.1.control = some ctrl)
      (hrunning : v.running = true) (hstep : v.daemon.step p (.control ctrl, host) = .ok next) :
      Handled p host v c { v with daemon := next } { c with
        ctrl := rest
        phase := if e.1.expectsAnswer then c.phase.settle (v.daemon.since next) else c.phase }
  | died (e : Request × γ) (rest : List (Request × γ)) (hctrl : c.ctrl = e :: rest) :
      Handled p host v c { v with running := false } c

theorem handle_cases (h : c.handle p v host = .ok (v', c')) : Handled p host v c v' c' := by
  unfold handle at h
  split at h
  · cases h
  · rename_i e rest hctrl
    split at h
    · rename_i ctrl hcontrol hrunning
      split at h
      · rename_i next hstep
        cases h
        exact .handled e rest ctrl next hctrl hcontrol hrunning hstep
      · cases h
        exact .died e rest hctrl
    · cases h

/-! ### The lines that are written -/

theorem output_writing {origin : Option (Request × γ)} {response : Response}
    (hline : c.phase.line = []) (hwritten : c'.written = c.written)
    (hphase : c'.phase = .writing origin response) :
    c'.output = c.output ++ [(origin, response)] := by
  rw [Conn.output, Conn.output, hline, hwritten, hphase, List.append_nil]
  rfl

theorem output_eq (hline : c.phase.line = []) (hwritten : c'.written = c.written)
    (hline' : c'.phase.line = []) : c'.output = c.output := by
  rw [Conn.output, Conn.output, hline, hwritten, hline']

theorem output_written {origin : Option (Request × γ)} {response : Response}
    (hphase : c.phase = .writing origin response) (hline' : c'.phase.line = [])
    (hwritten : c'.written = c.written ++ [(origin, response)]) : c'.output = c.output := by
  rw [Conn.output, Conn.output, hphase, hwritten, hline', List.append_nil]
  rfl

/-! ### The order of the requests -/

/-- What the machine answers to a request, or the window that it opens for it. -/
theorem settles_cases {e : Request × γ} {action : Action} {phase : ConnPhase γ}
    (h : action.settles e = some phase) :
    (∃ response, phase = .answered e response) ∨ ∃ entries, phase = .listening e entries := by
  unfold Action.settles at h
  split at h <;> cases h
  · exact .inl ⟨_, rfl⟩
  · exact .inl ⟨_, rfl⟩
  · exact .inl ⟨_, rfl⟩
  · exact .inl ⟨_, rfl⟩
  · exact .inr ⟨_, rfl⟩

/-- Only a connection that awaits an answer is affected by it. -/
theorem settle_cases (actions : List Action) (phase : ConnPhase γ) :
    phase.settle actions = phase ∨ ∃ e, phase = .asking e ∧
      ((∃ response, phase.settle actions = .answered e response) ∨
        ∃ entries, phase.settle actions = .listening e entries) := by
  cases phase with
  | asking e =>
      refine .inr ⟨e, rfl, ?_⟩
      rw [ConnPhase.settle]
      cases hsettled : actions.findSome? (Action.settles e) with
      | none => exact .inl ⟨_, rfl⟩
      | some settled =>
          obtain ⟨action, -, haction⟩ := List.exists_of_findSome?_eq_some hsettled
          exact settles_cases haction
  | _ => exact .inl rfl

@[simp]
theorem settle_request (actions : List Action) (phase : ConnPhase γ) :
    (phase.settle actions).request = phase.request := by
  rcases settle_cases actions phase with h | ⟨e, rfl, ⟨response, h⟩ | ⟨entries, h⟩⟩ <;> rw [h] <;> rfl

@[simp]
theorem settle_line (actions : List Action) (phase : ConnPhase γ) :
    (phase.settle actions).line = phase.line := by
  rcases settle_cases actions phase with h | ⟨e, rfl, ⟨response, h⟩ | ⟨entries, h⟩⟩ <;> rw [h] <;> rfl

/-- A connection answers its requests in the order in which it has received them. -/
theorem Moved.requests (h : Moved v c progress c') : c'.requests = c.requests := by
  cases h with
  | started hphase => simp [Conn.requests, hphase, ConnPhase.request]
  | blank tag rest hphase hlines => simp [Conn.requests, hlines, Line.request?]
  | malformed error tag rest hphase hlines =>
      simp [Conn.requests, hphase, hlines, ConnPhase.request, Line.request?]
  | stated e subscribed rest hphase hlines hrequest =>
      simp [Conn.requests, hphase, hlines, ConnPhase.request, Line.request?]
  | listed e rest hphase hlines hrequest =>
      simp [Conn.requests, hphase, hlines, ConnPhase.request, Line.request?]
  | dispatched e rest hphase hlines hcontrol =>
      simp [Conn.requests, hphase, hlines, ConnPhase.request, Line.request?]
  | hungUp hphase => rfl
  | asked e hphase hrunning hexpects => simp [Conn.requests, hphase, ConnPhase.request]
  | acked e hphase hrunning hexpects => simp [Conn.requests, hphase, ConnPhase.request]
  | unsent e hphase hrunning => simp [Conn.requests, hphase, ConnPhase.request]
  | ended e entries outcome hphase => simp [Conn.requests, hphase, ConnPhase.request]
  | resumed e response hphase => simp [Conn.requests, hphase, ConnPhase.request]
  | dropped e hphase hrunning => simp [Conn.requests, hphase, ConnPhase.request]
  | stateMarked hphase hsubscribed hflagged => simp [Conn.requests, hphase, ConnPhase.request]
  | devicesMarked hphase hsubscribed hflagged => simp [Conn.requests, hphase, ConnPhase.request]
  | stateBorrowed hphase => simp [Conn.requests, hphase, ConnPhase.request]
  | devicesBorrowed hphase => simp [Conn.requests, hphase, ConnPhase.request]
  | written origin response hphase =>
      cases origin <;> simp [Conn.requests, hphase, ConnPhase.request]
  | failed origin response hphase => rfl

theorem Handled.requests (h : Handled p host v c v' c') : c'.requests = c.requests := by
  cases h with
  | handled e rest ctrl next hctrl hcontrol hrunning hstep =>
      unfold Conn.requests
      simp only
      split_ifs <;> simp
  | died e rest hctrl => rfl

theorem Handled.output (h : Handled p host v c v' c') : c'.output = c.output := by
  cases h with
  | handled e rest ctrl next hctrl hcontrol hrunning hstep =>
      unfold Conn.output
      simp only
      split_ifs <;> simp
  | died e rest hctrl => rfl

theorem Handled.becomes (h : Handled p host v c v' c') :
    v.daemon.stateTx.Becomes v'.daemon.stateTx ∧
      v.daemon.devicesTx.Becomes v'.daemon.devicesTx := by
  cases h with
  | handled e rest ctrl next hctrl hcontrol hrunning hstep => exact (Daemon.step_cases hstep).becomes
  | died e rest hctrl => exact ⟨Watch.becomes_self _, Watch.becomes_self _⟩

end AlertU.Conn
