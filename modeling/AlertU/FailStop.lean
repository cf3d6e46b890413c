import AlertU.ConnectionPush

/-! The connections of a daemon whose state machine has ended. A command that can no longer be sent is
answered with an error, but `GetState`, `Subscribe` and `ListDevices` are answered from the watch
channels, whose receivers keep the last value; nothing ends the IPC server along with the machine. -/

open FilePath Channel Runs

namespace AlertU

namespace ConnPhase

variable {γ : Type}

/-- Something has been taken up whose line is still to come. -/
def pending : ConnPhase γ → Bool
  | .starting | .selecting | .writing _ _ => false
  | _ => true

end ConnPhase

/-- A line that has been begun without a machine: an answer is an error exactly if its request is one
for the machine. When only such requests are taken up, everything is an error. -/
def Refusal {γ : Type} (onlyCommands : Prop) (line : Option (Request × γ) × Response) : Prop :=
  (∀ e, line.1 = some e → (line.2.isError = true ↔ e.1.control.isSome)) ∧
    (onlyCommands → line.2.isError = true)

namespace Conn

variable {γ : Type} {v : Service} {c c' : Conn γ} {progress : Progress} {n : ℕ} {onlyCommands : Prop}

/-- How many lines are written, being written, or owed for what has been taken up. -/
def begun (c : Conn γ) : ℕ := c.output.length + if c.phase.pending then 1 else 0

/-- In its `select!`, the connection takes up nothing but requests for the machine, and no change. -/
def TakesCommand (c : Conn γ) (progress : Progress) : Prop :=
  c.phase = .selecting → progress ≠ .stateChanged ∧ progress ≠ .devicesChanged ∧
    (progress = .line → ∀ req tag rest, c.lines = (.request req, tag) :: rest → req.control.isSome)

/-- What can be under way once `n` lines have been begun with the machine alive and these are out. -/
def Refusing (onlyCommands : Prop) : ConnPhase γ → Prop
  | .sending e => e.1.control.isSome
  | .asking _ | .listening _ _ | .answered _ _ => False
  | .stateMarked | .devicesMarked => ¬onlyCommands
  | _ => True

theorem refusing_of_not_pending {phase : ConnPhase γ} (h : phase.pending = false) :
    Refusing onlyCommands phase := by
  cases phase <;> trivial

/-- The connection since the machine has ended, when `n` lines had been begun. -/
structure Refused (onlyCommands : Prop) (n : ℕ) (c : Conn γ) : Prop where
  begun : n ≤ c.begun
  lines : ∀ line ∈ c.output.drop n, Refusal onlyCommands line
  phase : n ≤ c.output.length → Refusing onlyCommands c.phase

theorem Refused.self (onlyCommands : Prop) (c : Conn γ) : c.Refused onlyCommands c.begun := by
  have hlength : c.output.length ≤ c.begun := Nat.le_add_right _ _
  refine ⟨le_refl _, ?_, ?_⟩
  · rw [List.drop_eq_nil_of_le hlength]
    exact List.forall_mem_nil _
  · intro h
    apply refusing_of_not_pending
    by_contra hpending
    rw [Conn.begun, if_pos (by simpa using hpending)] at h
    omega

namespace Refused

/-- A step that begins no line. -/
theorem quiet (h : c.Refused onlyCommands n) (houtput : c'.output = c.output)
    (hbegun : c.begun ≤ c'.begun)
    (hphase : n ≤ c.output.length → Refusing onlyCommands c'.phase) : c'.Refused onlyCommands n := by
  refine ⟨h.begun.trans hbegun, ?_, ?_⟩
  · rw [houtput]
    exact h.lines
  · rw [houtput]
    exact hphase

/-- A step that begins a line: the last one begun with the machine alive, or a refusal. -/
theorem write (h : c.Refused onlyCommands n) {origin : Option (Request × γ)} {response : Response}
    (hline : c.phase.line = []) (hwritten : c'.written = c.written)
    (hphase : c'.phase = .writing origin response)
    (hrefusal : n ≤ c.output.length → Refusal onlyCommands (origin, response)) :
    c'.Refused onlyCommands n := by
  have houtput := output_writing hline hwritten hphase
  have hlength : c'.output.length = c.output.length + 1 := by
    rw [houtput, List.length_append, List.length_singleton]
  have hbegun : c.begun ≤ c.output.length + 1 := by
    unfold Conn.begun
    split_ifs <;> omega
  refine ⟨?_, ?_, ?_⟩
  · have := h.begun
    rw [Conn.begun, hlength]
    omega
  · intro line hmem
    by_cases hn : n ≤ c.output.length
    · rw [houtput, List.drop_append_of_le_length hn, List.mem_append, List.mem_singleton] at hmem
      rcases hmem with hmem | rfl
      · exact h.lines line hmem
      · exact hrefusal hn
    · rw [List.drop_eq_nil_of_le (by omega)] at hmem
      cases hmem
  · rw [hphase]
    exact fun _ => trivial

theorem moved (h : c.Refused onlyCommands n) (hgone : v.running = false)
    (htakes : onlyCommands → c.TakesCommand progress) (hmoved : Moved v c progress c') :
    c'.Refused onlyCommands n := by
  have hlate := h.phase
  cases hmoved with
  | started hphase =>
      refine h.quiet (output_eq (by rw [hphase]; rfl) rfl rfl) ?_ fun _ => trivial
      simp [Conn.begun, Conn.output, hphase, ConnPhase.pending, ConnPhase.line]
  | blank tag rest hphase hlines => exact h.quiet rfl (le_refl _) h.phase
  | malformed error tag rest hphase hlines =>
      refine h.write (by rw [hphase]; rfl) rfl rfl fun _ => ⟨fun e he => ?_, fun _ => rfl⟩
      cases he
  | stated e subscribed rest hphase hlines hrequest =>
      have hlocal : e.1.control = none := by
        rcases hrequest with ⟨hrequest, -⟩ | ⟨hrequest, -⟩ <;> rw [hrequest] <;> rfl
      refine h.write (by rw [hphase]; rfl) rfl rfl fun _ => ⟨fun e' he => ?_, fun honly => ?_⟩
      · cases he
        simp [hlocal, Response.isError]
      · have hcommand := (htakes honly hphase).2.2 rfl e.1 e.2 rest hlines
        rw [hlocal] at hcommand
        cases hcommand
  | listed e rest hphase hlines hrequest =>
      refine h.write (by rw [hphase]; rfl) rfl rfl fun _ => ⟨fun e' he => ?_, fun honly => ?_⟩
      · cases he
        simp [hrequest, Request.control, Response.isError]
      · have hcommand := (htakes honly hphase).2.2 rfl e.1 e.2 rest hlines
        rw [hrequest] at hcommand
        cases hcommand
  | dispatched e rest hphase hlines hcontrol =>
      refine h.quiet (output_eq (by rw [hphase]; rfl) rfl rfl) ?_ fun _ => hcontrol
      simp [Conn.begun, Conn.output, hphase, ConnPhase.pending, ConnPhase.line]
  | hungUp hphase => exact h.quiet rfl (le_refl _) h.phase
  | asked e hphase hrunning hexpects =>
      rw [hgone] at hrunning
      cases hrunning
  | acked e hphase hrunning hexpects =>
      rw [hgone] at hrunning
      cases hrunning
  | unsent e hphase hrunning =>
      refine h.write (by rw [hphase]; rfl) rfl rfl fun hn => ⟨fun e' he => ?_, fun _ => rfl⟩
      cases he
      rw [hphase] at hlate
      exact iff_of_true rfl (hlate hn)
  | ended e entries outcome hphase =>
      rw [hphase] at hlate
      refine h.quiet (output_eq (by rw [hphase]; rfl) rfl rfl) ?_ hlate
      simp [Conn.begun, Conn.output, hphase, ConnPhase.pending, ConnPhase.line]
  | resumed e response hphase =>
      rw [hphase] at hlate
      exact h.write (by rw [hphase]; rfl) rfl rfl fun hn => (hlate hn).elim
  | dropped e hphase hrunning =>
      rw [hphase] at hlate
      exact h.write (by rw [hphase]; rfl) rfl rfl fun hn => (hlate hn).elim
  | stateMarked hphase hsubscribed hflagged =>
      refine h.quiet (output_eq (by rw [hphase]; rfl) rfl rfl) ?_ fun _ honly => ?_
      · simp [Conn.begun, Conn.output, hphase, ConnPhase.pending, ConnPhase.line]
      · exact (htakes honly hphase).1 rfl
  | devicesMarked hphase hsubscribed hflagged =>
      refine h.quiet (output_eq (by rw [hphase]; rfl) rfl rfl) ?_ fun _ honly => ?_
      · simp [Conn.begun, Conn.output, hphase, ConnPhase.pending, ConnPhase.line]
      · exact (htakes honly hphase).2.1 rfl
  | stateBorrowed hphase =>
      rw [hphase] at hlate
      refine h.write (by rw [hphase]; rfl) rfl rfl fun hn => ⟨fun e he => ?_, fun honly => ?_⟩
      · cases he
      · exact absurd honly (hlate hn)
  | devicesBorrowed hphase =>
      rw [hphase] at hlate
      refine h.write (by rw [hphase]; rfl) rfl rfl fun hn => ⟨fun e he => ?_, fun honly => ?_⟩
      · cases he
      · exact absurd honly (hlate hn)
  | written origin response hphase =>
      refine h.quiet (output_written hphase rfl rfl) ?_ fun _ => trivial
      simp [Conn.begun, Conn.output, hphase, ConnPhase.pending, ConnPhase.line]
  | failed origin response hphase => exact h.quiet rfl (le_refl _) h.phase

end Refused

/-- A command that the machine did not live to answer ends in an error. -/
theorem step_daemonGone {e : Request × γ} (hgone : v.running = false) (hopen : c.closed = false)
    (hphase : c.phase = .sending e ∨ c.phase = .asking e) :
    ∃ progress c', c.step v progress = .ok c' ∧ c'.phase = .writing (some e) daemonGone := by
  rcases hphase with hphase | hphase
  · refine ⟨.send, c.reply e daemonGone, ?_, rfl⟩
    simp [Conn.step, hopen, hphase, hgone]
  · refine ⟨.resume, { c with ctrl := [] }.reply e daemonGone, ?_, rfl⟩
    simp [Conn.step, hopen, hphase, hgone]

end Conn

namespace Served

variable {p : Platform} {s s' : Served} {onlyCommands : Prop} {n : ℕ}

/-- The connection takes up no `GetState`, `Subscribe` or `ListDevices`, and no change. -/
def TakesCommand (s : Served) : ServedInput → Prop
  | .progress progress => s.conn.TakesCommand progress
  | _ => True

/-- Once the machine has ended, only the client and the connection go on. -/
theorem refused_step {input : ServedInput}
    (h : s.service.running = false ∧ s.conn.Refused onlyCommands n)
    (htakes : onlyCommands → s.TakesCommand input) (hstep : s.step p input = .ok s') :
    s'.service.running = false ∧ s'.conn.Refused onlyCommands n := by
  obtain ⟨hgone, hrefused⟩ := h
  cases input with
  | machine wake host => simp [Served.step, Service.wake, hgone] at hstep
  | control host =>
      simp only [Served.step] at hstep
      split at hstep
      · rename_i service conn hhandle
        cases hstep
        cases Conn.handle_cases hhandle with
        | handled _ _ _ _ _ _ hrunning _ =>
            rw [hgone] at hrunning
            cases hrunning
        | died _ _ _ => exact ⟨rfl, hrefused⟩
      · cases hstep
  | arrive line =>
      cases hstep
      exact ⟨hgone, hrefused.quiet rfl (le_refl _) hrefused.phase⟩
  | progress progress =>
      simp only [Served.step] at hstep
      split at hstep
      · rename_i conn hconn
        cases hstep
        exact ⟨hgone, hrefused.moved hgone htakes (Conn.step_cases hconn).2⟩
      · cases hstep

theorem refused_of_runIf (onlyCommands : Prop) {guard : Served → ServedInput → Prop}
    {more : List ServedInput} (hguard : onlyCommands → ∀ s input, guard s input → s.TakesCommand input)
    (hgone : s.service.running = false) (hmore : RunIf (step p) guard s more s') :
    s'.service.running = false ∧ s'.conn.Refused onlyCommands s.conn.begun :=
  hmore.invariant ⟨hgone, .self onlyCommands s.conn⟩
    fun _ input _ h hg hstep => refused_step h (fun honly => hguard honly _ input hg) hstep

/-- After the machine has ended, whatever the connection takes up: an answer is an error if and only if
its request is one for the machine. When only such requests are taken up, and no change, every line is
an error; and a command whose answer is owed gets an error. -/
theorem answers_after_end {more : List ServedInput} (hgone : s.service.running = false)
    (hmore : Run (step p) s more s') :
    (∀ e response, (some e, response) ∈ s'.conn.output.drop s.conn.begun →
      (response.isError = true ↔ e.1.control.isSome)) ∧
    (RunIf (step p) TakesCommand s more s' →
      ∀ line ∈ s'.conn.output.drop s.conn.begun, line.2.isError = true) ∧
    ∀ e, s'.conn.phase = .sending e ∨ s'.conn.phase = .asking e → s'.conn.closed = false →
      ∃ progress conn, s'.conn.step s'.service progress = .ok conn ∧
        conn.phase = .writing (some e) daemonGone := by
  obtain ⟨hgone', hrefused⟩ := refused_of_runIf False (fun h => h.elim) hgone hmore
  refine ⟨?_, ?_, ?_⟩
  · intro e response hmem
    exact (hrefused.lines _ hmem).1 e rfl
  · intro hrunIf line hmem
    have hstrict := (refused_of_runIf True (fun _ _ _ h => h) hgone hrunIf).2
    exact (hstrict.lines line hmem).2 trivial
  · intro e hphase hopen
    exact Conn.step_daemonGone hgone' hopen hphase

/-- A connection, and a machine that panics when it adds the grace period to the clock reading. -/
def demise : List ServedInput := [.progress .start, .machine (.control .arm) (Bench.host "c1")]

/-- A request that arrives, is dispatched and answered. -/
def ask (req : Request) (progress : List Progress) : List ServedInput :=
  [.arrive (.request req), .progress .line] ++ progress.map .progress ++ [.progress (.write true)]

theorem answers_after_end_getConfig : ∃ s s' : Served, s.service.running = false ∧
    (some (.getConfig, ()), daemonGone) ∈ s'.conn.output.drop s.conn.begun ∧
    (daemonGone.isError = true ↔ Request.getConfig.control.isSome) := by
  obtain ⟨s, hrun, hgone, s', hmore, hmem⟩ : ∃ s, Run (step Bench.platform)
      (start (Bench.boot Bench.patient "c1")) demise s ∧ s.service.running = false ∧
        ∃ s', Run (step Bench.platform) s (ask .getConfig [.send]) s' ∧
          (some (.getConfig, ()), daemonGone) ∈ s'.conn.output.drop s.conn.begun :=
    ⟨_, run_get (by decide +kernel), by decide +kernel, _, run_get (by decide +kernel),
      by decide +kernel⟩
  exact ⟨s, s', hgone, hmem, (answers_after_end hgone hmore).1 _ _ hmem⟩

/-- A daemon whose machine has ended still tells the state that it has published last. -/
theorem getState_answered_after_end :
    ¬∀ (p : Platform) (daemon : Daemon) (inputs more : List ServedInput) (s s' : Served),
      Run (step p) (start daemon) inputs s → s.service.running = false →
      Run (step p) s more s' →
      ∀ line ∈ s'.conn.output.drop s.conn.begun, line.2.isError = true := by
  intro h
  obtain ⟨s, hrun, hgone, s', hmore, hmem⟩ : ∃ s, Run (step Bench.platform)
      (start (Bench.boot Bench.patient "c1")) demise s ∧ s.service.running = false ∧
        ∃ s', Run (step Bench.platform) s (ask .getState []) s' ∧
          (some (.getState, ()), .state .idle) ∈ s'.conn.output.drop s.conn.begun :=
    ⟨_, run_get (by decide +kernel), by decide +kernel, _, run_get (by decide +kernel),
      by decide +kernel⟩
  exact absurd (h _ _ _ _ s s' hrun hgone hmore _ hmem) (by decide)

end Served

end AlertU
