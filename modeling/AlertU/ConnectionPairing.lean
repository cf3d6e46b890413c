import AlertU.ConnectionPush

/-! Pairing and the connection that has asked for it. The machine hands the request to a detached window
and goes on, but `dispatch` awaits the window inside the `select!`: until the answer comes, the
connection neither takes a line nor pushes a change. -/

open FilePath Channel Runs

namespace AlertU

namespace Conn

variable {γ : Type} {p : Platform} {host : Host} {v v' : Service} {c c' : Conn γ}
  {progress : Progress}

/-- A `LearnRemote` is being dispatched, and has not been answered yet. -/
def pairing (c : Conn γ) : Bool :=
  match c.phase with
  | .sending e | .asking e | .listening e _ => e.1.isLearnRemote
  | _ => false

/-- As long as the answer has not come, the task of the connection takes no line and writes nothing. -/
theorem Moved.stalled (h : Moved v c progress c') (hbefore : c.pairing) (hafter : c'.pairing) :
    c'.output = c.output ∧ c'.lines = c.lines := by
  cases h with
  | asked e hphase hrunning hexpects => exact ⟨output_eq (by rw [hphase]; rfl) rfl rfl, rfl⟩
  | hungUp hphase | failed origin response hphase =>
      simp [pairing, hphase] at hbefore
  | blank tag rest hphase hlines => simp [pairing, hphase] at hbefore
  | dispatched e rest hphase hlines hcontrol => simp [pairing, hphase] at hbefore
  | _ => cases hafter

theorem Handled.lines (h : Handled p host v c v' c') : c'.lines = c.lines := by
  cases h <;> rfl

end Conn

namespace Served

variable {p : Platform} {s s' : Served}

/-- Before the pairing window ends, a line that has been received can still be dispatched, and a state
change that is flagged can still be pushed to a subscriber. -/
structure Responsive (p : Platform) (s : Served) : Prop where
  dispatches : s.conn.lines ≠ [] → ∃ inputs s', RunIf (step p) (fun s _ => s.conn.pairing) s inputs s' ∧
    s'.conn.pairing ∧ ¬s.conn.lines <+: s'.conn.lines
  pushes : s.conn.subscribed = true → s.service.daemon.stateTx.flagged s.conn.stateRx →
    ∃ inputs s', RunIf (step p) (fun s _ => s.conn.pairing) s inputs s' ∧ s'.conn.pairing ∧
      ∃ state, (none, .stateChanged state) ∈ s'.conn.output.drop s.conn.output.length

/-- What a step does to the connection while the answer is awaited. -/
theorem step_stalled {input : ServedInput} (hstep : s.step p input = .ok s')
    (hbefore : s.conn.pairing) (hafter : s'.conn.pairing) :
    s'.conn.output = s.conn.output ∧ s.conn.lines <+: s'.conn.lines := by
  cases input with
  | machine wake host =>
      simp only [Served.step] at hstep
      split at hstep
      · cases hstep
        exact ⟨rfl, List.prefix_rfl⟩
      · cases hstep
  | control host =>
      simp only [Served.step] at hstep
      split at hstep
      · rename_i service conn hhandle
        cases hstep
        have hhandled := Conn.handle_cases hhandle
        exact ⟨hhandled.output, by rw [hhandled.lines]⟩
      · cases hstep
  | arrive line =>
      cases hstep
      exact ⟨rfl, List.prefix_append _ _⟩
  | progress progress =>
      simp only [Served.step] at hstep
      split at hstep
      · rename_i conn hconn
        cases hstep
        obtain ⟨houtput, hlines⟩ := (Conn.step_cases hconn).2.stalled hbefore hafter
        exact ⟨houtput, by rw [hlines]⟩
      · cases hstep

/-- Until the answer comes, whatever happens elsewhere, the lines wait and nothing is written. -/
theorem run_stalled {inputs : List ServedInput}
    (hrun : RunIf (step p) (fun s _ => s.conn.pairing) s inputs s') (hafter : s'.conn.pairing) :
    s'.conn.output = s.conn.output ∧ s.conn.lines <+: s'.conn.lines := by
  induction hrun with
  | nil => exact ⟨rfl, List.prefix_rfl⟩
  | snoc _ hpairing hnext ih =>
      obtain ⟨houtput, hlines⟩ := ih hpairing
      obtain ⟨houtput', hlines'⟩ := step_stalled hnext hpairing hafter
      exact ⟨houtput'.trans houtput, hlines.trans hlines'⟩

/-- A connection whose pairing window is open stays responsive exactly if there is nothing to respond to:
no line to dispatch and no change to push. -/
theorem responsive_while_pairing_iff : s.Responsive p ↔
    s.conn.lines = [] ∧
      (s.conn.subscribed = true → s.service.daemon.stateTx.flagged s.conn.stateRx = false) := by
  constructor
  · intro h
    constructor
    · by_contra hlines
      obtain ⟨inputs, s', hrun, hafter, htaken⟩ := h.dispatches hlines
      exact htaken (run_stalled hrun hafter).2
    · intro hsubscribed
      by_contra hflagged
      obtain ⟨inputs, s', hrun, hafter, state, hpushed⟩ :=
        h.pushes hsubscribed (by simpa using hflagged)
      rw [(run_stalled hrun hafter).1, List.drop_length] at hpushed
      cases hpushed
  · rintro ⟨hlines, hquiet⟩
    refine ⟨fun hne => absurd hlines hne, fun hsubscribed hflagged => ?_⟩
    rw [hquiet hsubscribed] at hflagged
    cases hflagged

/-- A subscriber asks for a pairing window of thirty seconds, and the window opens. -/
def openWindow : List ServedInput :=
  .progress .start :: exchange .subscribe ++ [.arrive (.request (.learnRemote 30)), .progress .line,
    .progress .send, .control Bench.remoteHost]

/-- The guard is armed by another client, and the client that pairs wants it disarmed. -/
def armedMeanwhile : List ServedInput :=
  [.machine (.control .arm) Bench.remoteHost, .arrive (.request .disarm)]

/-- While its pairing window is open, the connection cannot dispatch a `Disarm` that it has received. -/
theorem pairing_blocks_disarm :
    ¬∀ (p : Platform) (host : Host) (files : FileSystem) (cfg : Config) (cfgPath : PathBuf)
        (privileges : Privileges) (inputs : List ServedInput) (s : Served),
      Run (step p) (start (.start p host files cfg cfgPath privileges)) inputs s →
      s.conn.pairing → s.Responsive p := by
  intro h
  obtain ⟨s, hrun, hpairing, hlines⟩ : ∃ s, Run (step Bench.platform)
      (start (Bench.boot .default "c1")) (openWindow ++ armedMeanwhile) s ∧
      s.conn.pairing = true ∧ s.conn.lines = [(.request .disarm, ())] :=
    ⟨_, run_get (by decide +kernel), by decide +kernel⟩
  have hlines' : s.conn.lines ≠ [] := by simp [hlines]
  obtain ⟨inputs, s', hrun', hafter, htaken⟩ :=
    (h _ _ _ _ _ _ _ s hrun hpairing).dispatches hlines'
  exact htaken (run_stalled hrun' hafter).2

end Served

end AlertU
