import AlertU.Bench
import AlertU.FrontEndStep
import AlertU.Runs

/-! The item of the menu that arms or disarms. Its label is computed from the state that the tray shows,
but what it sends is `Toggle`, which the machine decides by its own state when the request arrives. -/

open FilePath Runs

namespace AlertU

namespace Daemon

variable {p : Platform} {host : Host} {d d' : Daemon}

/-- A `Toggle` that is handled arms an idle guard and disarms any other. -/
theorem toggle_state (h : d.step p (.control .toggle, host) = .ok d') :
    d'.state = if d.state = .idle then .armed else .idle := by
  change d.apply p host .toggle = .ok d' at h
  by_cases hstate : d.state = .idle
  · rw [apply_arm hstate (.inl rfl)] at h
    obtain ⟨graceUntil, -, rfl⟩ := map_eq_ok h
    rw [if_pos hstate]
    rfl
  · rw [apply_disarm hstate rfl] at h
    cases h
    rw [if_neg hstate]
    rfl

end Daemon

namespace Deed

/-- A click on `Disarm` does not arm an idle guard, and a click on `Arm` does not end an active state. -/
def AsLabelled : Deed → Prop
  | .toggled shown before after =>
      (Tray.toggleLabel shown = "Disarm" → ¬(before = .idle ∧ after = .armed)) ∧
        (Tray.toggleLabel shown = "Arm" → ¬(before.isActive ∧ after = .idle))
  | _ => True

/-- When the machine handles the click, it is idle exactly if the tray showed that. -/
def ShownRight : Deed → Prop
  | .toggled shown before _ => shown = .idle ↔ before = .idle
  | _ => True

instance : DecidablePred ShownRight
  | .toggled shown before _ => inferInstanceAs (Decidable (shown = .idle ↔ before = .idle))
  | .fetched _ | .pressed _ | .applied _ _ _ | .replied _ _ | .lost _ =>
      inferInstanceAs (Decidable True)

/-- The machine decides by its own state. -/
def Decided : Deed → Prop
  | .toggled _ before after => after = if before = .idle then .armed else .idle
  | _ => True

theorem Decided.asLabelled_iff {deed : Deed} (h : deed.Decided) :
    deed.AsLabelled ↔ deed.ShownRight := by
  cases deed with
  | toggled shown before after =>
      change after = _ at h
      subst h
      cases shown <;> cases before <;>
        simp [AsLabelled, ShownRight, Tray.toggleLabel, GuardState.isActive]
  | _ => exact Iff.rfl

end Deed

/-- What becomes of the `Toggle` of a connection. -/
theorem Conn.Handled.toggle {γ : Type} {p : Platform} {host : Host} {v v' : Service} {c c' : Conn γ}
    {tag : γ} {rest : List (Request × γ)} (h : Handled p host v c v' c')
    (hctrl : c.ctrl = (.toggle, tag) :: rest) (hrunning : v'.running = true) :
    v'.daemon.state = if v.daemon.state = .idle then .armed else .idle := by
  cases h with
  | handled e rest ctrl next hctrl' hcontrol hrunning' hstep =>
      rw [hctrl] at hctrl'
      cases hctrl'
      cases hcontrol
      exact Daemon.toggle_state hstep
  | died e rest hctrl' => cases hrunning

namespace FrontEnd

variable {p : Platform} {s s' : FrontEnd}

/-- The daemon answers the first line of the session's connection at once. -/
def answerAtOnce : List FrontEndInput := [.progress .link .line, .progress .link (.write true)]

/-- The daemon dispatches the first line of the session's connection to the machine. -/
def dispatch : List FrontEndInput :=
  [.progress .link .line, .progress .link .send, .control .link Bench.remoteHost]

/-- The tray connects, and receives what it has requested. -/
def synchronise : List FrontEndInput :=
  .connect :: .progress .link .start :: answerAtOnce ++ dispatch ++
    [.progress .link .resume, .progress .link (.write true)] ++ answerAtOnce ++ [.read, .read, .read]

/-- The tray writes its request, and the machine handles it. -/
def deliver : List FrontEndInput := .write true :: dispatch

theorem noted_decided {deed : Deed} (h : Noted p s s' deed) : deed.Decided := by
  cases h with
  | handled conn conn' host e rest deed hconn hctrl hhandled hdeed =>
      obtain ⟨req, origin⟩ := e
      rcases deeds_cases hdeed with ⟨hrequest, hrunning, rfl⟩ | ⟨cfg, -, rfl⟩
      · cases hrequest
        exact hhandled.toggle hctrl hrunning
      · trivial
  | _ => trivial

theorem decided_step {input : FrontEndInput} (h : ∀ deed ∈ s.history, deed.Decided)
    (hstep : s.step p input = .ok s') : ∀ deed ∈ s'.history, deed.Decided := by
  intro deed hmem
  rcases (step_cases hstep).noted hmem with hmem | hnoted
  · exact h deed hmem
  · exact noted_decided hnoted

/-- Every click does what its label says, exactly if the tray showed each time whether the machine would
be idle. -/
theorem toggle_as_labelled_iff {host : Host} {files : FileSystem} {cfg : Config} {cfgPath : PathBuf}
    {privileges : Privileges} {inputs : List FrontEndInput}
    (hrun : Run (step p) (start (.start p host files cfg cfgPath privileges)) inputs s) :
    (∀ deed ∈ s.history, deed.AsLabelled) ↔ ∀ deed ∈ s.history, deed.ShownRight := by
  have h : ∀ deed ∈ s.history, deed.Decided := hrun.invariant (List.forall_mem_nil _)
    fun _ _ _ h _ hnext => decided_step h hnext
  constructor
  · intro hlabelled deed hmem
    exact (h deed hmem).asLabelled_iff.mp (hlabelled deed hmem)
  · intro hright deed hmem
    exact (h deed hmem).asLabelled_iff.mpr (hright deed hmem)

theorem toggle_as_labelled_iff_in_step :
    ∃ s : FrontEnd, .toggled .idle .idle .armed ∈ s.history ∧ ∀ deed ∈ s.history, deed.AsLabelled := by
  obtain ⟨s, hrun, hmem, hright⟩ : ∃ s, Run (step Bench.platform)
      (start (Bench.boot .default "c1")) (synchronise ++ .toggle :: deliver) s ∧
      .toggled .idle .idle .armed ∈ s.history ∧ ∀ deed ∈ s.history, deed.ShownRight :=
    ⟨_, run_get (by decide +kernel), by decide +kernel⟩
  exact ⟨s, hmem, (toggle_as_labelled_iff hrun).mpr hright⟩

/-- Another client arms the guard, and the tray, which still shows the idle state, disarms it with a
click on `Arm`. -/
theorem stale_arm_disarms :
    ¬∀ (p : Platform) (host : Host) (files : FileSystem) (cfg : Config) (cfgPath : PathBuf)
        (privileges : Privileges) (inputs : List FrontEndInput) (s : FrontEnd),
      Run (step p) (start (.start p host files cfg cfgPath privileges)) inputs s →
      ∀ deed ∈ s.history, deed.AsLabelled := by
  intro h
  obtain ⟨s, hrun, hmem⟩ : ∃ s, Run (step Bench.platform) (start (Bench.boot .default "c1"))
      (synchronise ++ .machine (.control .arm) (Bench.host "c1") :: .toggle :: deliver) s ∧
      .toggled .idle .armed .idle ∈ s.history :=
    ⟨_, run_get (by decide +kernel), by decide +kernel⟩
  exact (h _ _ _ _ _ _ _ s hrun _ hmem).2 rfl ⟨rfl, rfl⟩

end FrontEnd

end AlertU
