import AlertU.MachineStep

/-! The steps of the machine, sorted by what they do to the guard and to the session. Most steps only
extend the log by plain actions; the others arm the guard, disarm it, find an event that the state
ignores, or install a configuration. -/

open FilePath Timing

namespace AlertU

/-- Neither an action of arming or disarming the guard nor a resolution of the session. -/
def Action.isPlain : Action → Bool
  | .handle .intrusion | .handle .countdownElapsed => true
  | .enter .triggered | .enter .alarm => true
  | .handle _ | .enter _ | .lockSession _ _ | .unlockSession _ _ | .resolved _ _ _ => false
  | _ => true

namespace Daemon

/-- The actions that the daemon has taken on the way to `next`. -/
def since (d next : Daemon) : List Action := next.log.drop d.log.length

/-- Whether the wake-up arms the guard. -/
def arms (d : Daemon) (wake : Wake) : Bool :=
  d.state = .idle ∧ (eventOf wake = some .toggle ∨ eventOf wake = some .forceArm)

variable {p : Platform} {host : Host} {d d' : Daemon} {wake : Wake}

theorem since_eq {actions : List Action} (hlog : d'.log = d.log ++ actions) :
    d.since d' = actions := by
  rw [since, hlog, List.drop_left]

/-- What a step does to the guard and to the session. -/
inductive Turn (p : Platform) (host : Host) (d : Daemon) : Wake → Daemon → Prop where
  | plain (wake : Wake) (d' : Daemon) (segment : List Action) (hlog : d'.log = d.log ++ segment)
      (hplain : segment.all Action.isPlain) (hstate : d'.state = .idle ↔ d.state = .idle)
      (hcfg : d'.cfg = d.cfg) (hsession : d'.session = d.session) : Turn p host d wake d'
  | ignored (wake : Wake) (event : Event) (hwake : eventOf wake = some event)
      (hignored : AlertU.decide d.state event = none) :
      Turn p host d wake (d.record (.handle event))
  | armed (wake : Wake) (event : Event) (graceUntil : Instant) (hwake : eventOf wake = some event)
      (hevent : event = .toggle ∨ event = .forceArm) (hstate : d.state = .idle) :
      Turn p host d wake (d.arming p host event graceUntil)
  | disarmed (wake : Wake) (event : Event) (hwake : eventOf wake = some event)
      (hevent : event.isDisarm) (hstate : d.state ≠ .idle) :
      Turn p host d wake (d.disarming host event)
  | installed (cfg : Config) (files : FileSystem) (hvalid : cfg.validate = .ok ())
      (hsaved : cfg.save p.toml host.disk d.files d.cfgPath = (.ok (), files)) :
      Turn p host d (.control (.setConfig cfg)) (d.installing p host cfg files)

theorem warning_isPlain (host : Host) (d : Daemon) (now : Instant) :
    (d.warning host now).1.all Action.isPlain := by
  rcases warning_fst host d now with hnone | ⟨_, hplay⟩
  · rw [hnone]
    rfl
  · rw [hplay]
    rfl

theorem StepResult.turn (hstep : StepResult p host d wake d') : Turn p host d wake d' := by
  cases hstep with
  | skipped _ _ _ => exact .plain _ _ [] (List.append_nil _).symm rfl Iff.rfl rfl rfl
  | ignored _ event hwake _ hignored => exact .ignored _ event hwake hignored
  | inGrace _ _ _ _ _ _ => exact .plain _ _ [] (List.append_nil _).symm rfl Iff.rfl rfl rfl
  | armed _ event graceUntil hwake hevent hstate _ =>
      exact .armed _ event graceUntil hwake hevent hstate
  | disarmed _ event hwake hevent hstate => exact .disarmed _ event hwake hevent hstate
  | intruded _ d₁ alarmDeadline _ hstate hgrace _ =>
      have hactive : d.state ≠ .idle := by simp [hstate]
      cases hgrace <;> exact .plain _ _ _ rfl rfl (by simp [intruding, hactive]) rfl rfl
  | ticked _ _ =>
      refine .plain _ _ _ rfl ?_ Iff.rfl rfl rfl
      rw [List.all_cons, warning_isPlain]
      rfl
  | sounded _ hstate _ _ =>
      have hactive : d.state ≠ .idle := by simp [hstate]
      refine .plain _ _ _ (List.append_assoc _ _ _) ?_ (by simp [sounding, hactive]) rfl rfl
      rw [List.all_append, List.all_cons, warning_isPlain]
      rfl
  | rescanned => exact .plain _ _ [] (List.append_nil _).symm rfl Iff.rfl rfl rfl
  | rejected _ _ _ _ => exact .plain _ _ [_] rfl rfl Iff.rfl rfl rfl
  | installed cfg files hvalid hsaved => exact .installed cfg files hvalid hsaved
  | replied => exact .plain _ _ [_] rfl rfl Iff.rfl rfl rfl
  | learned _ _ _ => exact .plain _ _ [_] rfl rfl Iff.rfl rfl rfl
  | refused _ _ _ => exact .plain _ _ [_] rfl rfl Iff.rfl rfl rfl
  | tested => exact .plain _ _ [_] rfl rfl Iff.rfl rfl rfl

theorem turn_of_step (h : d.step p (wake, host) = .ok d') : Turn p host d wake d' :=
  (step_cases h).turn

/-- Only an arming leaves `idle`. -/
theorem Turn.arms (hturn : Turn p host d wake d') (hstate : d.state = .idle)
    (hnext : d'.state ≠ .idle) : d.arms wake := by
  cases hturn with
  | plain _ _ _ _ _ hsame _ _ => exact absurd (hsame.mpr hstate) hnext
  | ignored _ _ _ _ => exact absurd hstate hnext
  | armed _ event _ hwake hevent _ => simpa [Daemon.arms, hstate, hwake] using hevent
  | disarmed _ _ _ _ _ => exact absurd rfl hnext
  | installed _ _ _ _ => exact absurd hstate hnext

end Daemon

end AlertU
