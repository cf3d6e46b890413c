import AlertU.MachineInvariant

/-! Where a handler panics. The only additions that can overflow are those of the grace period and of
the alarm delay: a configuration may hold any number of seconds that its file can store, and the
clock reading comes on top. -/

open FilePath Timing Runs

namespace AlertU

theorem plus_eq_panicked_iff {t : Instant} {delay : ℕ} :
    plus t delay = .error .panicked ↔ 2 ^ 63 ≤ (t.nanos + delay) / nanosPerSec := by
  rw [← Instant.checkedAdd_eq_none, plus]
  cases t.checkedAdd delay <;> simp

namespace Daemon

variable {p : Platform} {host : Host} {d : Daemon} {wake : Wake}

/-- The deadline that the wake-up is about to compute does not fit in an `Instant`: the grace period
at an arming, the alarm delay at an intrusion that the grace period lets pass. -/
def Overflows (p : Platform) (d : Daemon) (wake : Wake) : Prop :=
  (d.state = .idle ∧ (eventOf wake = some .toggle ∨ eventOf wake = some .forceArm) ∧
    2 ^ 63 ≤ ((p.clock.read d.reads).nanos + fromSecs d.cfg.gracePeriodSecs) / nanosPerSec) ∨
  (d.state = .armed ∧ eventOf wake = some .intrusion ∧
    (∀ graceUntil, d.graceUntil = some graceUntil → graceUntil ≤ p.clock.read d.reads) ∧
    2 ^ 63 ≤ ((p.clock.read (d.reads + 1)).nanos + fromSecs d.cfg.alarmDelaySecs) / nanosPerSec)

theorem map_eq_panicked_iff {α β : Type} {f : α → β} {r : Except Halt α} {e : Halt} :
    r.map f = .error e ↔ r = .error e := by
  cases r <;> simp [Except.map]

/-- Of the events that come without a guard of their own, only arming can panic. -/
theorem apply_eq_panicked_iff {event : Event} (hintrusion : event ≠ .intrusion)
    (hcountdown : event ≠ .countdownElapsed) :
    d.apply p host event = .error .panicked ↔
      d.state = .idle ∧ (event = .toggle ∨ event = .forceArm) ∧
        2 ^ 63 ≤ ((p.clock.read d.reads).nanos + fromSecs d.cfg.gracePeriodSecs) / nanosPerSec := by
  cases hdecide : AlertU.decide d.state event with
  | none =>
      rw [apply_ignored hdecide]
      refine ⟨nofun, fun h => ?_⟩
      rcases h with ⟨hstate, rfl | rfl, -⟩ <;> rw [hstate] at hdecide <;> cases hdecide
  | some tr =>
      rcases decide_cases hdecide with ⟨hstate, harm, -⟩ | ⟨hstate, hdisarm, -⟩ |
        ⟨hstate, rfl, -⟩ | ⟨-, rfl, -⟩ | ⟨-, rfl, -⟩
      · rw [apply_arm hstate harm, map_eq_panicked_iff, plus_eq_panicked_iff]
        simp [hstate, harm]
      · have hdisarm : event.isDisarm := by
          rcases hdisarm with rfl | rfl <;> rfl
        rw [apply_disarm hstate hdisarm]
        simp [hstate]
      · rw [apply_disarm hstate rfl]
        simp [hstate]
      · exact absurd rfl hintrusion
      · exact absurd rfl hcountdown

/-- The event of a wake-up that goes straight to `apply`. -/
theorem apply_overflows {event : Event} (hwake : eventOf wake = some event)
    (hintrusion : event ≠ .intrusion) (hcountdown : event ≠ .countdownElapsed) :
    d.apply p host event = .error .panicked ↔ d.Overflows p wake := by
  rw [apply_eq_panicked_iff hintrusion hcountdown, Overflows, hwake]
  simp [hintrusion]

theorem not_overflows (hwake : eventOf wake = none) : ¬d.Overflows p wake := by
  simp [Overflows, hwake]

theorem onInput_eq_panicked_iff (h : d.Consistent) {signal : InputSignal} :
    d.onInput p host signal = .error .panicked ↔ d.Overflows p (.input signal) := by
  cases signal with
  | remoteToggle => exact apply_overflows rfl (by simp) (by simp)
  | activity summary =>
      rw [onInput]
      split_ifs with hstate
      · rcases graceElapsed_cases (p := p) (d := d) with ⟨helapsed, hover⟩ |
          ⟨graceUntil, hgrace, hearly, helapsed⟩
        · rw [helapsed]
          simp only [apply_intrusion (hover.state.trans hstate), map_eq_panicked_iff,
            plus_eq_panicked_iff]
          obtain ⟨graceUntil, hgrace⟩ := Option.isSome_iff_exists.mp (h.grace.mpr (.inl hstate))
          generalize (d.graceElapsed p).2 = d₁ at hover
          cases hover with
          | unset hnone =>
              rw [hgrace] at hnone
              cases hnone
          | passed graceUntil' hsome hpassed => simp [Overflows, eventOf, hstate, hsome, hpassed]
        · rw [helapsed]
          simp [Overflows, eventOf, hstate, hgrace, hearly]
      · simp [Overflows, eventOf, hstate]

theorem onLock_eq_panicked_iff {locked : Bool} :
    d.onLock p host locked = .error .panicked ↔ d.Overflows p (.lock locked) := by
  rw [onLock]
  split_ifs with hguard
  · have hlocked : locked = false := by simpa using hguard.1
    subst hlocked
    exact apply_overflows rfl (by simp) (by simp)
  · cases locked <;> simp [Overflows, eventOf]

theorem onControl_eq_panicked_iff {ctrl : Control} :
    d.onControl p host ctrl = .error .panicked ↔ d.Overflows p (.control ctrl) := by
  cases ctrl with
  | toggle => exact apply_overflows rfl (by simp) (by simp)
  | arm => exact apply_overflows rfl (by simp) (by simp)
  | disarm => exact apply_overflows rfl (by simp) (by simp)
  | rescan | getConfig | learnRemote _ | testSound =>
      exact ⟨nofun, fun h => absurd h (not_overflows rfl)⟩
  | setConfig cfg =>
      rw [setConfig_eq]
      exact ⟨nofun, fun h => absurd h (not_overflows rfl)⟩

theorem onTimer_ne_panicked : d.onTimer p host ≠ .error .panicked := by
  by_cases hstate : d.state = .triggered
  · rw [onTimer_eq hstate]
    simp
  · rw [onTimer, if_pos hstate]
    simp

/-- A handler panics exactly where the deadline it computes does not fit. -/
theorem step_eq_panicked_iff (h : d.Consistent) :
    step p d (wake, host) = .error .panicked ↔ d.Overflows p wake := by
  cases wake with
  | input signal => exact onInput_eq_panicked_iff h
  | lock locked => exact onLock_eq_panicked_iff
  | control ctrl => exact onControl_eq_panicked_iff
  | timer => exact ⟨fun hpanic => absurd hpanic onTimer_ne_panicked,
      fun h => absurd h (not_overflows rfl)⟩
  | lockClosed => exact ⟨nofun, fun h => absurd h (not_overflows rfl)⟩
  | inputsClosed | controlsClosed => exact ⟨by simp [step], fun h => absurd h (not_overflows rfl)⟩

/-- From a consistent state on, the messages are handled without a panic if and only if no deadline
overflows. -/
theorem ne_panicked_iff (h : d.Consistent) {inputs : List (Wake × Host)} :
    inputs.foldlM (step p) d ≠ .error .panicked ↔
      ∀ before input after d', inputs = before ++ input :: after → Run (step p) d before d' →
        ¬d'.Overflows p input.1 := by
  have hconsistent : ∀ {before d'}, Run (step p) d before d' → d'.Consistent := fun hrun =>
    hrun.invariant h fun _ _ _ h _ hnext => h.step (step_cases hnext)
  rw [Ne, foldlM_eq_error_iff]
  constructor
  · intro hnone before input after d' hinputs hrun hoverflow
    exact hnone ⟨before, input, after, d', hinputs, hrun,
      (step_eq_panicked_iff (hconsistent hrun)).mpr hoverflow⟩
  · rintro hnone ⟨before, input, after, d', hinputs, hrun, hpanic⟩
    exact hnone before input after d' hinputs hrun
      ((step_eq_panicked_iff (hconsistent hrun)).mp hpanic)

/-- A daemon started under any configuration handles any messages without a panic if and only if no
message finds it in a state in which a deadline overflows. -/
theorem no_handler_panics_iff {files : FileSystem} {cfg : Config} {cfgPath : PathBuf}
    {privileges : Privileges} {inputs : List (Wake × Host)} :
    inputs.foldlM (step p) (start p host files cfg cfgPath privileges) ≠ .error .panicked ↔
      ∀ before input after d, inputs = before ++ input :: after →
        Run (step p) (start p host files cfg cfgPath privileges) before d →
        ¬d.Overflows p input.1 :=
  ne_panicked_iff (.start files cfg cfgPath privileges)

/-- The largest grace period that the file can store passes the validation, and the first arming
under it panics. -/
theorem patient_arming_panics :
    ¬∀ (p : Platform) (host : Host) (files : FileSystem) (cfg : Config) (cfgPath : PathBuf)
        (privileges : Privileges) (inputs : List (Wake × Host)),
      (∀ n, nanosPerSec ≤ (p.clock.read n).nanos) → cfg.validate = .ok () →
      (cfg.save p.toml host.disk files cfgPath).1 = .ok () →
      inputs.foldlM (step p) (start p host files cfg cfgPath privileges) ≠ .error .panicked := by
  intro h
  refine h Bench.platform (Bench.host "c1") ⟨fun _ => none⟩ Bench.patient
    ⟨"/etc/alertu/config.toml"⟩ ⟨none⟩ [(.control .arm, Bench.host "c1")] ?_ rfl ?_ ?_
  · intro n
    exact Nat.le_mul_of_pos_left _ (Nat.succ_pos _)
  · decide +kernel
  · rfl

end Daemon

end AlertU
