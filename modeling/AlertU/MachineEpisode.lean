import AlertU.Episode
import AlertU.MachineInvariant

/-! The machine refines the episode automaton: whatever it is sent, its log is one that `Episode.read`
accepts. So every alarm ends a countdown that has run out inside an episode that has not been
disarmed; and nothing but a disarming event keeps a countdown from ending there. -/

open FilePath Timing Runs

namespace AlertU.Daemon

variable {p : Platform} {host : Host} {d d' : Daemon} {wake : Wake}

/-- How far the machine has got in the episode that its log ends in. -/
structure InEpisode (d : Daemon) (e : Episode) : Prop where
  cfg : d.cfg = e.cfg
  idle : d.state = .idle → e.phase = .idle
  armed : d.state = .armed → ∃ armedAt grace struck graceUntil,
    e.phase = .armed armedAt grace struck ∧ d.graceUntil = some graceUntil ∧
      graceUntil.nanos = armedAt.nanos + fromSecs grace
  triggered : d.state = .triggered → ∃ c woken alarmAt, e.phase = .counting c woken ∧
    d.alarmDeadline = some alarmAt ∧ alarmAt.nanos = c.deadline
  alarm : d.state = .alarm → ∃ c now hdue, e.phase = .sounding c now hdue .entered

/-- A segment of the log that the automaton reads, and what it leads to. -/
def ReadsTo (d d' : Daemon) (e : Episode) : Prop :=
  ∃ segment e', d'.log = d.log ++ segment ∧ Run Episode.read e segment e' ∧ d'.InEpisode e'

theorem InEpisode.congr {e : Episode} (h : d.InEpisode e) (hcfg : d'.cfg = d.cfg)
    (hstate : d'.state = d.state) (hgrace : d'.graceUntil = d.graceUntil)
    (hdeadline : d'.alarmDeadline = d.alarmDeadline) : d'.InEpisode e := by
  refine ⟨hcfg.trans h.cfg, ?_, ?_, ?_, ?_⟩
  · rw [hstate]
    exact h.idle
  · rw [hstate, hgrace]
    exact h.armed
  · rw [hstate, hdeadline]
    exact h.triggered
  · rw [hstate]
    exact h.alarm

theorem ReadsTo.of_foldlM {e : Episode} (e' : Episode) (segment : List Action)
    (hlog : d'.log = d.log ++ segment) (hread : segment.foldlM Episode.read e = .ok e')
    (h : d'.InEpisode e') : d.ReadsTo d' e :=
  ⟨segment, e', hlog, run_iff_foldlM.mpr hread, h⟩

theorem ReadsTo.refl {e : Episode} (h : d'.InEpisode e) (hlog : d'.log = d.log) :
    d.ReadsTo d' e :=
  ⟨[], e, by rw [hlog, List.append_nil], .nil, h⟩

namespace InEpisode

variable {e : Episode}

theorem start (files : FileSystem) (cfg : Config) (cfgPath : PathBuf) (privileges : Privileges) :
    ∃ e, Run Episode.read ⟨cfg, .idle⟩ (Daemon.start p host files cfg cfgPath privileges).log e ∧
      (Daemon.start p host files cfg cfgPath privileges).InEpisode e :=
  ⟨⟨cfg, .idle⟩, run_iff_foldlM.mpr rfl, rfl, fun _ => rfl, nofun, nofun, nofun⟩

/-- One action that the automaton passes over. -/
theorem record (h : d.InEpisode e) (action : Action) (hread : e.read action = .ok e) :
    d.ReadsTo (d.record action) e := by
  refine .of_foldlM e [action] rfl ?_ (h.congr rfl rfl rfl rfl)
  rw [List.foldlM_cons, hread]
  rfl

/-- An event that the transition table ignores means nothing to the episode either. -/
theorem ignored (h : d.InEpisode e) {event : Event} (hevent : event ≠ .intrusion)
    (hignored : AlertU.decide d.state event = none) : d.ReadsTo (d.record (.handle event)) e := by
  have hhandle : e.phase.handle event = e.phase := by
    by_cases hdisarm : event.isDisarm
    · by_cases hstate : d.state = .idle
      · rw [h.idle hstate, Phase.handle_idle]
      · obtain ⟨effects, hdecide⟩ := decide_isDisarm hstate hdisarm
        rw [hdecide] at hignored
        cases hignored
    · exact Phase.handle_of_ne _ hdisarm hevent
  apply h.record
  rw [Episode.read_handle, hhandle]

theorem arming (h : d.InEpisode e) {event : Event} {graceUntil : Instant} (hstate : d.state = .idle)
    (hplus : plus (p.clock.read d.reads) (fromSecs d.cfg.gracePeriodSecs) = .ok graceUntil) :
    d.ReadsTo (d.arming p host event graceUntil) e := by
  obtain ⟨cfg, phase⟩ := e
  have hcfg : d.cfg = cfg := h.cfg
  have hidle : phase = .idle := h.idle hstate
  subst hcfg hidle
  refine .of_foldlM ⟨d.cfg, .armed (p.clock.read d.reads) d.cfg.gracePeriodSecs false⟩ _
    rfl ?_ ⟨rfl, nofun, fun _ => ?_, nofun, nofun⟩
  · simp [Episode.read_enter]
  · exact ⟨_, _, _, graceUntil, rfl, rfl, plus_eq_ok hplus⟩

theorem disarming (h : d.InEpisode e) {event : Event} (hevent : event.isDisarm) :
    d.ReadsTo (d.disarming host event) e := by
  refine .of_foldlM ⟨e.cfg, .idle⟩ _ (List.append_assoc _ _ _) ?_
    ⟨h.cfg, fun _ => rfl, nofun, nofun, nofun⟩
  unfold unlockActions
  split_ifs <;> simp [Episode.read_enter, Phase.handle_disarm _ hevent]

/-- An intrusion gets through only once the grace period of the episode has passed. -/
theorem intruding (h : d.InEpisode e) {d₁ : Daemon} {alarmDeadline : Instant}
    (hstate : d.state = .armed) (hgrace : GraceOver p d d₁)
    (hplus : plus (p.clock.read d₁.reads) (fromSecs d₁.cfg.alarmDelaySecs) = .ok alarmDeadline) :
    d.ReadsTo (d₁.intruding p alarmDeadline) e := by
  obtain ⟨cfg, phase⟩ := e
  obtain ⟨armedAt, grace, struck, graceUntil, hphase, huntil, hnanos⟩ := h.armed hstate
  have hcfg : d.cfg = cfg := h.cfg
  subst hcfg
  cases hgrace with
  | unset hnone =>
      rw [huntil] at hnone
      cases hnone
  | passed graceUntil' hsome hpassed =>
      have hpast : armedAt.nanos + fromSecs grace ≤ (p.clock.read (d.reads + 1)).nanos := by
        rw [huntil] at hsome
        cases hsome
        rw [← hnanos]
        exact le_trans hpassed (p.clock.mono (Nat.le_succ _))
      refine .of_foldlM ⟨d.cfg, .counting ⟨armedAt, grace, p.clock.read (d.reads + 1),
        d.cfg.alarmDelaySecs, hpast⟩ none⟩ _ rfl ?_ ⟨rfl, nofun, nofun, fun _ => ?_, nofun⟩
      · have hstruck : phase.handle .intrusion = .armed armedAt grace true := by
          change phase = .armed armedAt grace struck at hphase
          rw [hphase]
          rfl
        simp [hstruck, Episode.read_enter, Episode.read_startCountdown _ _ hpast]
      · exact ⟨_, _, alarmDeadline, rfl, rfl, plus_eq_ok hplus⟩

/-- A timer wake-up that is too early for the alarm. -/
theorem ticking (h : d.InEpisode e) (p : Platform) (host : Host) (hstate : d.state = .triggered) :
    ∃ c woken, e.phase = .counting c woken ∧
      Run Episode.read e (.wake (p.clock.read d.reads) :: (d.warning host (p.clock.read d.reads)).1)
        ⟨e.cfg, .counting c (some (p.clock.read d.reads))⟩ ∧
      (d.ticking p host).InEpisode ⟨e.cfg, .counting c (some (p.clock.read d.reads))⟩ := by
  obtain ⟨c, woken, alarmAt, hphase, hdeadline, hnanos⟩ := h.triggered hstate
  refine ⟨c, woken, hphase, ?_, h.cfg, ?_, ?_, ?_, ?_⟩
  · rw [run_iff_foldlM, List.foldlM_cons]
    have hread : e.read (.wake (p.clock.read d.reads)) =
        .ok ⟨e.cfg, .counting c (some (p.clock.read d.reads))⟩ := by
      obtain ⟨cfg, phase⟩ := e
      change phase = .counting c woken at hphase
      rw [hphase, Episode.read_wake]
    rw [hread, ok_bind]
    rcases warning_fst host d (p.clock.read d.reads) with hnone | ⟨_, hplay⟩
    · rw [hnone]
      rfl
    · rw [hplay]
      rfl
  · exact fun hidle => absurd (hstate.symm.trans hidle) (by decide)
  · exact fun harmed => absurd (hstate.symm.trans harmed) (by decide)
  · exact fun _ => ⟨c, _, alarmAt, rfl, hdeadline, hnanos⟩
  · exact fun halarm => absurd (hstate.symm.trans halarm) (by decide)

theorem sounding (h : d.InEpisode e) {alarmAt : Instant} (hstate : d.state = .triggered)
    (hdeadline : d.alarmDeadline = some alarmAt) (hdue : alarmAt ≤ p.clock.read d.reads) :
    d.ReadsTo ((d.ticking p host).sounding host) e := by
  obtain ⟨c, woken, hphase, hrun, hticked⟩ := h.ticking p host hstate
  have hpast : c.deadline ≤ (p.clock.read d.reads).nanos := by
    obtain ⟨c', woken', alarmAt', hphase', hdeadline', hnanos⟩ := h.triggered hstate
    rw [hphase] at hphase'
    rw [hdeadline] at hdeadline'
    cases hphase'
    cases hdeadline'
    rw [← hnanos]
    exact hdue
  have halarm (siren webhook : Option Command) (snapshot : Config) (privileges : Privileges) :
      Run Episode.read ⟨e.cfg, .counting c (some (p.clock.read d.reads))⟩
        (.handle .countdownElapsed :: .clearTimers :: [.startSiren siren,
          .snapshot snapshot privileges, .webhook webhook, .enter .alarm])
        ⟨e.cfg, .sounding c _ hpast .entered⟩ := by
    rw [run_iff_foldlM, List.foldlM_cons, Episode.read_handle, ok_bind, List.foldlM_cons,
      Episode.read_clearTimers, ok_bind]
    exact Episode.read_alarm _ _ _ hpast _ _ _ _
  exact ⟨_, _, List.append_assoc _ _ _, hrun.trans (halarm _ _ _ _), h.cfg, nofun, nofun, nofun,
    fun _ => ⟨c, _, hpast, rfl⟩⟩

theorem installing (h : d.InEpisode e) (cfg : Config) (files : FileSystem) :
    d.ReadsTo (d.installing p host cfg files) e := by
  refine .of_foldlM ⟨cfg, e.phase⟩ _ rfl (by simp) ⟨rfl, ?_, ?_, ?_, ?_⟩
  · exact h.idle
  · exact h.armed
  · exact h.triggered
  · exact h.alarm

/-- Every outcome of a wake-up extends the log by what the automaton can read. -/
theorem step (h : d.InEpisode e) (hstep : StepResult p host d wake d') : d.ReadsTo d' e := by
  cases hstep with
  | skipped _ _ _ => exact .refl h rfl
  | ignored _ event _ hevent hignored => exact h.ignored hevent hignored
  | inGrace _ _ _ _ _ _ => exact .refl (h.congr rfl rfl rfl rfl) rfl
  | armed _ event graceUntil _ _ hstate hplus => exact h.arming hstate hplus
  | disarmed _ event _ hevent _ => exact h.disarming hevent
  | intruded _ d₁ alarmDeadline _ hstate hgrace hplus => exact h.intruding hstate hgrace hplus
  | ticked hstate _ =>
      obtain ⟨_, _, _, hrun, hticked⟩ := h.ticking _ _ hstate
      exact ⟨_, _, rfl, hrun, hticked⟩
  | sounded alarmAt hstate hdeadline hdue => exact h.sounding hstate hdeadline hdue
  | rescanned => exact .refl (h.congr rfl rfl rfl rfl) rfl
  | rejected _ message files _ =>
      exact .of_foldlM e [_] rfl (by simp) (h.congr rfl rfl rfl rfl)
  | installed cfg files _ _ => exact h.installing cfg files
  | replied => exact h.record _ rfl
  | learned _ _ _ => exact h.record _ rfl
  | refused _ _ _ => exact h.record _ rfl
  | tested => exact h.record _ rfl

end InEpisode

/-- The log of a run is a log of the episode automaton. -/
theorem reads_log {files : FileSystem} {cfg : Config} {cfgPath : PathBuf}
    {privileges : Privileges} {inputs : List (Wake × Host)}
    (hrun : Run (step p) (start p host files cfg cfgPath privileges) inputs d) :
    ∃ e, Run Episode.read ⟨cfg, .idle⟩ d.log e ∧ d.InEpisode e :=
  hrun.refines InEpisode (fun d => d.log) (InEpisode.start files cfg cfgPath privileges)
    fun _ _ _ _ h _ hnext => h.step (step_cases hnext)

/-! ### The end of a countdown -/

/-- Whether a wake-up delivers a disarming event. -/
def disarms (wake : Wake) : Bool := (eventOf wake).any Event.isDisarm

theorem not_isDisarm {event : Event} (hwake : eventOf wake = some event) (h : ¬disarms wake) :
    ¬event.isDisarm := by
  simpa [disarms, hwake] using h

/-- A countdown to `alarmAt` that is still running after `segment`. -/
def StillCounting (d : Daemon) (alarmAt : Instant) (segment : List Action) : Prop :=
  d.state = .triggered ∧ d.alarmDeadline = some alarmAt ∧ ∀ now, .wake now ∈ segment → now < alarmAt

/-- Short of a disarming event, one step either leaves the countdown as it is or ends it in the
alarm. -/
theorem triggered_step {alarmAt : Instant} (hstate : d.state = .triggered)
    (hdeadline : d.alarmDeadline = some alarmAt) (hwake : ¬disarms wake)
    (hstep : StepResult p host d wake d') :
    ∃ segment, d'.log = d.log ++ segment ∧
      (d'.StillCounting alarmAt segment ∨ d'.state = .alarm) := by
  cases hstep with
  | skipped _ _ _ => exact ⟨[], (List.append_nil _).symm, .inl ⟨hstate, hdeadline, nofun⟩⟩
  | ignored _ event _ _ _ => exact ⟨[_], rfl, .inl ⟨hstate, hdeadline, by simp⟩⟩
  | inGrace _ _ _ harmed _ _ => exact absurd (hstate.symm.trans harmed) (by decide)
  | armed _ _ _ _ _ hidle _ => exact absurd (hstate.symm.trans hidle) (by decide)
  | disarmed _ event hevent hdisarm _ => exact absurd hdisarm (not_isDisarm hevent hwake)
  | intruded _ _ _ _ harmed _ _ => exact absurd (hstate.symm.trans harmed) (by decide)
  | ticked _ hearly =>
      refine ⟨_, rfl, .inl ⟨hstate, hdeadline, fun now hmem => ?_⟩⟩
      rcases List.mem_cons.mp hmem with hnow | hmem
      · cases hnow
        exact hearly alarmAt hdeadline
      · rcases warning_fst host d (p.clock.read d.reads) with hnone | ⟨_, hplay⟩
        · rw [hnone] at hmem
          cases hmem
        · rw [hplay, List.mem_singleton] at hmem
          cases hmem
  | sounded _ _ _ _ => exact ⟨_, List.append_assoc _ _ _, .inr rfl⟩
  | rescanned => exact ⟨[], (List.append_nil _).symm, .inl ⟨hstate, hdeadline, nofun⟩⟩
  | rejected _ _ _ _ => exact ⟨[_], rfl, .inl ⟨hstate, hdeadline, by simp⟩⟩
  | installed _ _ _ _ => exact ⟨_, rfl, .inl ⟨hstate, hdeadline, by simp⟩⟩
  | replied => exact ⟨[_], rfl, .inl ⟨hstate, hdeadline, by simp⟩⟩
  | learned _ _ hidle => exact absurd (hstate.symm.trans hidle) (by decide)
  | refused _ _ _ => exact ⟨[_], rfl, .inl ⟨hstate, hdeadline, by simp⟩⟩
  | tested => exact ⟨[_], rfl, .inl ⟨hstate, hdeadline, by simp⟩⟩

/-- Short of a disarming event the alarm goes on. -/
theorem alarm_step (hstate : d.state = .alarm) (hwake : ¬disarms wake)
    (hstep : StepResult p host d wake d') : d'.state = .alarm ∧ ∃ segment, d'.log = d.log ++ segment := by
  cases hstep with
  | skipped _ _ _ => exact ⟨hstate, [], (List.append_nil _).symm⟩
  | ignored _ event _ _ _ => exact ⟨hstate, _, rfl⟩
  | inGrace _ _ _ harmed _ _ => exact absurd (hstate.symm.trans harmed) (by decide)
  | armed _ _ _ _ _ hidle _ => exact absurd (hstate.symm.trans hidle) (by decide)
  | disarmed _ event hevent hdisarm _ => exact absurd hdisarm (not_isDisarm hevent hwake)
  | intruded _ _ _ _ harmed _ _ => exact absurd (hstate.symm.trans harmed) (by decide)
  | ticked htriggered _ => exact absurd (hstate.symm.trans htriggered) (by decide)
  | sounded _ htriggered _ _ => exact absurd (hstate.symm.trans htriggered) (by decide)
  | rescanned => exact ⟨hstate, [], (List.append_nil _).symm⟩
  | rejected _ _ _ _ => exact ⟨hstate, _, rfl⟩
  | installed _ _ _ _ => exact ⟨hstate, _, rfl⟩
  | replied => exact ⟨hstate, _, rfl⟩
  | learned _ _ _ => exact ⟨hstate, _, rfl⟩
  | refused _ _ _ => exact ⟨hstate, _, rfl⟩
  | tested => exact ⟨hstate, _, rfl⟩

theorem triggered_run {alarmAt : Instant} {more : List (Wake × Host)} {d₁ : Daemon}
    (hstate : d.state = .triggered) (hdeadline : d.alarmDeadline = some alarmAt)
    (hrun : Run (step p) d more d₁) (hmore : ∀ input ∈ more, ¬disarms input.1) :
    ∃ segment, d₁.log = d.log ++ segment ∧
      (d₁.StillCounting alarmAt segment ∨ d₁.state = .alarm) := by
  induction hrun with
  | nil => exact ⟨[], (List.append_nil _).symm, .inl ⟨hstate, hdeadline, nofun⟩⟩
  | @snoc more d₁ d₂ input _ _ hnext ih =>
      obtain ⟨segment, hlog, hcase⟩ := ih fun i hi => hmore i (List.mem_append_left _ hi)
      have hwake := hmore input (by simp)
      rcases hcase with ⟨hstate₁, hdeadline₁, hearly⟩ | halarm
      · obtain ⟨segment', hlog', hcase'⟩ :=
          triggered_step hstate₁ hdeadline₁ hwake (step_cases hnext)
        refine ⟨segment ++ segment', by rw [hlog', hlog, List.append_assoc], ?_⟩
        refine hcase'.imp_left fun hcounting => ⟨hcounting.1, hcounting.2.1, fun now hmem => ?_⟩
        rcases List.mem_append.mp hmem with hmem | hmem
        · exact hearly now hmem
        · exact hcounting.2.2 now hmem
      · obtain ⟨halarm', segment', hlog'⟩ := alarm_step halarm hwake (step_cases hnext)
        exact ⟨segment ++ segment', by rw [hlog', hlog, List.append_assoc], .inr halarm'⟩

/-- A timer wake-up at or after the deadline is in the alarm when it returns. -/
theorem timer_enters_alarm {alarmAt : Instant}
    (h : d.state = .triggered ∧ d.alarmDeadline = some alarmAt ∨ d.state = .alarm)
    (hdue : alarmAt ≤ p.clock.read d.reads) :
    ∃ d', step p d (.timer, host) = .ok d' ∧ d'.state = .alarm := by
  rcases h with ⟨hstate, hdeadline⟩ | hstate
  · refine ⟨(d.ticking p host).sounding host, ?_, rfl⟩
    show d.onTimer p host = _
    rw [onTimer_eq hstate, if_pos (by simpa [hdeadline] using hdue)]
  · refine ⟨d, ?_, hstate⟩
    show d.onTimer p host = _
    rw [onTimer, if_pos (by rw [hstate]; decide)]

/-- Short of a disarming event the machine counts down to `alarmAt`, and the first timer wake-up at
or after it enters the alarm. -/
def CountsDownTo (p : Platform) (d : Daemon) (alarmAt : Instant) : Prop :=
  ∀ more d₁, Run (step p) d more d₁ → (∀ input ∈ more, ¬disarms input.1) →
    (∃ segment, d₁.log = d.log ++ segment ∧
      (d₁.StillCounting alarmAt segment ∨ d₁.state = .alarm)) ∧
    ∀ host, alarmAt ≤ p.clock.read d₁.reads →
      ∃ d₂, step p d₁ (.timer, host) = .ok d₂ ∧ d₂.state = .alarm

theorem countsDownTo {alarmAt : Instant} (hstate : d.state = .triggered)
    (hdeadline : d.alarmDeadline = some alarmAt) : d.CountsDownTo p alarmAt := by
  intro more d₁ hrun hmore
  obtain ⟨segment, hlog, hcase⟩ := triggered_run hstate hdeadline hrun hmore
  exact ⟨⟨segment, hlog, hcase⟩, fun host hdue =>
    timer_enters_alarm (hcase.imp_left fun h => ⟨h.1, h.2.1⟩) hdue⟩

/-- While a countdown runs, the run loop sleeps no longer than until its deadline. -/
theorem nextDeadline_le {alarmAt : Instant} (hdeadline : d.alarmDeadline = some alarmAt) :
    ∃ soonest ≤ alarmAt, d.nextDeadline = some soonest := by
  unfold nextDeadline
  rw [hdeadline]
  cases d.nextWarning with
  | none => exact ⟨alarmAt, le_rfl, rfl⟩
  | some warnAt => exact ⟨min alarmAt warnAt, min_le_left _ _, rfl⟩

/-- Every alarm action of a run comes in an episode whose grace period had passed at the intrusion
and whose countdown had run out at the last timer wake-up; an episode that enters the alarm has each
of its effects exactly once; and while `Triggered` nothing but a disarming event keeps the first
timer wake-up at or after the deadline from entering the alarm. -/
theorem alarm_iff_countdown_ran_out {files : FileSystem} {cfg : Config} {cfgPath : PathBuf}
    {privileges : Privileges} {inputs : List (Wake × Host)}
    (hrun : Run (step p) (start p host files cfg cfgPath privileges) inputs d) :
    (∀ before action after stage, d.log = before ++ action :: after →
      action.stage? = some stage →
      ∃ c now, WokenAt cfg c now before ∧ c.deadline ≤ now.nanos) ∧
    (∀ before armedAt grace episode after,
      d.log = before ++ .startGrace armedAt grace :: (episode ++ after) →
      (∀ action ∈ episode, !action.isDisarm) → .enter .alarm ∈ episode →
      episode.filterMap Action.stage? = [.siren, .snapshot, .webhook, .entered]) ∧
    (d.state = .triggered → ∃ c alarmAt, CountingSince cfg c d.log ∧
      d.alarmDeadline = some alarmAt ∧ alarmAt.nanos = c.deadline ∧
      (∃ soonest ≤ alarmAt, d.nextDeadline = some soonest) ∧ d.CountsDownTo p alarmAt) := by
  obtain ⟨e, hread, hepisode⟩ := reads_log hrun
  refine ⟨?_, ?_, ?_⟩
  · intro before action after stage hlog hstage
    rw [hlog] at hread
    exact Episode.ranOut_of_run hread hstage
  · intro before armedAt grace episode after hlog hsegment hentered
    rw [hlog] at hread
    obtain ⟨e₁, -, hrest⟩ := run_append_iff.mp hread
    obtain ⟨e₂, hgrace, hrest⟩ := run_cons_iff.mp hrest
    obtain ⟨e₃, hrun₂, -⟩ := run_append_iff.mp hrest
    obtain ⟨hphase, hfresh⟩ := Episode.fresh_of_startGrace hgrace
    exact Episode.stages_of_entered hrun₂ hphase hfresh hsegment hentered
  · intro hstate
    obtain ⟨c, woken, alarmAt, hphase, hdeadline, hnanos⟩ := hepisode.triggered hstate
    obtain ⟨-, htraced⟩ := Episode.traced_of_run hread
    rw [hphase] at htraced
    exact ⟨c, alarmAt, htraced.1, hdeadline, hnanos, nextDeadline_le hdeadline,
      countsDownTo hstate hdeadline⟩

theorem alarm_iff_countdown_ran_out_escalation :
    (∃ d : Daemon, ∃ before, d.log = before ++ [.enter .alarm] ∧
      ∃ c now, WokenAt Bench.prompt c now before ∧ c.deadline ≤ now.nanos) ∧
    ∃ d : Daemon, d.state = .triggered ∧ ∃ c alarmAt, CountingSince Bench.prompt c d.log ∧
      d.alarmDeadline = some alarmAt ∧ alarmAt.nanos = c.deadline ∧
      d.CountsDownTo Bench.platform alarmAt := by
  constructor
  · obtain ⟨d, hrun, hlog⟩ : ∃ d, Run (step Bench.platform) (Bench.boot Bench.prompt "c1")
        Bench.escalation d ∧ d.log = d.log.dropLast ++ [.enter .alarm] :=
      ⟨_, run_get (by decide +kernel), by decide +kernel⟩
    exact ⟨d, _, hlog, (alarm_iff_countdown_ran_out hrun).1 _ _ [] .entered hlog rfl⟩
  · obtain ⟨d, hrun, hstate⟩ : ∃ d, Run (step Bench.platform) (Bench.boot Bench.prompt "c1")
        (Bench.escalation.take 2) d ∧ d.state = .triggered :=
      ⟨_, run_get (by decide +kernel), by decide +kernel⟩
    obtain ⟨c, alarmAt, hcounting, hdeadline, hnanos, -, hdown⟩ :=
      (alarm_iff_countdown_ran_out hrun).2.2 hstate
    exact ⟨d, hstate, c, alarmAt, hcounting, hdeadline, hnanos, hdown⟩

end AlertU.Daemon
