import AlertU.Bench
import AlertU.Logs
import AlertU.MachineTurn
import AlertU.Runs

/-! Which logind session the lock and unlock commands go to. The id is resolved at startup and again
by every accepted configuration, and the commands use whatever it is at the time; the two ledgers
below recover from the log the resolution and the lock command that are in force. -/

open FilePath Timing Runs Logs

namespace AlertU

/-- One resolution of the session id: whether it was `auto`, what `loginctl` reported as the active
session on `seat0`, and the id. -/
abbrev Resolution := Bool × Option String × String

def Action.resolve (last : Option Resolution) : Action → Option Resolution
  | .resolved auto active id => some (auto, active, id)
  | _ => last

/-- The last resolution of the session id. -/
def lastResolution (log : List Action) : Option Resolution := log.foldl Action.resolve none

def Action.hold (held : Option (String × CommandOutcome)) : Action → Option (String × CommandOutcome)
  | .lockSession id outcome => some (id, outcome)
  | .enter .idle => none
  | _ => held

/-- The lock command of the episode that the log ends in. -/
def heldLock (log : List Action) : Option (String × CommandOutcome) := log.foldl Action.hold none

section Ledgers

variable (log : List Action)

theorem lastResolution_append (segment : List Action) :
    lastResolution (log ++ segment) = segment.foldl Action.resolve (lastResolution log) :=
  List.foldl_append

theorem heldLock_append (segment : List Action) :
    heldLock (log ++ segment) = segment.foldl Action.hold (heldLock log) :=
  List.foldl_append

end Ledgers

namespace Daemon

variable {p : Platform} {host : Host} {d d' : Daemon} {wake : Wake}

/-! ### The resolution in force -/

/-- The id that the machine holds comes from the last resolution, made under the configuration in
force. -/
def Resolves (d : Daemon) : Prop :=
  ∃ ctl : Loginctl, d.session.id = resolveSessionId ctl d.cfg ∧
    lastResolution d.log = some (d.cfg.sessionIsAuto, ctl.activeSession, d.session.id)

/-- A step that resolves nothing. -/
theorem Resolves.extend (h : d.Resolves) (segment : List Action)
    (hlog : d'.log = d.log ++ segment) (hcfg : d'.cfg = d.cfg) (hsession : d'.session = d.session)
    (hsegment : ∀ last, segment.foldl Action.resolve last = last) : d'.Resolves := by
  obtain ⟨ctl, hid, hlast⟩ := h
  refine ⟨ctl, by rw [hsession, hcfg, hid], ?_⟩
  rw [hlog, lastResolution_append, hsegment, hsession, hcfg, hlast]

theorem Resolves.installing (cfg : Config) (files : FileSystem) :
    (d.installing p host cfg files).Resolves :=
  ⟨host.loginctl, rfl, by simp [Daemon.installing, lastResolution_append, Action.resolve]⟩

theorem foldl_resolve_of_isPlain {segment : List Action} (h : segment.all Action.isPlain)
    (last : Option Resolution) : segment.foldl Action.resolve last = last := by
  induction segment with
  | nil => rfl
  | cons action segment ih =>
      rw [List.all_cons, Bool.and_eq_true] at h
      have haction : action.resolve last = last := by
        cases action <;> first | rfl | cases h.1
      rw [List.foldl_cons, haction]
      exact ih h.2

theorem Resolves.step (h : d.Resolves) (hturn : Turn p host d wake d') : d'.Resolves := by
  cases hturn with
  | plain _ _ segment hlog hplain _ hcfg hsession =>
      exact h.extend segment hlog hcfg hsession (foldl_resolve_of_isPlain hplain)
  | ignored _ event _ _ => exact h.extend [_] rfl rfl rfl fun _ => rfl
  | armed _ event graceUntil _ _ _ => exact h.extend _ rfl rfl rfl fun _ => rfl
  | disarmed _ event _ _ _ =>
      refine h.extend _ (List.append_assoc _ _ _) rfl rfl fun _ => ?_
      unfold unlockActions
      split_ifs <;> rfl
  | installed cfg files _ _ => exact .installing cfg files

theorem resolves_of_run {files : FileSystem} {cfg : Config} {cfgPath : PathBuf}
    {privileges : Privileges} {inputs : List (Wake × Host)}
    (hrun : Run (step p) (start p host files cfg cfgPath privileges) inputs d) : d.Resolves :=
  hrun.invariant ⟨host.loginctl, rfl, rfl⟩ fun _ _ _ h _ hnext => h.step (turn_of_step hnext)

/-- A step that locks a session is an arming, and locks the session that the machine holds. -/
theorem lock_of_step {segment : List Action} {id : String} {outcome : CommandOutcome}
    (hturn : Turn p host d wake d') (hlog : d'.log = d.log ++ segment)
    (hlock : .lockSession id outcome ∈ segment) : d.state = .idle ∧ id = d.session.id := by
  have hsplit : ∀ more, d'.log = d.log ++ more → .lockSession id outcome ∈ more := by
    intro more hmore
    rw [hlog] at hmore
    rwa [← List.append_cancel_left hmore]
  cases hturn with
  | plain _ _ segment' hlog' hplain _ _ _ =>
      cases List.all_eq_true.mp hplain _ (hsplit segment' hlog')
  | ignored _ event _ _ => simpa using hsplit [_] rfl
  | armed _ event graceUntil _ _ hstate =>
      have := hsplit _ rfl
      simp only [List.mem_cons, reduceCtorEq, Action.lockSession.injEq, List.not_mem_nil, false_or,
        or_false] at this
      exact ⟨hstate, this.1⟩
  | disarmed _ event _ _ _ =>
      have := hsplit _ (List.append_assoc _ _ _)
      unfold unlockActions at this
      split_ifs at this <;> simp at this
  | installed cfg files _ _ => simpa using hsplit _ rfl

/-- Arming locks the session of the last resolution, at startup or by the last accepted
configuration: with `auto`, the session that was active on `seat0` then. -/
theorem lock_goes_to_last_resolution {files : FileSystem} {cfg : Config} {cfgPath : PathBuf}
    {privileges : Privileges} {inputs : List (Wake × Host)} {now : Host} {segment : List Action}
    {id : String} {outcome : CommandOutcome}
    (hrun : Run (step p) (start p host files cfg cfgPath privileges) inputs d)
    (hstep : step p d (wake, now) = .ok d') (hlog : d'.log = d.log ++ segment)
    (hlock : .lockSession id outcome ∈ segment) :
    ∃ ctl : Loginctl, id = resolveSessionId ctl d.cfg ∧
      lastResolution d.log = some (d.cfg.sessionIsAuto, ctl.activeSession, id) ∧
      (d.cfg.sessionIsAuto → ∀ active, ctl.activeSession = some active → id = active) := by
  obtain ⟨ctl, hid, hlast⟩ := resolves_of_run hrun
  obtain ⟨-, rfl⟩ := lock_of_step (turn_of_step hstep) hlog hlock
  refine ⟨ctl, hid, hlast, fun hauto active hactive => ?_⟩
  rw [hid, resolveSessionId_of_activeSession hauto hactive]

/-- A configuration is accepted while session `2` is active, and the guard is armed while session `3` is. -/
theorem lock_goes_to_last_resolution_bench : ∃ (d : Daemon) (ctl : Loginctl),
    .replySet .ok ∈ d.log ∧ "2" = resolveSessionId ctl d.cfg ∧
      lastResolution d.log = some (d.cfg.sessionIsAuto, ctl.activeSession, "2") ∧
      (d.cfg.sessionIsAuto → ∀ active, ctl.activeSession = some active → "2" = active) := by
  obtain ⟨d, hrun, haccepted, d', hstep, hlog, hlock⟩ : ∃ d, Run (step Bench.platform)
      (Bench.boot .default "c1") [(.control (.setConfig Bench.prompt), Bench.host "2")] d ∧
      .replySet .ok ∈ d.log ∧ ∃ d', step Bench.platform d (.control .arm, Bench.host "3") = .ok d' ∧
        d'.log = d.log ++ d'.log.drop d.log.length ∧
        .lockSession "2" .succeeded ∈ d'.log.drop d.log.length :=
    ⟨_, run_get (by decide +kernel), by decide +kernel, _, eq_ok_get (by decide +kernel), by decide +kernel⟩
  obtain ⟨ctl, hlocked⟩ := lock_goes_to_last_resolution hrun hstep hlog hlock
  exact ⟨d, ctl, haccepted, hlocked⟩

/-- The session that is locked need not be the active one: here another session has become active on
`seat0` between startup and the arming. -/
theorem lock_misses_new_session :
    ¬∀ (p : Platform) (host now : Host) (files : FileSystem) (cfg : Config) (cfgPath : PathBuf)
        (privileges : Privileges) (inputs : List (Wake × Host)) (wake : Wake) (d d' : Daemon)
        (segment : List Action) (id : String) (outcome : CommandOutcome),
      Run (step p) (start p host files cfg cfgPath privileges) inputs d →
      step p d (wake, now) = .ok d' → d'.log = d.log ++ segment →
      .lockSession id outcome ∈ segment → d.cfg.sessionIsAuto →
      ∀ active, now.loginctl.activeSession = some active → id = active := by
  intro h
  obtain ⟨d', hstep, hlog, hlock⟩ : ∃ d', step Bench.platform
      (Bench.boot Bench.prompt "c1") (.control .arm, Bench.host "2") = .ok d' ∧
      d'.log = (Bench.boot Bench.prompt "c1").log ++ d'.log.drop 1 ∧
      .lockSession "c1" .succeeded ∈ d'.log.drop 1 :=
    ⟨_, eq_ok_get (by decide +kernel), by decide +kernel⟩
  have hsame := h _ _ _ _ _ _ _ [] _ _ d' _ "c1" .succeeded .nil hstep hlog hlock
    (by decide) "2" (by decide)
  exact absurd hsame (by decide)

/-! ### The pairing of lock and unlock -/

/-- Around one entry of the log: an unlock goes to the session that the episode has locked, and the
disarming of an episode by `Toggle` or `ForceDisarm` unlocks that session at once. -/
def Paired (before : List Action) (action : Action) (after : List Action) : Prop :=
  (∀ id outcome, action = .unlockSession id outcome → ∃ locked, heldLock before = some (id, locked)) ∧
  ∀ event id, action = .handle event → event = .toggle ∨ event = .forceDisarm →
    heldLock before = some (id, .succeeded) → ∃ rest, after = .unlockSession id .succeeded :: rest

theorem Paired.mono (before : List Action) (action : Action) (after more : List Action)
    (h : Paired before action after) : Paired before action (after ++ more) := by
  refine ⟨h.1, fun event id haction hevent hheld => ?_⟩
  obtain ⟨rest, rfl⟩ := h.2 event id haction hevent hheld
  exact ⟨rest ++ more, rfl⟩

/-- The actions that `Paired` and the ledger of locks are about. -/
def isSessionAction : Action → Bool
  | .lockSession _ _ | .unlockSession _ _ | .enter .idle => true
  | .handle .toggle | .handle .forceDisarm => true
  | _ => false

theorem not_isSessionAction {action : Action} (h : action.isPlain) : !isSessionAction action := by
  cases action with
  | handle event => cases event <;> first | rfl | cases h
  | enter state => cases state <;> first | rfl | cases h
  | lockSession _ _ | unlockSession _ _ | resolved _ _ _ => cases h
  | play _ | startSiren _ | stopSiren | snapshot _ _ | webhook _ | startGrace _ _
  | startCountdown _ _ | clearTimers | wake _ | saved _ | installed _ | replyConfig _ | replySet _
  | learn _ _ | refuseLearn _ => rfl

theorem hold_eq {action : Action} (h : !isSessionAction action)
    (held : Option (String × CommandOutcome)) : action.hold held = held := by
  cases action with
  | enter state => cases state <;> first | rfl | cases h
  | lockSession _ _ | unlockSession _ _ => cases h
  | handle _ | play _ | startSiren _ | stopSiren | snapshot _ _ | webhook _ | startGrace _ _
  | startCountdown _ _ | clearTimers | wake _ | resolved _ _ _ | saved _ | installed _
  | replyConfig _ | replySet _ | learn _ _ | refuseLearn _ => rfl

theorem paired_of_not {before after : List Action} {action : Action} (h : !isSessionAction action) :
    Paired before action after := by
  constructor
  · rintro id outcome rfl
    cases h
  · rintro event id rfl (rfl | rfl) _ <;> cases h

/-- A segment without session actions. -/
theorem each_paired (before segment : List Action) (h : ∀ action ∈ segment, !isSessionAction action) :
    Each Paired before segment ∧ heldLock (before ++ segment) = heldLock before := by
  induction segment generalizing before with
  | nil => simp
  | cons action segment ih =>
      obtain ⟨heach, hheld⟩ := ih (before ++ [action])
        fun a ha => h a (List.mem_cons_of_mem _ ha)
      refine ⟨⟨paired_of_not (h action List.mem_cons_self), heach⟩, ?_⟩
      rw [List.append_assoc, List.singleton_append] at hheld
      rw [hheld, heldLock_append]
      exact hold_eq (h action List.mem_cons_self) _

/-- What the log says about the sessions that have been locked, between two messages. -/
structure Pairs (d : Daemon) : Prop where
  idle : d.state = .idle → heldLock d.log = none
  active : d.state ≠ .idle → ∃ outcome, heldLock d.log = some (d.session.id, outcome) ∧
    (outcome = .succeeded → d.session.id ≠ "")
  paired : Each Paired [] d.log

/-- A step without session actions. -/
theorem Pairs.extend (h : d.Pairs) (segment : List Action) (hlog : d'.log = d.log ++ segment)
    (hstate : d'.state = .idle ↔ d.state = .idle) (hsession : d'.session.id = d.session.id)
    (hsegment : ∀ action ∈ segment, !isSessionAction action) : d'.Pairs := by
  obtain ⟨heach, hheld⟩ := each_paired d.log segment hsegment
  refine ⟨fun hidle => ?_, fun hactive => ?_, ?_⟩
  · rw [hlog, hheld, h.idle (hstate.mp hidle)]
  · rw [hlog, hheld, hsession]
    exact h.active (mt hstate.mpr hactive)
  · rw [hlog]
    exact h.paired.append Paired.mono heach

theorem Pairs.arming (h : d.Pairs) (event : Event) (graceUntil : Instant)
    (hstate : d.state = .idle) : (d.arming p host event graceUntil).Pairs := by
  have hheld := h.idle hstate
  have hactive : (d.arming p host event graceUntil).state ≠ .idle := by simp [Daemon.arming]
  refine ⟨fun hidle => absurd hidle hactive, fun _ => ⟨d.session.run host.loginctl, ?_, ?_⟩, ?_⟩
  · simp [Daemon.arming, heldLock_append, Action.hold]
  · intro hsucceeded hid
    change d.session.id = "" at hid
    rw [SessionCtl.run, if_pos hid] at hsucceeded
    cases hsucceeded
  · refine h.paired.append Paired.mono ?_
    rw [List.nil_append, each_cons]
    refine ⟨⟨by simp, fun _ _ _ _ h' => by rw [hheld] at h'; cases h'⟩, ?_⟩
    simp only [each_cons, each_nil, and_true]
    exact ⟨⟨by simp, by simp⟩, paired_of_not rfl, paired_of_not rfl, paired_of_not rfl⟩

/-- What keeps the pairing: a configuration accepted while the guard is active leads to the session
that is held already, and when `Toggle` or `ForceDisarm` ends an episode whose lock command has
succeeded, the unlock command succeeds too. -/
structure KeepsSession (p : Platform) (d : Daemon) (input : Wake × Host) : Prop where
  same : ∀ cfg, input.1 = .control (.setConfig cfg) → d.state ≠ .idle → cfg.validate = .ok () →
    (cfg.save p.toml input.2.disk d.files d.cfgPath).1 = .ok () →
    resolveSessionId input.2.loginctl cfg = d.session.id
  unlocks : ∀ event id, eventOf input.1 = some event → event = .toggle ∨ event = .forceDisarm →
    d.state ≠ .idle → heldLock d.log = some (id, .succeeded) →
    ∃ out, input.2.loginctl.action = some out ∧ out.success

theorem Pairs.disarming (h : d.Pairs) (hkeeps : KeepsSession p d (wake, host)) {event : Event}
    (hwake : eventOf wake = some event) (hevent : event.isDisarm) (hstate : d.state ≠ .idle) :
    (d.disarming host event).Pairs := by
  obtain ⟨outcome, hheld, hid⟩ := h.active hstate
  have hrest (before : List Action) : Each Paired before [.stopSiren, .clearTimers,
      .play (d.sound.playOnce host.programs d.cfg.beepSound), .enter .idle] := by
    simp only [each_cons, each_nil, and_true]
    exact ⟨paired_of_not rfl, paired_of_not rfl, paired_of_not rfl, by simp, by simp⟩
  refine ⟨fun _ => ?_, fun hactive => absurd rfl hactive, ?_⟩
  · unfold Daemon.disarming unlockActions
    rw [List.append_assoc, heldLock_append]
    split_ifs <;> rfl
  · unfold Daemon.disarming unlockActions
    rw [List.append_assoc]
    refine h.paired.append Paired.mono ?_
    rw [List.nil_append]
    split_ifs with hunlocked
    · rw [List.cons_append, List.nil_append, each_cons]
      exact ⟨⟨by simp, by rintro _ _ ⟨⟩ (rfl | rfl) <;> cases hunlocked⟩, hrest _⟩
    · have htoggle : event = .toggle ∨ event = .forceDisarm := by
        cases event <;> simp_all [Event.isDisarm]
      have hunlock (hsucceeded : outcome = .succeeded) :
          d.session.run host.loginctl = .succeeded := by
        rw [hsucceeded] at hheld
        obtain ⟨out, haction, hout⟩ := hkeeps.unlocks event _ hwake htoggle hstate hheld
        change host.loginctl.action = some out at haction
        simp [SessionCtl.run, hid hsucceeded, haction, hout]
      rw [List.cons_append, List.cons_append, List.nil_append, each_cons, each_cons]
      refine ⟨⟨by simp, ?_⟩, ⟨?_, by simp⟩, hrest _⟩
      · intro event' id _ _ hheld'
        rw [hheld] at hheld'
        cases hheld'
        exact ⟨_, by rw [hunlock rfl]⟩
      · rintro id outcome' ⟨⟩
        refine ⟨outcome, ?_⟩
        rw [heldLock_append, hheld]
        rfl

/-- An event that is ignored ends no episode: there is none. -/
theorem Pairs.ignored (h : d.Pairs) {event : Event} (hignored : AlertU.decide d.state event = none) :
    (d.record (.handle event)).Pairs := by
  have hheld : heldLock (d.log ++ [.handle event]) = heldLock d.log := by
    rw [heldLock_append]
    rfl
  refine ⟨fun hidle => hheld.trans (h.idle hidle), fun hactive => ?_, ?_⟩
  · obtain ⟨outcome, hlast, hid⟩ := h.active hactive
    exact ⟨outcome, hheld.trans hlast, hid⟩
  · refine h.paired.append Paired.mono ⟨⟨nofun, ?_⟩, trivial⟩
    rintro event' id ⟨⟩ hevent hlast
    have hstate : d.state ≠ .idle := by
      intro hidle
      rw [List.nil_append, h.idle hidle] at hlast
      cases hlast
    have hdisarm : event.isDisarm := by
      rcases hevent with rfl | rfl <;> rfl
    obtain ⟨effects, hdecide⟩ := decide_isDisarm hstate hdisarm
    rw [hdecide] at hignored
    cases hignored

theorem Pairs.installing (h : d.Pairs) (cfg : Config) (files : FileSystem)
    (hsame : d.state ≠ .idle → resolveSessionId host.loginctl cfg = d.session.id) :
    (d.installing p host cfg files).Pairs := by
  obtain ⟨heach, hheld⟩ := each_paired d.log [.saved cfg, .installed cfg,
    .resolved cfg.sessionIsAuto host.loginctl.activeSession (resolveSessionId host.loginctl cfg),
    .replySet .ok] (by simp [isSessionAction])
  refine ⟨fun hidle => hheld.trans (h.idle hidle), fun hactive => ?_, ?_⟩
  · obtain ⟨outcome, hlast, hid⟩ := h.active hactive
    refine ⟨outcome, hheld.trans ?_, fun hsucceeded => ?_⟩
    · rw [hlast, ← hsame hactive]
      rfl
    · have hid := hid hsucceeded
      rw [← hsame hactive] at hid
      exact hid
  · exact h.paired.append Paired.mono heach

theorem Pairs.step (h : d.Pairs) (hkeeps : KeepsSession p d (wake, host))
    (hturn : Turn p host d wake d') : d'.Pairs := by
  cases hturn with
  | plain _ _ segment hlog hplain hstate _ hsession =>
      exact h.extend segment hlog hstate (by rw [hsession]) fun action haction =>
        not_isSessionAction (List.all_eq_true.mp hplain action haction)
  | ignored _ event _ hignored => exact h.ignored hignored
  | armed _ event graceUntil _ _ hstate => exact h.arming event graceUntil hstate
  | disarmed _ event hwake hevent hstate => exact h.disarming hkeeps hwake hevent hstate
  | installed cfg files hvalid hsaved =>
      have hsame := hkeeps.same cfg rfl
      rw [hsaved] at hsame
      exact h.installing cfg files fun hactive => hsame hactive hvalid rfl

/-- In a run in which no configuration re-points an active guard and in which the unlock commands
succeed, every unlock goes to the session that its episode has locked, and no session that an
episode has locked is left behind by `Toggle` or `ForceDisarm`. -/
theorem unlock_goes_to_locked_session {files : FileSystem} {cfg : Config} {cfgPath : PathBuf}
    {privileges : Privileges} {inputs : List (Wake × Host)}
    (hrun : RunIf (step p) (KeepsSession p) (start p host files cfg cfgPath privileges) inputs d) :
    ∀ before action after, d.log = before ++ action :: after → Paired before action after := by
  have hstart : (start p host files cfg cfgPath privileges).Pairs :=
    ⟨fun _ => rfl, fun hactive => absurd rfl hactive, paired_of_not rfl, trivial⟩
  have hpairs : d.Pairs :=
    hrun.invariant hstart fun _ _ _ h hkeeps hnext => h.step hkeeps (turn_of_step hnext)
  intro before action after hlog
  exact each_iff.mp hpairs.paired before action after hlog

/-- Arming, a configuration for the session that is pinned already, and the toggle. -/
def pinnedRun : List (Wake × Host) :=
  [(.control .arm, Bench.host "c1"), (.control (.setConfig (Bench.onSession "3")), Bench.host "c1"),
    (.control .toggle, Bench.host "c1")]

theorem unlock_goes_to_locked_session_pinned :
    ∃ d : Daemon, ∃ before after, d.log = before ++ .unlockSession "3" .succeeded :: after ∧
      Paired before (.unlockSession "3" .succeeded) after := by
  obtain ⟨d, hrun, hlog⟩ : ∃ d, Run (step Bench.platform) (Bench.boot (Bench.onSession "3") "c1")
      pinnedRun d ∧ d.log = d.log.take 11 ++ .unlockSession "3" .succeeded :: d.log.drop 12 :=
    ⟨_, run_get (by decide +kernel), by decide +kernel⟩
  have hpinned : ∀ before ∈ pinnedRun.inits, (before.foldlM (step Bench.platform)
      (Bench.boot (Bench.onSession "3") "c1")).toOption.all (fun d => d.session.id = "3") := by
    decide +kernel
  have hkeeps : RunIf (step Bench.platform) (KeepsSession Bench.platform)
      (Bench.boot (Bench.onSession "3") "c1") pinnedRun d := by
    refine .of_run hrun fun before input after s hinputs hbefore => ?_
    have hid := hpinned before ((List.mem_inits _ _).mpr ⟨input :: after, hinputs.symm⟩)
    rw [run_iff_foldlM.mp hbefore] at hid
    have hmem : input ∈ pinnedRun := by simp [hinputs]
    simp only [pinnedRun, List.mem_cons, List.not_mem_nil, or_false] at hmem
    rcases hmem with rfl | rfl | rfl
    · exact ⟨nofun, fun _ _ _ _ _ _ => ⟨_, rfl, rfl⟩⟩
    · refine ⟨fun cfg hcfg _ _ _ => ?_, fun _ _ _ _ _ _ => ⟨_, rfl, rfl⟩⟩
      cases hcfg
      exact (of_decide_eq_true hid).symm
    · exact ⟨nofun, fun _ _ _ _ _ _ => ⟨_, rfl, rfl⟩⟩
  exact ⟨d, _, _, hlog, unlock_goes_to_locked_session hkeeps _ _ _ hlog⟩

/-- A configuration accepted while the guard is armed redirects the unlock: session 3 is locked,
session 7 is unlocked, and session 3 stays locked. -/
theorem unlock_follows_new_config :
    ¬∀ (p : Platform) (host : Host) (files : FileSystem) (cfg : Config) (cfgPath : PathBuf)
        (privileges : Privileges) (inputs : List (Wake × Host)) (d : Daemon),
      Run (step p) (start p host files cfg cfgPath privileges) inputs d →
      ∀ before id outcome after, d.log = before ++ .unlockSession id outcome :: after →
        ∃ locked, heldLock before = some (id, locked) := by
  intro h
  obtain ⟨d, hrun, hlog, hheld⟩ : ∃ d, Run (step Bench.platform)
      (Bench.boot (Bench.onSession "3") "c1")
      [(.control .arm, Bench.host "c1"),
        (.control (.setConfig (Bench.onSession "7")), Bench.host "c1"),
        (.control .toggle, Bench.host "c1")] d ∧
      d.log = d.log.take 11 ++ .unlockSession "7" .succeeded :: d.log.drop 12 ∧
      heldLock (d.log.take 11) = some ("3", .succeeded) :=
    ⟨_, run_get (by decide +kernel), by decide +kernel⟩
  obtain ⟨locked, hlocked⟩ := h _ _ _ _ _ _ _ d hrun _ _ _ _ hlog
  rw [hheld] at hlocked
  exact absurd hlocked (by simp)

end Daemon

end AlertU
