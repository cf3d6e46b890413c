import AlertU.Machine
import AlertU.Runs

/-! What an armed episode may look like, stated on the log alone. An episode goes from the start of
a grace period over a countdown to the alarm and its effects; a disarming event ends it at any
point. `Episode.read` accepts exactly such logs, and what it has read is recovered in
`Phase.Traced`. -/

open Timing Runs

namespace AlertU

/-- The actions of an alarm, in the order in which they are due. -/
inductive Stage where
  | siren
  | snapshot
  | webhook
  | entered
  deriving DecidableEq, Repr

namespace Action

/-- The handling of an event that ends an episode. -/
def isDisarm : Action → Bool
  | .handle event => event.isDisarm
  | _ => false

def stage? : Action → Option Stage
  | .startSiren _ => some .siren
  | .snapshot _ _ => some .snapshot
  | .webhook _ => some .webhook
  | .enter .alarm => some .entered
  | _ => none

def isWake : Action → Bool
  | .wake _ => true
  | _ => false

def configure (cfg : Config) : Action → Config
  | .installed new => new
  | _ => cfg

end Action

/-- The configuration in force at the end of a log that started under `cfg`. -/
def configured (cfg : Config) (log : List Action) : Config := log.foldl Action.configure cfg

/-- A grace period and the countdown that followed it. -/
structure Countdown where
  armedAt : Instant
  grace : UInt64
  intrusionAt : Instant
  delay : UInt64
  afterGrace : armedAt.nanos + fromSecs grace ≤ intrusionAt.nanos

def Countdown.deadline (c : Countdown) : ℕ := c.intrusionAt.nanos + fromSecs c.delay

/-- How far an episode has got; `struck` once an intrusion has been handled, `woken` with the last
timer wake-up of the countdown. -/
inductive Phase where
  | idle
  | armed (armedAt : Instant) (grace : UInt64) (struck : Bool)
  | counting (c : Countdown) (woken : Option Instant)
  | sounding (c : Countdown) (now : Instant) (hdue : c.deadline ≤ now.nanos) (stage : Stage)

namespace Phase

def handle (phase : Phase) (event : Event) : Phase :=
  if event.isDisarm then .idle
  else
    match phase, event with
    | .armed armedAt grace _, .intrusion => .armed armedAt grace true
    | phase, _ => phase

def startGrace (cfg : Config) (now : Instant) (secs : UInt64) : Phase → Except Unit Phase
  | .idle => if secs = cfg.gracePeriodSecs then .ok (.armed now secs false) else .error ()
  | _ => .error ()

def startCountdown (cfg : Config) (now : Instant) (secs : UInt64) : Phase → Except Unit Phase
  | .armed armedAt grace true =>
      if secs = cfg.alarmDelaySecs then
        if h : armedAt.nanos + fromSecs grace ≤ now.nanos then
          .ok (.counting ⟨armedAt, grace, now, secs, h⟩ none)
        else .error ()
      else .error ()
  | _ => .error ()

def wake (now : Instant) : Phase → Except Unit Phase
  | .counting c _ => .ok (.counting c (some now))
  | _ => .error ()

def alarm (stage : Stage) (phase : Phase) : Except Unit Phase :=
  match stage, phase with
  | .siren, .counting c (some now) =>
      if h : c.deadline ≤ now.nanos then .ok (.sounding c now h .siren) else .error ()
  | .snapshot, .sounding c now h .siren => .ok (.sounding c now h .snapshot)
  | .webhook, .sounding c now h .snapshot => .ok (.sounding c now h .webhook)
  | .entered, .sounding c now h .webhook => .ok (.sounding c now h .entered)
  | _, _ => .error ()

def read (cfg : Config) (phase : Phase) : Action → Except Unit Phase
  | .handle event => .ok (phase.handle event)
  | .startGrace now secs => phase.startGrace cfg now secs
  | .startCountdown now secs => phase.startCountdown cfg now secs
  | .wake now => phase.wake now
  | .startSiren _ => phase.alarm .siren
  | .snapshot _ _ => phase.alarm .snapshot
  | .webhook _ => phase.alarm .webhook
  | .enter .alarm => phase.alarm .entered
  | _ => .ok phase

/-- The alarm actions of the episode so far. -/
def sounded : Phase → List Stage
  | .sounding _ _ _ .siren => [.siren]
  | .sounding _ _ _ .snapshot => [.siren, .snapshot]
  | .sounding _ _ _ .webhook => [.siren, .snapshot, .webhook]
  | .sounding _ _ _ .entered => [.siren, .snapshot, .webhook, .entered]
  | _ => []

end Phase

structure Episode where
  cfg : Config
  phase : Phase

def Episode.read (e : Episode) (action : Action) : Except Unit Episode :=
  (e.phase.read e.cfg action).map fun phase => ⟨action.configure e.cfg, phase⟩

section ReadSimp

variable (e : Episode)

@[simp] theorem Episode.read_handle (event : Event) :
    e.read (.handle event) = .ok ⟨e.cfg, e.phase.handle event⟩ := rfl

@[simp] theorem Episode.read_lockSession (id : String) (outcome : CommandOutcome) :
    e.read (.lockSession id outcome) = .ok e := rfl

@[simp] theorem Episode.read_unlockSession (id : String) (outcome : CommandOutcome) :
    e.read (.unlockSession id outcome) = .ok e := rfl

@[simp] theorem Episode.read_play (command : Option Command) : e.read (.play command) = .ok e := rfl

@[simp] theorem Episode.read_stopSiren : e.read .stopSiren = .ok e := rfl

@[simp] theorem Episode.read_clearTimers : e.read .clearTimers = .ok e := rfl

@[simp] theorem Episode.read_resolved (auto : Bool) (active : Option String) (id : String) :
    e.read (.resolved auto active id) = .ok e := rfl

@[simp] theorem Episode.read_saved (cfg : Config) : e.read (.saved cfg) = .ok e := rfl

@[simp] theorem Episode.read_installed (cfg : Config) :
    e.read (.installed cfg) = .ok ⟨cfg, e.phase⟩ := rfl

@[simp] theorem Episode.read_replySet (reply : Reply) : e.read (.replySet reply) = .ok e := rfl

theorem Episode.read_enter {state : GuardState} (h : state ≠ .alarm) :
    e.read (.enter state) = .ok e := by
  cases state with
  | alarm => exact absurd rfl h
  | idle | armed | triggered => rfl

@[simp] theorem Phase.handle_idle (event : Event) : Phase.idle.handle event = .idle := by
  unfold Phase.handle
  split_ifs <;> rfl

theorem Phase.handle_of_ne (phase : Phase) {event : Event} (hdisarm : ¬event.isDisarm)
    (hevent : event ≠ .intrusion) : phase.handle event = phase := by
  unfold Phase.handle
  rw [if_neg hdisarm]
  cases phase <;> cases event <;> first | rfl | exact absurd rfl hevent

theorem Phase.handle_disarm (phase : Phase) {event : Event} (h : event.isDisarm) :
    phase.handle event = .idle := if_pos h

variable (cfg : Config) (now : Instant)

@[simp] theorem Episode.read_startGrace :
    (⟨cfg, .idle⟩ : Episode).read (.startGrace now cfg.gracePeriodSecs) =
      .ok ⟨cfg, .armed now cfg.gracePeriodSecs false⟩ := by
  rw [Episode.read, Phase.read, Phase.startGrace, if_pos rfl]
  rfl

theorem Episode.read_startCountdown {armedAt : Instant} {grace : UInt64}
    (h : armedAt.nanos + fromSecs grace ≤ now.nanos) :
    (⟨cfg, .armed armedAt grace true⟩ : Episode).read (.startCountdown now cfg.alarmDelaySecs) =
      .ok ⟨cfg, .counting ⟨armedAt, grace, now, cfg.alarmDelaySecs, h⟩ none⟩ := by
  rw [Episode.read, Phase.read, Phase.startCountdown, if_pos rfl, dif_pos h]
  rfl

variable (c : Countdown)

@[simp] theorem Episode.read_wake (woken : Option Instant) :
    (⟨cfg, .counting c woken⟩ : Episode).read (.wake now) = .ok ⟨cfg, .counting c (some now)⟩ := rfl

/-- The alarm actions, once the deadline has come. -/
theorem Episode.read_alarm (h : c.deadline ≤ now.nanos) (siren webhook : Option Command)
    (snapshot : Config) (privileges : Privileges) :
    [.startSiren siren, .snapshot snapshot privileges, .webhook webhook, .enter .alarm].foldlM
        Episode.read ⟨cfg, .counting c (some now)⟩ = .ok ⟨cfg, .sounding c now h .entered⟩ := by
  have hsiren : (⟨cfg, .counting c (some now)⟩ : Episode).read (.startSiren siren) =
      .ok ⟨cfg, .sounding c now h .siren⟩ := by
    rw [Episode.read, Phase.read, Phase.alarm, dif_pos h]
    rfl
  rw [List.foldlM_cons, hsiren]
  rfl

end ReadSimp

/-! ### What has been read -/

/-- The log ends in an episode armed at `armedAt`. -/
def ArmedSince (cfg : Config) (armedAt : Instant) (grace : UInt64) (struck : Bool)
    (log : List Action) : Prop :=
  ∃ l₁ l₂, log = l₁ ++ .startGrace armedAt grace :: l₂ ∧
    grace = (configured cfg l₁).gracePeriodSecs ∧
    (∀ action ∈ l₂, !action.isDisarm) ∧ (struck → .handle .intrusion ∈ l₂)

/-- The log ends in an episode with the countdown `c`. -/
def CountingSince (cfg : Config) (c : Countdown) (log : List Action) : Prop :=
  ∃ l₁ l₂, log = l₁ ++ .startCountdown c.intrusionAt c.delay :: l₂ ∧
    ArmedSince cfg c.armedAt c.grace true l₁ ∧
    c.delay = (configured cfg l₁).alarmDelaySecs ∧ (∀ action ∈ l₂, !action.isDisarm)

/-- The log ends in an episode with the countdown `c` whose last timer wake-up read `now`. -/
def WokenAt (cfg : Config) (c : Countdown) (now : Instant) (log : List Action) : Prop :=
  ∃ l₁ l₂, log = l₁ ++ .wake now :: l₂ ∧ CountingSince cfg c l₁ ∧
    (∀ action ∈ l₂, !action.isDisarm ∧ !action.isWake)

def Phase.Traced (cfg : Config) (log : List Action) : Phase → Prop
  | .idle => True
  | .armed armedAt grace struck => ArmedSince cfg armedAt grace struck log
  | .counting c woken => CountingSince cfg c log ∧ ∀ now, woken = some now → WokenAt cfg c now log
  | .sounding c now _ _ => WokenAt cfg c now log

section Append

variable {cfg : Config} {log : List Action} {action : Action} {armedAt now : Instant}
  {grace : UInt64} {struck : Bool} {c : Countdown}

theorem configured_append (log : List Action) (action : Action) :
    configured cfg (log ++ [action]) = action.configure (configured cfg log) := by
  simp [configured]

theorem forall_mem_snoc {P : Action → Prop} (h : ∀ x ∈ log, P x) (haction : P action) :
    ∀ x ∈ log ++ [action], P x := by
  intro x hx
  rcases List.mem_append.mp hx with hx | hx
  · exact h x hx
  · rw [List.mem_singleton.mp hx]
    exact haction

theorem ArmedSince.append (h : ArmedSince cfg armedAt grace struck log)
    (haction : !action.isDisarm) : ArmedSince cfg armedAt grace struck (log ++ [action]) := by
  obtain ⟨l₁, l₂, rfl, hgrace, hl₂, hstruck⟩ := h
  exact ⟨l₁, l₂ ++ [action], by simp, hgrace, forall_mem_snoc hl₂ haction,
    fun h => List.mem_append_left _ (hstruck h)⟩

theorem CountingSince.append (h : CountingSince cfg c log) (haction : !action.isDisarm) :
    CountingSince cfg c (log ++ [action]) := by
  obtain ⟨l₁, l₂, rfl, harmed, hdelay, hl₂⟩ := h
  exact ⟨l₁, l₂ ++ [action], by simp, harmed, hdelay, forall_mem_snoc hl₂ haction⟩

theorem WokenAt.append (h : WokenAt cfg c now log) (haction : !action.isDisarm)
    (hwake : !action.isWake) : WokenAt cfg c now (log ++ [action]) := by
  obtain ⟨l₁, l₂, rfl, hcounting, hl₂⟩ := h
  exact ⟨l₁, l₂ ++ [action], by simp, hcounting, forall_mem_snoc hl₂ ⟨haction, hwake⟩⟩

end Append

section Read

variable {cfg : Config} {log : List Action} {action : Action} {phase next : Phase}

/-- An action that neither ends the episode nor belongs to it leaves the phase traced. -/
theorem Phase.Traced.append (h : phase.Traced cfg log) (haction : !action.isDisarm)
    (hwake : !action.isWake) : phase.Traced cfg (log ++ [action]) := by
  cases phase with
  | idle => trivial
  | armed armedAt grace struck => exact ArmedSince.append h haction
  | counting c woken =>
      exact ⟨h.1.append haction, fun now hwoken => (h.2 now hwoken).append haction hwake⟩
  | sounding c now hdue stage => exact WokenAt.append h haction hwake

theorem Phase.Traced.handle (h : phase.Traced cfg log) (event : Event) :
    (phase.handle event).Traced cfg (log ++ [.handle event]) := by
  unfold Phase.handle
  split_ifs with hdisarm
  · trivial
  · have haction : !(Action.handle event).isDisarm := by simpa [Action.isDisarm] using hdisarm
    have happend := h.append haction rfl
    cases phase with
    | armed armedAt grace struck =>
        cases event with
        | intrusion =>
            obtain ⟨l₁, l₂, rfl, hgrace, hl₂, hstruck⟩ := h
            exact ⟨l₁, l₂ ++ [.handle .intrusion], by simp, hgrace,
              forall_mem_snoc hl₂ haction, fun _ => by simp⟩
        | toggle | forceArm | forceDisarm | sessionUnlocked | countdownElapsed => exact happend
    | idle | counting _ _ | sounding _ _ _ _ => exact happend

theorem Phase.Traced.alarm {stage : Stage} (h : phase.Traced cfg log)
    (hread : phase.alarm stage = .ok next) (haction : !action.isDisarm) (hwake : !action.isWake) :
    next.Traced cfg (log ++ [action]) := by
  unfold Phase.alarm at hread
  split at hread
  · split_ifs at hread
    cases hread
    exact (h.2 _ rfl).append haction hwake
  all_goals
    cases hread
    try exact WokenAt.append h haction hwake

/-- Reading one action keeps the phase traced. -/
theorem Phase.Traced.read (h : phase.Traced cfg log)
    (hread : phase.read (configured cfg log) action = .ok next) :
    next.Traced cfg (log ++ [action]) := by
  cases action with
  | handle event =>
      cases hread
      exact h.handle event
  | startGrace now secs =>
      cases phase with
      | idle =>
          simp only [Phase.read, Phase.startGrace] at hread
          split_ifs at hread with hsecs
          cases hread
          exact ⟨log, [], rfl, hsecs, nofun, nofun⟩
      | armed _ _ _ | counting _ _ | sounding _ _ _ _ => cases hread
  | startCountdown now secs =>
      cases phase with
      | armed armedAt grace struck =>
          cases struck with
          | false => cases hread
          | true =>
              simp only [Phase.read, Phase.startCountdown] at hread
              split_ifs at hread with hsecs hgrace
              cases hread
              exact ⟨⟨log, [], rfl, h, hsecs, nofun⟩, nofun⟩
      | idle | counting _ _ | sounding _ _ _ _ => cases hread
  | wake now =>
      cases phase with
      | counting c woken =>
          cases hread
          refine ⟨h.1.append rfl, fun now' hnow => ?_⟩
          cases hnow
          exact ⟨log, [], rfl, h.1, nofun⟩
      | idle | armed _ _ _ | sounding _ _ _ _ => cases hread
  | startSiren _ | snapshot _ _ | webhook _ => exact h.alarm hread rfl rfl
  | enter state =>
      cases state with
      | alarm => exact h.alarm hread rfl rfl
      | idle | armed | triggered =>
          cases hread
          exact h.append rfl rfl
  | lockSession _ _ | unlockSession _ _ | play _ | stopSiren | clearTimers | resolved _ _ _
  | saved _ | installed _ | replyConfig _ | replySet _ | learn _ _ | refuseLearn _ =>
      cases hread
      exact h.append rfl rfl

theorem Episode.traced_of_run {e : Episode} (hrun : Run Episode.read ⟨cfg, .idle⟩ log e) :
    e.cfg = configured cfg log ∧ e.phase.Traced cfg log := by
  induction hrun with
  | nil => exact ⟨rfl, trivial⟩
  | @snoc log e next action _ _ hread ih =>
      obtain ⟨hcfg, htraced⟩ := ih
      rw [Episode.read, hcfg] at hread
      cases hphase : e.phase.read (configured cfg log) action with
      | error _ =>
          rw [hphase] at hread
          cases hread
      | ok phase =>
          rw [hphase] at hread
          cases hread
          exact ⟨(configured_append log action).symm, htraced.read hphase⟩

/-! ### The alarm of an episode -/

theorem Phase.alarm_sounded {stage : Stage} (hread : phase.alarm stage = .ok next) :
    next.sounded = phase.sounded ++ [stage] ∧ next ≠ .idle := by
  unfold Phase.alarm at hread
  split at hread
  · split_ifs at hread
    cases hread
    exact ⟨rfl, nofun⟩
  all_goals
    cases hread
    try exact ⟨rfl, nofun⟩

/-- Past the start of an episode and up to its end, the alarm actions read are those sounded. -/
theorem Phase.read_sounded (hphase : phase ≠ .idle) (haction : !action.isDisarm)
    (hread : phase.read cfg action = .ok next) :
    next.sounded = phase.sounded ++ action.stage?.toList ∧ next ≠ .idle := by
  cases action with
  | handle event =>
      have hdisarm : ¬event.isDisarm := by simpa [Action.isDisarm] using haction
      cases hread
      cases phase with
      | idle => exact absurd rfl hphase
      | armed _ _ _ | counting _ _ | sounding _ _ _ _ =>
          cases event <;> simp_all [Phase.handle, Phase.sounded, Action.stage?, Event.isDisarm]
  | startGrace now secs =>
      cases phase with
      | idle => exact absurd rfl hphase
      | armed _ _ _ | counting _ _ | sounding _ _ _ _ => cases hread
  | startCountdown now secs =>
      cases phase with
      | armed armedAt grace struck =>
          cases struck with
          | false => cases hread
          | true =>
              simp only [Phase.read, Phase.startCountdown] at hread
              split_ifs at hread
              cases hread
              exact ⟨rfl, by simp⟩
      | idle | counting _ _ | sounding _ _ _ _ => cases hread
  | wake now =>
      cases phase with
      | counting c woken =>
          cases hread
          exact ⟨rfl, by simp⟩
      | idle | armed _ _ _ | sounding _ _ _ _ => cases hread
  | startSiren _ | snapshot _ _ | webhook _ => exact Phase.alarm_sounded hread
  | enter state =>
      cases state with
      | alarm => exact Phase.alarm_sounded hread
      | idle | armed | triggered =>
          cases hread
          exact ⟨(List.append_nil _).symm, hphase⟩
  | lockSession _ _ | unlockSession _ _ | play _ | stopSiren | clearTimers | resolved _ _ _
  | saved _ | installed _ | replyConfig _ | replySet _ | learn _ _ | refuseLearn _ =>
      cases hread
      exact ⟨(List.append_nil _).symm, hphase⟩

theorem Episode.sounded_of_run {e e' : Episode} (hrun : Run Episode.read e log e')
    (hphase : e.phase ≠ .idle) (hlog : ∀ action ∈ log, !action.isDisarm) :
    e'.phase.sounded = e.phase.sounded ++ log.filterMap Action.stage? ∧ e'.phase ≠ .idle := by
  induction hrun with
  | nil => exact ⟨(List.append_nil _).symm, hphase⟩
  | @snoc log e₁ e₂ action _ _ hread ih =>
      obtain ⟨hsounded, hne⟩ := ih fun a ha => hlog a (List.mem_append_left _ ha)
      rw [Episode.read] at hread
      cases hnext : e₁.phase.read e₁.cfg action with
      | error _ =>
          rw [hnext] at hread
          cases hread
      | ok next =>
          rw [hnext] at hread
          cases hread
          obtain ⟨hstage, hne'⟩ := Phase.read_sounded hne (hlog action (by simp)) hnext
          refine ⟨?_, hne'⟩
          rw [hstage, hsounded, List.filterMap_append, List.append_assoc]
          rfl

theorem Phase.sounded_of_entered (h : Stage.entered ∈ phase.sounded) :
    phase.sounded = [.siren, .snapshot, .webhook, .entered] := by
  cases phase with
  | sounding c now hdue stage => cases stage <;> simp_all [Phase.sounded]
  | idle | armed _ _ _ | counting _ _ => simp [Phase.sounded] at h

/-- An episode that gets to the alarm has each of its actions exactly once, in order. -/
theorem Episode.stages_of_entered {e e' : Episode} (hrun : Run Episode.read e log e')
    (hphase : e.phase ≠ .idle) (hfresh : e.phase.sounded = [])
    (hlog : ∀ action ∈ log, !action.isDisarm) (hentered : .enter .alarm ∈ log) :
    log.filterMap Action.stage? = [.siren, .snapshot, .webhook, .entered] := by
  obtain ⟨hsounded, -⟩ := Episode.sounded_of_run hrun hphase hlog
  rw [hfresh, List.nil_append] at hsounded
  have hmem : Stage.entered ∈ log.filterMap Action.stage? :=
    List.mem_filterMap.mpr ⟨_, hentered, rfl⟩
  rw [← hsounded] at hmem ⊢
  exact Phase.sounded_of_entered hmem

theorem Phase.read_of_stage {stage : Stage} (h : action.stage? = some stage) :
    phase.read cfg action = phase.alarm stage := by
  cases action with
  | startSiren _ | snapshot _ _ | webhook _ =>
      cases h
      rfl
  | enter state =>
      cases state with
      | alarm =>
          cases h
          rfl
      | idle | armed | triggered => cases h
  | handle _ | lockSession _ _ | unlockSession _ _ | play _ | stopSiren | startGrace _ _
  | startCountdown _ _ | clearTimers | wake _ | resolved _ _ _ | saved _ | installed _
  | replyConfig _ | replySet _ | learn _ _ | refuseLearn _ => cases h

/-- An alarm action is read only once the countdown of the episode has run out. -/
theorem Phase.Traced.ranOut {stage : Stage} (h : phase.Traced cfg log)
    (hread : phase.alarm stage = .ok next) :
    ∃ c now, WokenAt cfg c now log ∧ c.deadline ≤ now.nanos := by
  unfold Phase.alarm at hread
  split at hread
  · rename_i c now
    split_ifs at hread with hdue
    exact ⟨c, now, h.2 now rfl, hdue⟩
  all_goals
    first
    | cases hread; done
    | exact ⟨_, _, h, by assumption⟩

theorem Episode.ranOut_of_run {e : Episode} {before after : List Action} {stage : Stage}
    (hrun : Run Episode.read ⟨cfg, .idle⟩ (before ++ action :: after) e)
    (haction : action.stage? = some stage) :
    ∃ c now, WokenAt cfg c now before ∧ c.deadline ≤ now.nanos := by
  obtain ⟨e₁, hbefore, hrest⟩ := run_append_iff.mp hrun
  obtain ⟨e₂, hread, -⟩ := run_cons_iff.mp hrest
  obtain ⟨-, htraced⟩ := Episode.traced_of_run hbefore
  rw [Episode.read, Phase.read_of_stage haction] at hread
  cases hnext : e₁.phase.alarm stage with
  | error _ =>
      rw [hnext] at hread
      cases hread
  | ok next => exact htraced.ranOut hnext

/-- The start of a grace period is the start of an episode. -/
theorem Episode.fresh_of_startGrace {e e' : Episode} {now : Instant} {secs : UInt64}
    (hread : e.read (.startGrace now secs) = .ok e') :
    e'.phase ≠ .idle ∧ e'.phase.sounded = [] := by
  obtain ⟨cfg, phase⟩ := e
  cases phase with
  | idle =>
      simp only [Episode.read, Phase.read, Phase.startGrace] at hread
      split_ifs at hread
      · cases hread
        exact ⟨nofun, rfl⟩
      · cases hread
  | armed _ _ _ | counting _ _ | sounding _ _ _ _ => cases hread

end Read

end AlertU
