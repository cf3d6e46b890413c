import AlertU.Bench
import AlertU.Logs
import AlertU.MachineTurn
import AlertU.Runs

/-! The guard together with the session it locks: `LockedHint`, the screen locker that carries out
the lock and unlock requests, the observer of the hint, and the lock channel. Each of them goes on at
its own pace, so a change of the hint may be delivered any number of messages later. -/

open FilePath Runs Logs

namespace AlertU

/-- How the session is observed: over D-Bus, with the signals that are still under way, or by polling,
with the last state of `monitor` and a reading it has not dealt with yet. -/
inductive Observer where
  | subscribing
  | dbus (signals : List Bool)
  | polling (last reading : Option Bool)
  deriving DecidableEq, Repr

namespace Observer

/-- `PropertiesChanged` on `LockedHint`. -/
def changed (locked : Bool) : Observer → Observer
  | .dbus signals => .dbus (signals ++ [locked])
  | observer => observer

/-- No change to unlocked is under way or about to be seen. -/
def quiet (hint : Bool) : Observer → Bool
  | .subscribing => true
  | .dbus signals => false ∉ signals
  | .polling last reading => (last.toList ++ reading.toList ++ [hint]).Pairwise (· ≤ ·)

variable {observer : Observer} {hint : Bool}

theorem quiet_lock (h : observer.quiet hint) : (observer.changed true).quiet true := by
  cases observer with
  | subscribing => rfl
  | dbus signals => simpa [quiet, changed] using h
  | polling last reading =>
      revert hint
      cases last with
      | none => cases reading <;> simp [quiet, changed]
      | some last => cases last <;> cases reading <;> simp_all [quiet, changed]

theorem quiet_read {last : Option Bool} {locked : Bool} (hlocked : locked = hint)
    (h : (Observer.polling last none).quiet hint) :
    (Observer.polling last (some locked)).quiet hint := by
  subst hlocked
  cases last with
  | none => simp [quiet]
  | some last => simpa [quiet] using h

/-- `monitor` pushes an unlock only after a lock. -/
theorem quiet_report {last : Option Bool} {reading : Bool}
    (h : (Observer.polling last (some reading)).quiet hint) :
    false ∉ (monitorStep last (some reading)).2.toList ∧
      (Observer.polling (monitorStep last (some reading)).1 none).quiet hint := by
  revert h
  cases last with
  | none => cases reading <;> cases hint <;> decide
  | some last => cases last <;> cases reading <;> cases hint <;> decide

end Observer

/-- What happens, in the order in which it happens: the actions of the machine and the changes of
`LockedHint`, by the user or by the locker on request. -/
inductive Moment where
  | acted (action : Action)
  | user (locked : Bool)
  | locker (locked : Bool)
  deriving DecidableEq, Repr

/-- The request that a command of the machine leaves with the locker. -/
def Action.request : Action → Option Bool
  | .lockSession _ .succeeded => some true
  | .unlockSession _ .succeeded => some false
  | _ => none

structure Desktop where
  daemon : Daemon
  hint : Bool
  requests : List Bool
  observer : Observer
  lockChannel : List Bool
  history : List Moment

inductive DesktopInput where
  | machine (wake : Wake) (host : Host)
  | deliver (host : Host)
  | locker (obeys : Bool)
  | user (locked : Bool)
  | subscribe
  | fallBack
  | signal
  | read (ctl : Loginctl)
  | report

namespace Desktop

def start (daemon : Daemon) (hint : Bool) : Desktop :=
  ⟨daemon, hint, [], .subscribing, [], daemon.log.map .acted⟩

variable (s : Desktop)

/-- The machine has come to `next`. -/
def moveTo (next : Daemon) : Desktop :=
  let actions := s.daemon.since next
  { s with
    daemon := next
    requests := s.requests ++ actions.filterMap Action.request
    history := s.history ++ actions.map .acted }

/-- `LockedHint` is set; logind announces it only if it changes. -/
def setHint (moment : Bool → Moment) (locked : Bool) : Desktop :=
  if s.hint = locked then s
  else
    { s with
      hint := locked
      observer := s.observer.changed locked
      history := s.history ++ [moment locked] }

end Desktop

/-- The messages of the machine other than the changes of the lock state and new configurations: the
session stays the one that is observed. -/
def Wake.isOther : Wake → Bool
  | .lock _ | .lockClosed | .control (.setConfig _) => false
  | _ => true

namespace Desktop

def step (p : Platform) (s : Desktop) : DesktopInput → Except Unit Desktop
  | .machine wake host =>
      if wake.isOther then
        match s.daemon.step p (wake, host) with
        | .ok next => .ok (s.moveTo next)
        | .error _ => .error ()
      else .error ()
  | .deliver host =>
      match s.lockChannel with
      | [] => .error ()
      | locked :: rest =>
          match s.daemon.step p (.lock locked, host) with
          | .ok next => .ok ({ s with lockChannel := rest }.moveTo next)
          | .error _ => .error ()
  | .locker obeys =>
      match s.requests with
      | [] => .error ()
      | locked :: rest =>
          let s := { s with requests := rest }
          .ok (if obeys then s.setHint .locker locked else s)
  | .user locked => .ok (s.setHint .user locked)
  | .subscribe =>
      match s.observer with
      | .subscribing => .ok { s with observer := .dbus [] }
      | _ => .error ()
  | .fallBack =>
      match s.observer with
      | .polling _ _ => .error ()
      | _ => .ok { s with observer := .polling none none }
  | .signal =>
      match s.observer with
      | .dbus (locked :: signals) =>
          .ok { s with observer := .dbus signals, lockChannel := s.lockChannel ++ [locked] }
      | _ => .error ()
  | .read ctl =>
      match s.observer, s.daemon.session.isLocked ctl with
      | .polling _ none, none => .ok s
      | .polling last none, some locked =>
          -- what `loginctl` answers is the hint at this moment
          if locked = s.hint then .ok { s with observer := .polling last (some locked) }
          else .error ()
      | _, _ => .error ()
  | .report =>
      match s.observer with
      | .polling last (some reading) =>
          let (last, emitted) := monitorStep last (some reading)
          .ok { s with
            observer := .polling last none
            lockChannel := s.lockChannel ++ emitted.toList }
      | _ => .error ()

/-- No notification of an unlock is left over: none in the lock channel, none that the observer is
still to send, and no request that would lead to another one. -/
def drained (s : Desktop) : Bool :=
  false ∉ s.lockChannel && false ∉ s.requests && s.observer.quiet s.hint

/-- The condition on one step: the guard is armed with everything drained. -/
def calm (s : Desktop) : DesktopInput → Bool
  | .machine wake _ => !s.daemon.arms wake || s.drained
  | _ => true

end Desktop

/-- The user has unlocked the session and the guard has not been armed since. -/
def UnlockedByUser (history : List Moment) : Prop :=
  ∃ before after, history = before ++ .user false :: after ∧ .acted (.enter .armed) ∉ after

/-- If the moment is a disarm by an unlocked session, the user has unlocked it during the episode. -/
def Explained (before : List Moment) (moment : Moment) (_after : List Moment) : Prop :=
  moment = .acted (.handle .sessionUnlocked) → UnlockedByUser before

theorem UnlockedByUser.append {history segment : List Moment} (h : UnlockedByUser history)
    (hsegment : .acted (.enter .armed) ∉ segment) : UnlockedByUser (history ++ segment) := by
  obtain ⟨before, after, rfl, hafter⟩ := h
  refine ⟨before, after ++ segment, by rw [List.append_assoc]; rfl, ?_⟩
  rw [List.mem_append]
  exact not_or.mpr ⟨hafter, hsegment⟩

theorem each_explained {before segment : List Moment}
    (h : .acted (.handle .sessionUnlocked) ∉ segment) : Each Explained before segment := by
  rw [each_iff]
  rintro middle moment after rfl rfl
  exact absurd (List.mem_append_right _ List.mem_cons_self) h

namespace Desktop

variable {p : Platform} {s s' : Desktop} {wake : Wake} {host : Host} {next : Daemon}

/-- What one step of the desktop can do. -/
inductive Stepped (p : Platform) (s : Desktop) : DesktopInput → Desktop → Prop where
  | machine (wake : Wake) (host : Host) (next : Daemon) (hother : wake.isOther)
      (hnext : s.daemon.step p (wake, host) = .ok next) : Stepped p s (.machine wake host) (s.moveTo next)
  | delivered (host : Host) (locked : Bool) (rest : List Bool) (next : Daemon)
      (hchannel : s.lockChannel = locked :: rest)
      (hnext : s.daemon.step p (.lock locked, host) = .ok next) :
      Stepped p s (.deliver host) ({ s with lockChannel := rest }.moveTo next)
  | locker (obeys locked : Bool) (rest : List Bool) (hrequests : s.requests = locked :: rest) :
      Stepped p s (.locker obeys) (if obeys then { s with requests := rest }.setHint .locker locked
        else { s with requests := rest })
  | user (locked : Bool) : Stepped p s (.user locked) (s.setHint .user locked)
  | subscribed (hobserver : s.observer = .subscribing) :
      Stepped p s .subscribe { s with observer := .dbus [] }
  | fellBack (hobserver : ∀ last reading, s.observer ≠ .polling last reading) :
      Stepped p s .fallBack { s with observer := .polling none none }
  | signalled (locked : Bool) (signals : List Bool) (hobserver : s.observer = .dbus (locked :: signals)) :
      Stepped p s .signal
        { s with observer := .dbus signals, lockChannel := s.lockChannel ++ [locked] }
  | unread (ctl : Loginctl) : Stepped p s (.read ctl) s
  | read (ctl : Loginctl) (last : Option Bool) (hobserver : s.observer = .polling last none) :
      Stepped p s (.read ctl) { s with observer := .polling last (some s.hint) }
  | reported (last : Option Bool) (reading : Bool)
      (hobserver : s.observer = .polling last (some reading)) :
      Stepped p s .report { s with
        observer := .polling (monitorStep last (some reading)).1 none
        lockChannel := s.lockChannel ++ (monitorStep last (some reading)).2.toList }

theorem step_cases {input : DesktopInput} (hstep : s.step p input = .ok s') : Stepped p s input s' := by
  cases input with
  | machine wake host =>
      simp only [Desktop.step] at hstep
      split_ifs at hstep with hother
      split at hstep
      · rename_i next hnext
        cases hstep
        exact .machine wake host next hother hnext
      · cases hstep
  | deliver host =>
      simp only [Desktop.step] at hstep
      split at hstep
      · cases hstep
      · rename_i hchannel
        split at hstep
        · rename_i next hnext
          cases hstep
          exact .delivered host _ _ next hchannel hnext
        · cases hstep
  | locker obeys =>
      simp only [Desktop.step] at hstep
      split at hstep
      · cases hstep
      · rename_i hrequests
        cases hstep
        exact .locker obeys _ _ hrequests
  | user locked =>
      cases hstep
      exact .user locked
  | subscribe =>
      simp only [Desktop.step] at hstep
      split at hstep
      · rename_i hobserver
        cases hstep
        exact .subscribed hobserver
      · cases hstep
  | fallBack =>
      simp only [Desktop.step] at hstep
      split at hstep
      · cases hstep
      · rename_i hobserver
        cases hstep
        exact .fellBack hobserver
  | signal =>
      simp only [Desktop.step] at hstep
      split at hstep
      · rename_i locked signals hobserver
        cases hstep
        exact .signalled locked signals hobserver
      · cases hstep
  | read ctl =>
      simp only [Desktop.step] at hstep
      split at hstep
      · cases hstep
        exact .unread ctl
      · rename_i last locked hobserver _
        split_ifs at hstep with hhint
        cases hstep
        subst hhint
        exact .read ctl last hobserver
      · cases hstep
  | report =>
      simp only [Desktop.step] at hstep
      split at hstep
      · rename_i last reading hobserver
        cases hstep
        exact .reported last reading hobserver
      · cases hstep

/-- While the guard is active, either the user has unlocked the session or no unlock is left over. -/
structure Explains (s : Desktop) : Prop where
  quiet : s.daemon.state ≠ .idle → UnlockedByUser s.history ∨ s.drained
  explained : Each Explained [] s.history

namespace Explains

theorem explained_append (h : s.Explains) {segment : List Moment}
    (hsegment : Each Explained s.history segment) : Each Explained [] (s.history ++ segment) :=
  h.explained.append (fun _ _ _ _ hmoment => hmoment) hsegment

theorem extend (h : s.Explains) (segment : List Moment)
    (hhistory : s'.history = s.history ++ segment) (harmed : .acted (.enter .armed) ∉ segment)
    (hunlocked : .acted (.handle .sessionUnlocked) ∉ segment)
    (hstate : s'.daemon.state ≠ .idle → s.daemon.state ≠ .idle)
    (hdrained : s.daemon.state ≠ .idle → s.drained → UnlockedByUser s'.history ∨ s'.drained) :
    s'.Explains := by
  constructor
  · intro hactive
    rcases h.quiet (hstate hactive) with huser | hquiet
    · rw [hhistory]
      exact .inl (huser.append harmed)
    · exact hdrained (hstate hactive) hquiet
  · rw [hhistory]
    exact h.explained_append (each_explained hunlocked)

/-- The history stands still. -/
theorem keep (h : s.Explains) (hhistory : s'.history = s.history) (hdaemon : s'.daemon = s.daemon)
    (hdrained : s.drained → s'.drained) : s'.Explains :=
  h.extend [] (by rw [hhistory, List.append_nil]) List.not_mem_nil List.not_mem_nil
    (by rw [hdaemon]; exact id) fun _ hquiet => .inr (hdrained hquiet)

end Explains

theorem moveTo_eq (actions : List Action) (hlog : next.log = s.daemon.log ++ actions) :
    s.moveTo next = { s with
      daemon := next
      requests := s.requests ++ actions.filterMap Action.request
      history := s.history ++ actions.map .acted } := by
  simp only [moveTo, Daemon.since_eq hlog]

theorem drained_iff : s.drained ↔
    false ∉ s.lockChannel ∧ false ∉ s.requests ∧ s.observer.quiet s.hint := by
  simp [drained, and_assoc]

theorem isPlain_acted {action : Action} {actions : List Action}
    (hplain : actions.all Action.isPlain) (haction : action.isPlain = false) :
    .acted action ∉ actions.map Moment.acted := by
  intro hmem
  obtain ⟨action', hmem', heq⟩ := List.mem_map.mp hmem
  cases heq
  have := List.all_eq_true.mp hplain action hmem'
  rw [haction] at this
  cases this

theorem filterMap_request_of_isPlain {actions : List Action} (hplain : actions.all Action.isPlain) :
    actions.filterMap Action.request = [] := by
  rw [List.filterMap_eq_nil_iff]
  intro action haction
  have := List.all_eq_true.mp hplain action haction
  cases action <;> first | rfl | cases this

theorem eventOf_ne {event : Event} (hother : wake.isOther)
    (hwake : Daemon.eventOf wake = some event) : event ≠ .sessionUnlocked := by
  rintro rfl
  cases wake with
  | lock locked => cases hother
  | input signal => cases signal <;> cases hwake
  | control ctrl => cases ctrl <;> cases hwake
  | inputsClosed | lockClosed | controlsClosed | timer => cases hwake

theorem Explains.machine (h : s.Explains) (hother : wake.isOther)
    (hcalm : s.calm (.machine wake host)) (hturn : Daemon.Turn p host s.daemon wake next) :
    (s.moveTo next).Explains := by
  cases hturn with
  | plain _ _ segment hlog hplain hstate _ _ =>
      rw [moveTo_eq _ hlog, filterMap_request_of_isPlain hplain, List.append_nil]
      exact h.extend _ rfl (isPlain_acted hplain rfl) (isPlain_acted hplain rfl) (mt hstate.mpr)
        fun _ => .inr
  | ignored _ event hwake hignored =>
      have hevent := eventOf_ne hother hwake
      rw [moveTo_eq [.handle event] rfl]
      refine h.extend _ rfl (by simp) (by simpa using hevent.symm) id fun _ hquiet => .inr ?_
      simpa [drained_iff, Action.request] using hquiet
  | armed _ event graceUntil hwake hevent hstate =>
      have hquiet : s.drained := by simpa [calm, Daemon.arms, hstate, hwake, hevent] using hcalm
      rw [drained_iff] at hquiet
      rw [moveTo_eq _ rfl]
      refine ⟨fun _ => .inr (drained_iff.mpr ⟨hquiet.1, ?_, hquiet.2.2⟩),
        h.explained_append (each_explained ?_)⟩
      · rw [List.mem_append, not_or]
        refine ⟨hquiet.2.1, ?_⟩
        cases s.daemon.session.run host.loginctl <;> simp [Action.request]
      · simpa using (eventOf_ne hother hwake).symm
  | disarmed _ event hwake hevent hstate =>
      have hne := eventOf_ne hother hwake
      rw [moveTo_eq _ (List.append_assoc _ _ _)]
      refine ⟨fun hactive => absurd rfl hactive,
        h.explained_append (each_explained ?_)⟩
      simp [Daemon.unlockActions, hne, hne.symm]
  | installed cfg files _ _ => cases hother

/-- A message of the lock channel: an unlock disarms an active guard, and the others are ignored. -/
theorem Explains.deliver (h : s.Explains) {locked : Bool} {rest : List Bool}
    (hchannel : s.lockChannel = locked :: rest)
    (hstep : s.daemon.step p (.lock locked, host) = .ok next) :
    ({ s with lockChannel := rest }.moveTo next).Explains := by
  have hrest : s.drained → ({ s with lockChannel := rest } : Desktop).drained := by
    simp only [drained_iff, hchannel, List.mem_cons, not_or]
    exact fun ⟨⟨_, hrest⟩, hquiet⟩ => ⟨hrest, hquiet⟩
  change s.daemon.onLock p host locked = .ok next at hstep
  rw [Daemon.onLock] at hstep
  split_ifs at hstep with hguard
  · obtain ⟨hlocked, hactive⟩ := hguard
    have hlocked : locked = false := by simpa using hlocked
    subst hlocked
    have hactive : s.daemon.state ≠ .idle := by simpa [GuardState.isActive] using hactive
    rw [Daemon.apply_disarm hactive rfl] at hstep
    cases hstep
    have huser : UnlockedByUser s.history := by
      rcases h.quiet hactive with huser | hquiet
      · exact huser
      · rw [drained_iff, hchannel] at hquiet
        exact absurd List.mem_cons_self hquiet.1
    rw [moveTo_eq _ (List.append_assoc _ _ _)]
    refine ⟨fun hactive => absurd rfl hactive,
      h.explained_append ?_⟩
    exact ⟨fun _ => huser, each_explained (by simp [Daemon.unlockActions])⟩
  · cases hstep
    rw [moveTo_eq _ (List.append_nil _).symm]
    exact h.keep (List.append_nil _) rfl (by simpa using hrest)

theorem Explains.setHint (h : s.Explains) {moment : Bool → Moment} {locked : Bool}
    (hmoment : ∀ action, moment locked ≠ .acted action)
    (hlocked : s.daemon.state ≠ .idle → locked = false →
      UnlockedByUser (s.history ++ [moment locked])) : (s.setHint moment locked).Explains := by
  unfold Desktop.setHint
  split_ifs with hsame
  · exact h
  · refine h.extend [moment locked] rfl (by simpa using (hmoment _).symm)
      (by simpa using (hmoment _).symm) id fun hactive hquiet => ?_
    cases locked with
    | false => exact .inl (hlocked hactive rfl)
    | true =>
        rw [drained_iff] at hquiet
        exact .inr (drained_iff.mpr ⟨hquiet.1, hquiet.2.1, Observer.quiet_lock hquiet.2.2⟩)

theorem Explains.locker (h : s.Explains) {locked : Bool} {rest : List Bool}
    (hrequests : s.requests = locked :: rest) (obeys : Bool) :
    Explains (if obeys then { s with requests := rest }.setHint .locker locked
      else { s with requests := rest }) := by
  have hrest : Explains { s with requests := rest } := by
    refine h.keep rfl rfl ?_
    simp only [drained_iff, hrequests, List.mem_cons, not_or]
    exact fun ⟨hchannel, ⟨_, hrest⟩, hquiet⟩ => ⟨hchannel, hrest, hquiet⟩
  split_ifs
  · refine hrest.setHint nofun fun hactive hlocked => ?_
    subst hlocked
    rcases h.quiet hactive with huser | hquiet
    · exact huser.append (by simp)
    · rw [drained_iff, hrequests] at hquiet
      exact absurd List.mem_cons_self hquiet.2.1
  · exact hrest

theorem Explains.user (h : s.Explains) (locked : Bool) : (s.setHint .user locked).Explains := by
  refine h.setHint nofun fun _ hlocked => ?_
  subst hlocked
  exact ⟨s.history, [], rfl, List.not_mem_nil⟩

/-- The observer moves on, and passes no unlock on that was not left over before. -/
theorem Explains.observe (h : s.Explains) {observer : Observer} {lockChannel : List Bool}
    (hquiet : false ∉ s.lockChannel → s.observer.quiet s.hint →
      false ∉ lockChannel ∧ observer.quiet s.hint) : Explains { s with observer, lockChannel } := by
  refine h.keep rfl rfl fun hdrained => ?_
  rw [drained_iff] at hdrained ⊢
  obtain ⟨hchannel, hobserver⟩ := hquiet hdrained.1 hdrained.2.2
  exact ⟨hchannel, hdrained.2.1, hobserver⟩

theorem Explains.step (h : s.Explains) {input : DesktopInput} (hcalm : s.calm input)
    (hstep : s.step p input = .ok s') : s'.Explains := by
  cases step_cases hstep with
  | machine wake host next hother hnext =>
      exact h.machine hother hcalm (Daemon.turn_of_step hnext)
  | delivered host locked rest next hchannel hnext => exact h.deliver hchannel hnext
  | locker obeys locked rest hrequests => exact h.locker hrequests obeys
  | user locked => exact h.user locked
  | subscribed hobserver =>
      exact h.observe fun hchannel _ => ⟨hchannel, by simp [Observer.quiet]⟩
  | fellBack hobserver =>
      exact h.observe fun hchannel _ => ⟨hchannel, by simp [Observer.quiet]⟩
  | signalled locked signals hobserver =>
      refine h.observe fun hchannel hquiet => ?_
      rw [hobserver] at hquiet
      simp only [Observer.quiet, List.mem_cons, not_or, decide_eq_true_eq, List.mem_append,
        List.not_mem_nil, or_false] at hquiet ⊢
      exact ⟨⟨hchannel, hquiet.1⟩, hquiet.2⟩
  | unread ctl => exact h
  | read ctl last hobserver =>
      refine h.observe fun hchannel hquiet => ?_
      rw [hobserver] at hquiet
      exact ⟨hchannel, Observer.quiet_read rfl hquiet⟩
  | reported last reading hobserver =>
      refine h.observe fun hchannel hquiet => ?_
      rw [hobserver] at hquiet
      obtain ⟨hemitted, hlast⟩ := Observer.quiet_report hquiet
      rw [List.mem_append, not_or]
      exact ⟨⟨hchannel, hemitted⟩, hlast⟩

/-- As long as the guard is armed with no unlock left over from before, the lock channel disarms an
episode only if the user has unlocked the session during that episode. -/
theorem unlock_during_episode {files : FileSystem} {cfg : Config} {cfgPath : PathBuf}
    {privileges : Privileges} {hint : Bool} {inputs : List DesktopInput}
    (hrun : RunIf (step p) (fun s input => s.calm input)
      (start (.start p host files cfg cfgPath privileges) hint) inputs s) :
    ∀ before after, s.history = before ++ .acted (.handle .sessionUnlocked) :: after →
      UnlockedByUser before := by
  have hstart : (start (.start p host files cfg cfgPath privileges) hint).Explains :=
    ⟨fun hactive => absurd rfl hactive, nofun, trivial⟩
  have h : s.Explains := hrun.invariant hstart fun _ _ _ h hcalm hnext => h.step hcalm hnext
  intro before after hhistory
  exact each_iff.mp h.explained before _ after hhistory rfl

theorem deliver_unlock (host : Host) {rest : List Bool} (hactive : s.daemon.state ≠ .idle)
    (hchannel : s.lockChannel = false :: rest) :
    s.step p (.deliver host) = .ok
      (({ s with lockChannel := rest } : Desktop).moveTo
        (s.daemon.disarming host .sessionUnlocked)) := by
  have hguard : (!false) = true ∧ s.daemon.state.isActive = true := by
    simpa [GuardState.isActive] using hactive
  have hunlocked : s.daemon.step p (.lock false, host) =
      .ok (s.daemon.disarming host .sessionUnlocked) := by
    show s.daemon.onLock p host false = _
    rw [Daemon.onLock, if_pos hguard, Daemon.apply_disarm hactive rfl]
  simp only [step, hchannel, hunlocked]

/-- The condition is needed: an unlock that waits in the lock channel disarms an active guard by
deliveries alone, whoever has unlocked the session. -/
theorem waiting_unlock_disarms (host : Host) {n : ℕ} {rest : List Bool}
    (hactive : s.daemon.state ≠ .idle)
    (hchannel : s.lockChannel = List.replicate n true ++ false :: rest) :
    ∃ s' after, Run (step p) s (List.replicate (n + 1) (.deliver host)) s' ∧
      s'.history = s.history ++ .acted (.handle .sessionUnlocked) :: after := by
  induction n generalizing s with
  | zero =>
      have hrun : Run (step p) s [.deliver host] _ :=
        run_cons_iff.mpr ⟨_, deliver_unlock host hactive hchannel, .nil⟩
      have hmoved : ({ s with lockChannel := rest } : Desktop).moveTo
          (s.daemon.disarming host .sessionUnlocked) = _ := moveTo_eq _ (List.append_assoc _ _ _)
      exact ⟨_, _, hrun, congrArg Desktop.history hmoved⟩
  | succ n ih =>
      have hlocked : s.daemon.step p (.lock true, host) = .ok s.daemon := by
        show s.daemon.onLock p host true = _
        rw [Daemon.onLock, if_neg (by simp)]
      have hmoved : { s with lockChannel := List.replicate n true ++ false :: rest }.moveTo s.daemon =
          { s with lockChannel := List.replicate n true ++ false :: rest } := by
        rw [moveTo_eq _ (List.append_nil _).symm]
        simp
      obtain ⟨s', after, hrun, hhistory⟩ := ih
        (s := { s with lockChannel := List.replicate n true ++ false :: rest }) hactive rfl
      refine ⟨s', after, run_cons_iff.mpr ⟨_, ?_, hrun⟩, hhistory⟩
      simp only [step, hchannel, List.replicate_succ, List.cons_append, hlocked, hmoved]

/-- A request and its announcement over D-Bus, up to the lock channel and into the machine. -/
def carriedOut : List DesktopInput := [.locker true, .signal, .deliver (Bench.host "c1")]

theorem unlock_during_episode_by_user :
    ∃ (s : Desktop) (before after : List Moment),
      s.history = before ++ .acted (.handle .sessionUnlocked) :: after ∧ UnlockedByUser before := by
  obtain ⟨s, hrun, hhistory⟩ : ∃ s, RunIf (step Bench.platform) (fun s input => s.calm input)
      (start (Bench.boot .default "c1") false)
      (.subscribe :: .machine (.control .toggle) (Bench.host "c1") :: carriedOut ++
        [.user false, .signal, .deliver (Bench.host "c1")]) s ∧
      s.history = s.history.take 8 ++ .acted (.handle .sessionUnlocked) :: s.history.drop 9 :=
    ⟨_, runIf_get (by decide +kernel), by decide +kernel⟩
  exact ⟨s, _, _, hhistory, unlock_during_episode hrun _ _ hhistory⟩

/-- Armed, disarmed and armed again before the change to unlocked has been delivered: the unlock that
the machine itself has asked for ends the second episode. -/
theorem own_unlock_disarms :
    ¬∀ (p : Platform) (host : Host) (files : FileSystem) (cfg : Config) (cfgPath : PathBuf)
        (privileges : Privileges) (hint : Bool) (inputs : List DesktopInput) (s : Desktop),
      Run (step p) (start (.start p host files cfg cfgPath privileges) hint) inputs s →
      ∀ before after, s.history = before ++ .acted (.handle .sessionUnlocked) :: after →
        UnlockedByUser before := by
  intro h
  obtain ⟨s, hrun, hhistory, huser⟩ : ∃ s, Run (step Bench.platform)
      (start (Bench.boot .default "c1") false)
      (.subscribe :: .machine (.control .toggle) (Bench.host "c1") :: carriedOut ++
        [.machine (.control .toggle) (Bench.host "c1"), .locker true,
          .machine (.control .toggle) (Bench.host "c1"), .signal, .deliver (Bench.host "c1")]) s ∧
      s.history = s.history.take 19 ++ .acted (.handle .sessionUnlocked) :: s.history.drop 20 ∧
      .user false ∉ s.history.take 19 :=
    ⟨_, run_get (by decide +kernel), by decide +kernel⟩
  obtain ⟨before, after, hsplit, -⟩ := h _ _ _ _ _ _ _ _ s hrun _ _ hhistory
  rw [hsplit] at huser
  exact huser (List.mem_append_right _ List.mem_cons_self)

end Desktop

end AlertU
