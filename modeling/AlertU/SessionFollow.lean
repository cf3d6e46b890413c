import AlertU.Bench
import AlertU.Logs
import AlertU.Runs
import AlertU.Session

/-! The watcher of the session's lock state while the session is reconfigured: its subscriptions over
D-Bus, the re-checks that give them up, and the polling that it falls back to. Times are in milliseconds. -/

open Logs Runs

namespace AlertU

/-- How often a subscription checks that its session is still the one of the configuration. -/
def RECHECK_INTERVAL : ℕ := 5000

/-- A value of a D-Bus dictionary; one that holds a file descriptor may fail to be cloned. -/
inductive PropertyValue where
  | bool (b : Bool)
  | other
  | unclonable
  deriving DecidableEq, Repr

/-- A `PropertiesChanged` signal; its arguments may be unreadable. -/
inductive PropertySignal where
  | unreadable
  | changed (interfaceName : String) (changedProperties : List (String × PropertyValue))
  deriving DecidableEq, Repr

namespace PropertySignal

/-- What a signal tells about the lock state, if anything. An error ends the subscription. -/
def lockedHint : PropertySignal → Except Unit (Option Bool)
  | .unreadable => .error ()
  | .changed interfaceName changedProperties =>
      if interfaceName ≠ "org.freedesktop.login1.Session" then .ok none
      else
        match changedProperties.lookup "LockedHint" with
        | none | some .other => .ok none
        | some (.bool b) => .ok (some b)
        | some .unclonable => .error ()

def hint? (signal : PropertySignal) : Option Bool := signal.lockedHint.toOption.join

end PropertySignal

/-- A subscription: the session it was built for, when it checks that next, and the signals that it has
not taken. -/
structure Subscription where
  id : String
  nextTick : ℕ
  signals : List PropertySignal
  deriving DecidableEq, Repr

/-- Where the watcher is: at the head of the loop of `watch`, in `dbus_watch`, in `monitor`, or back. -/
inductive WatchStage where
  | idle
  | connecting (id : String)
  | selecting (sub : Subscription)
  | sending (sub : Subscription) (locked : Bool)
  | polling (last : Option Bool)
  | reporting (locked : Bool)
  | returned
  deriving DecidableEq, Repr

/-- What happens: the configuration points to a session, the machine drops its receiver; the watcher finds
that its session is the one of the configuration, subscribes, receives a signal and passes a lock state on,
falls back, polls, and returns. -/
inductive WatchEvent where
  | pointed (id : String)
  | hungUp
  | checked (id : String)
  | subscribed
  | received (signal : PropertySignal)
  | passed (id : String) (locked : Bool)
  | fellBack
  | polled
  | returned
  deriving DecidableEq, Repr

namespace WatchEvent

def pointed? : WatchEvent → Option String
  | .pointed id => some id
  | _ => none

def checked? : WatchEvent → Option String
  | .checked id => some id
  | _ => none

def received? : WatchEvent → Option Bool
  | .received signal => signal.hint?
  | _ => none

def passed? : WatchEvent → Option Bool
  | .passed _ locked => some locked
  | _ => none

def isSubscribed : WatchEvent → Bool
  | .subscribed => true
  | _ => false

/-- The time to the next check runs from here. -/
def isStart : WatchEvent → Bool
  | .checked _ | .subscribed => true
  | _ => false

end WatchEvent

inductive WatchInput where
  | pass (millis : ℕ)
  | updateFrom (ctl : Loginctl) (cfg : Config)
  | hangUp
  | begin
  | subscribe (ok : Bool)
  | receive (signal : PropertySignal)
  | next
  | streamEnd
  | recheck
  | sent
  | poll (ctl : Loginctl)

/-- The watcher, with the session of the configuration and the receiver of the lock channel. -/
structure LockWatch where
  now : ℕ
  session : SessionCtl
  receiver : Bool
  stage : WatchStage
  log : List (ℕ × WatchEvent)

namespace LockWatch

def start (session : SessionCtl) : LockWatch :=
  ⟨0, session, true, .idle, [(0, .pointed session.id)]⟩

variable (w : LockWatch)

def note (stage : WatchStage) (event : WatchEvent) : LockWatch :=
  { w with stage, log := w.log ++ [(w.now, event)] }

/-- There is no subscription, or it has ended: the session is polled. -/
def fallBack : LockWatch := w.note (.polling none) .fellBack

/-- A lock state could not be passed on, since the receiver is gone. -/
def giveUp : LockWatch := w.note .returned .returned

def step (w : LockWatch) : WatchInput → Except Unit LockWatch
  | .pass millis => .ok { w with now := w.now + millis }
  | .updateFrom ctl cfg =>
      let session := w.session.updateFrom ctl cfg
      .ok { w with session, log := w.log ++ [(w.now, .pointed session.id)] }
  | .hangUp => .ok { w with receiver := false, log := w.log ++ [(w.now, .hungUp)] }
  | .begin =>
      match w.stage with
      | .idle =>
          .ok (if w.session.id = "" then w.fallBack
            else w.note (.connecting w.session.id) (.checked w.session.id))
      | _ => .error ()
  | .subscribe ok =>
      match w.stage with
      | .connecting id =>
          .ok (if ok then w.note (.selecting ⟨id, w.now + RECHECK_INTERVAL, []⟩) .subscribed
            else w.fallBack)
      | _ => .error ()
  | .receive signal =>
      match w.stage with
      | .selecting sub =>
          .ok (w.note (.selecting { sub with signals := sub.signals ++ [signal] }) (.received signal))
      | .sending sub locked =>
          .ok (w.note (.sending { sub with signals := sub.signals ++ [signal] } locked) (.received signal))
      | _ => .error ()
  | .next =>
      match w.stage with
      | .selecting sub =>
          match sub.signals with
          | [] => .error ()
          | signal :: signals =>
              match signal.lockedHint with
              | .error _ => .ok w.fallBack
              | .ok none => .ok { w with stage := .selecting { sub with signals } }
              | .ok (some locked) => .ok { w with stage := .sending { sub with signals } locked }
      | _ => .error ()
  | .streamEnd =>
      match w.stage with
      | .selecting sub => if sub.signals = [] then .ok w.fallBack else .error ()
      | _ => .error ()
  | .recheck =>
      match w.stage with
      | .selecting sub =>
          if w.now < sub.nextTick then .error ()
          else if w.session.id ≠ sub.id then .ok { w with stage := .idle }
          else
            .ok (w.note (.selecting { sub with nextTick := sub.nextTick + RECHECK_INTERVAL })
              (.checked sub.id))
      | _ => .error ()
  | .sent =>
      match w.stage with
      | .sending sub locked =>
          .ok (if w.receiver then w.note (.selecting sub) (.passed sub.id locked) else w.giveUp)
      | .reporting locked =>
          .ok (if w.receiver then { w with stage := .polling (some locked) } else w.giveUp)
      | _ => .error ()
  | .poll ctl =>
      match w.stage with
      | .polling last =>
          match monitorStep last (w.session.isLocked ctl) with
          | (last, none) => .ok (w.note (.polling last) .polled)
          | (_, some locked) => .ok (w.note (.reporting locked) .polled)
      | _ => .error ()

/-! ### What the watcher keeps to -/

/-- The session that the configuration points to. -/
def pointedTo (log : List (ℕ × WatchEvent)) : Option String := latest (·.2.pointed?) log

/-- The session that the watcher has last found to be the one of the configuration. -/
def checkedFor (log : List (ℕ × WatchEvent)) : Option String := latest (·.2.checked?) log

/-- When the watcher has last subscribed or checked its session. -/
def lastStart (log : List (ℕ × WatchEvent)) : Option ℕ :=
  latest (fun e => if e.2.isStart then some e.1 else none) log

/-- The lock states that the signals of the last subscription report. -/
def receivedHints (log : List (ℕ × WatchEvent)) : List Bool := since (·.2.isSubscribed) (·.2.received?) log

/-- The lock states that have been passed on from the last subscription. -/
def passedHints (log : List (ℕ × WatchEvent)) : List Bool := since (·.2.isSubscribed) (·.2.passed?) log

/-- The watcher has neither fallen back nor returned. -/
def OnDBus (log : List (ℕ × WatchEvent)) : Prop := ∀ e ∈ log, e.2 ≠ .fellBack ∧ e.2 ≠ .returned

/-- The watcher has not returned. -/
def Live (log : List (ℕ × WatchEvent)) : Prop := ∀ e ∈ log, e.2 ≠ .returned

/-- What must have come before an event of the watcher: it uses D-Bus only until it falls back, does nothing
more when it has returned, and returns only when the receiver is gone. -/
def Orderly (before : List (ℕ × WatchEvent)) : WatchEvent → Prop
  | .pointed _ | .hungUp => True
  | .checked id => OnDBus before ∧ pointedTo before = some id
  | .subscribed | .received _ | .fellBack => OnDBus before
  | .passed id _ => OnDBus before ∧ checkedFor before = some id
  | .polled => Live before
  | .returned => Live before ∧ ∃ e ∈ before, e.2 = .hungUp

/-- A subscription after these events, with the states it is about to pass on. -/
structure Serves (log : List (ℕ × WatchEvent)) (sub : Subscription) (pending : List Bool) : Prop where
  onDBus : OnDBus log
  checked : checkedFor log = some sub.id
  told : passedHints log ++ pending ++ sub.signals.filterMap PropertySignal.hint? = receivedHints log
  due : ∃ t, lastStart log = some t ∧ sub.nextTick ≤ t + RECHECK_INTERVAL

/-- Where the watcher may be after these events. -/
def Fits (log : List (ℕ × WatchEvent)) : WatchStage → Prop
  | .idle => OnDBus log
  | .connecting id => OnDBus log ∧ checkedFor log = some id
  | .selecting sub => Serves log sub []
  | .sending sub locked => Serves log sub [locked]
  | .polling _ | .reporting _ => Live log
  | .returned => True

structure Tracking (w : LockWatch) : Prop where
  pointed : pointedTo w.log = some w.session.id
  gone : w.receiver = false → ∃ e ∈ w.log, e.2 = .hungUp
  orderly : Each (fun before e _ => Orderly before e.2) [] w.log
  told : passedHints w.log <+: receivedHints w.log
  fits : Fits w.log w.stage

variable {w} {w' : LockWatch} {log : List (ℕ × WatchEvent)} {t : ℕ} {event : WatchEvent}
  {sub : Subscription} {pending : List Bool}

theorem OnDBus.concat (h : OnDBus log) (hback : event ≠ .fellBack) (hreturned : event ≠ .returned) :
    OnDBus (log ++ [(t, event)]) :=
  List.forall_mem_append.mpr ⟨h, List.forall_mem_singleton.mpr ⟨hback, hreturned⟩⟩

theorem Live.concat (h : Live log) (hreturned : event ≠ .returned) : Live (log ++ [(t, event)]) :=
  List.forall_mem_append.mpr ⟨h, List.forall_mem_singleton.mpr hreturned⟩

theorem OnDBus.live (h : OnDBus log) : Live log := fun e he => (h e he).2

theorem checkedFor_concat : checkedFor (log ++ [(t, event)]) = event.checked?.or (checkedFor log) := by
  rw [checkedFor, latest_append, latest_singleton]
  rfl

theorem pointedTo_concat : pointedTo (log ++ [(t, event)]) = event.pointed?.or (pointedTo log) := by
  rw [pointedTo, latest_append, latest_singleton]
  rfl

theorem lastStart_concat : lastStart (log ++ [(t, event)]) =
    (if event.isStart then some t else none).or (lastStart log) := by
  rw [lastStart, latest_append, latest_singleton]
  rfl

theorem receivedHints_concat (h : event.isSubscribed = false) :
    receivedHints (log ++ [(t, event)]) = receivedHints log ++ event.received?.toList := since_concat h

theorem passedHints_concat (h : event.isSubscribed = false) :
    passedHints (log ++ [(t, event)]) = passedHints log ++ event.passed?.toList := since_concat h

theorem Serves.told_prefix (h : Serves log sub pending) : passedHints log <+: receivedHints log := by
  rw [← h.told, List.append_assoc]
  exact List.prefix_append _ _

/-- Nothing happens that is noted. -/
theorem Tracking.still (h : w.Tracking) {stage : WatchStage} (hfits : Fits w.log stage) :
    Tracking { w with stage } :=
  ⟨h.pointed, h.gone, h.orderly, h.told, hfits⟩

theorem Tracking.note (h : w.Tracking) {stage : WatchStage} (hpointed : event.pointed? = none)
    (horderly : Orderly w.log event)
    (htold : passedHints (w.log ++ [(w.now, event)]) <+: receivedHints (w.log ++ [(w.now, event)]))
    (hfits : Fits (w.log ++ [(w.now, event)]) stage) : (w.note stage event).Tracking := by
  refine ⟨?_, fun hgone => ?_, each_concat.mpr ⟨h.orderly, horderly⟩, htold, hfits⟩
  · show pointedTo (w.log ++ [(w.now, event)]) = _
    rw [pointedTo_concat, hpointed, Option.none_or]
    exact h.pointed
  · obtain ⟨e, he, hup⟩ := h.gone hgone
    exact ⟨e, List.mem_append_left _ he, hup⟩

/-- What tells nothing of the signals leaves what has been told. -/
theorem Tracking.told_concat (h : w.Tracking) (hevent : event.isSubscribed = false)
    (hpassed : event.passed? = none) (hreceived : event.received? = none) :
    passedHints (w.log ++ [(t, event)]) <+: receivedHints (w.log ++ [(t, event)]) := by
  rw [passedHints_concat hevent, receivedHints_concat hevent, hpassed, hreceived]
  simpa using h.told

theorem Tracking.fallBack (h : w.Tracking) (hon : OnDBus w.log) : w.fallBack.Tracking :=
  h.note rfl hon (h.told_concat rfl rfl rfl) (hon.live.concat nofun)

theorem Tracking.giveUp (h : w.Tracking) (hlive : Live w.log) (hgone : ¬w.receiver = true) :
    w.giveUp.Tracking :=
  h.note rfl ⟨hlive, h.gone (Bool.eq_false_of_not_eq_true hgone)⟩ (h.told_concat rfl rfl rfl) trivial

/-- What happens during a subscription, its checks apart. -/
theorem Serves.concat (h : Serves log sub pending) {sub' : Subscription} {pending' : List Bool}
    (hback : event ≠ .fellBack) (hreturned : event ≠ .returned) (hstart : event.isStart = false)
    (hid : sub'.id = sub.id) (htick : sub'.nextTick = sub.nextTick)
    (htold : event.passed?.toList ++ pending' ++ sub'.signals.filterMap PropertySignal.hint? =
      pending ++ sub.signals.filterMap PropertySignal.hint? ++ event.received?.toList) :
    Serves (log ++ [(t, event)]) sub' pending' := by
  have hsubscribed : event.isSubscribed = false := by
    cases event <;> first | rfl | cases hstart
  have hchecked : event.checked? = none := by
    cases event <;> first | rfl | cases hstart
  refine ⟨h.onDBus.concat hback hreturned, ?_, ?_, ?_⟩
  · rw [checkedFor_concat, hchecked, Option.none_or, hid]
    exact h.checked
  · rw [passedHints_concat hsubscribed, receivedHints_concat hsubscribed, ← h.told]
    simp only [List.append_assoc] at htold ⊢
    rw [htold]
  · rw [lastStart_concat, hstart, htick]
    exact h.due

/-- What happens outside the watcher leaves it where it is. -/
theorem Fits.outside {stage : WatchStage} (h : Fits log stage) (hback : event ≠ .fellBack)
    (hreturned : event ≠ .returned) (hstart : event.isStart = false) (hpassed : event.passed? = none)
    (hreceived : event.received? = none) : Fits (log ++ [(t, event)]) stage := by
  have hserves : ∀ {sub pending}, Serves log sub pending → Serves (log ++ [(t, event)]) sub pending := by
    intro sub pending hserves
    refine hserves.concat hback hreturned hstart rfl rfl ?_
    rw [hpassed, hreceived]
    exact (List.append_nil _).symm
  cases stage with
  | idle => exact OnDBus.concat h hback hreturned
  | connecting id =>
      have hchecked : event.checked? = none := by
        cases event <;> first | rfl | cases hstart
      refine ⟨h.1.concat hback hreturned, ?_⟩
      rw [checkedFor_concat, hchecked]
      exact h.2
  | selecting sub => exact hserves h
  | sending sub locked => exact hserves h
  | polling last => exact Live.concat h hreturned
  | reporting locked => exact Live.concat h hreturned
  | returned => trivial

theorem Tracking.start (session : SessionCtl) : (LockWatch.start session).Tracking :=
  ⟨rfl, nofun, ⟨trivial, trivial⟩, List.prefix_refl _, List.forall_mem_singleton.mpr ⟨nofun, nofun⟩⟩

theorem Tracking.updateFrom (h : w.Tracking) (session : SessionCtl) :
    Tracking { w with session, log := w.log ++ [(w.now, .pointed session.id)] } := by
  refine ⟨?_, fun hgone => ?_, each_concat.mpr ⟨h.orderly, trivial⟩, h.told_concat rfl rfl rfl,
    h.fits.outside nofun nofun rfl rfl rfl⟩
  · rw [pointedTo_concat]
    rfl
  · obtain ⟨e, he, hup⟩ := h.gone hgone
    exact ⟨e, List.mem_append_left _ he, hup⟩

theorem Tracking.hangUp (h : w.Tracking) :
    Tracking { w with receiver := false, log := w.log ++ [(w.now, .hungUp)] } := by
  refine ⟨?_, fun _ => ⟨_, List.mem_append_right _ List.mem_cons_self, rfl⟩,
    each_concat.mpr ⟨h.orderly, trivial⟩, h.told_concat rfl rfl rfl, h.fits.outside nofun nofun rfl rfl rfl⟩
  rw [pointedTo_concat]
  exact h.pointed

/-- The watcher finds its session to be the one of the configuration. -/
theorem Tracking.check (h : w.Tracking) {stage : WatchStage} (hon : OnDBus w.log)
    (hfits : Fits (w.log ++ [(w.now, .checked w.session.id)]) stage) :
    (w.note stage (.checked w.session.id)).Tracking :=
  h.note rfl ⟨hon, h.pointed⟩ (h.told_concat rfl rfl rfl) hfits

theorem Tracking.begin (h : w.Tracking) (hstep : w.step .begin = .ok w') : w'.Tracking := by
  have hfits := h.fits
  simp only [step] at hstep
  split at hstep
  · rename_i hstage
    rw [hstage] at hfits
    cases hstep
    by_cases hid : w.session.id = ""
    · rw [if_pos hid]
      exact h.fallBack hfits
    · rw [if_neg hid]
      refine h.check hfits ⟨OnDBus.concat hfits nofun nofun, ?_⟩
      rw [checkedFor_concat]
      rfl
  · cases hstep

theorem Tracking.subscribe (h : w.Tracking) {ok : Bool} (hstep : w.step (.subscribe ok) = .ok w') :
    w'.Tracking := by
  have hfits := h.fits
  simp only [step] at hstep
  split at hstep
  · rename_i id hstage
    rw [hstage] at hfits
    obtain ⟨hon, hchecked⟩ := hfits
    cases hstep
    cases ok with
    | false => exact h.fallBack hon
    | true =>
        have hpassed : passedHints (w.log ++ [(w.now, .subscribed)]) = [] := since_of_reset rfl
        have hreceived : receivedHints (w.log ++ [(w.now, .subscribed)]) = [] := since_of_reset rfl
        refine h.note rfl hon ?_ ⟨hon.concat nofun nofun, ?_, ?_, w.now, ?_, le_rfl⟩
        · rw [hpassed]
          exact List.nil_prefix
        · rw [checkedFor_concat]
          exact hchecked
        · rw [hpassed, hreceived]
          rfl
        · rw [lastStart_concat]
          rfl
  · cases hstep

/-- A signal arrives, to be taken up after the others. -/
theorem Tracking.received (h : w.Tracking) (hserves : Serves w.log sub pending) (signal : PropertySignal)
    {stage : WatchStage}
    (hfits : Serves (w.log ++ [(w.now, .received signal)])
        { sub with signals := sub.signals ++ [signal] } pending →
      Fits (w.log ++ [(w.now, .received signal)]) stage) :
    (w.note stage (.received signal)).Tracking := by
  have hserves' : Serves (w.log ++ [(w.now, .received signal)])
      { sub with signals := sub.signals ++ [signal] } pending := by
    refine hserves.concat nofun nofun rfl rfl rfl ?_
    rw [List.filterMap_append, List.append_assoc]
    cases hhint : signal.hint? <;> simp [WatchEvent.passed?, WatchEvent.received?, hhint]
  exact h.note rfl hserves.onDBus hserves'.told_prefix (hfits hserves')

theorem Tracking.receive (h : w.Tracking) {signal : PropertySignal}
    (hstep : w.step (.receive signal) = .ok w') : w'.Tracking := by
  have hfits := h.fits
  simp only [step] at hstep
  split at hstep
  · rename_i sub hstage
    rw [hstage] at hfits
    cases hstep
    exact h.received hfits signal id
  · rename_i sub locked hstage
    rw [hstage] at hfits
    cases hstep
    exact h.received hfits signal id
  · cases hstep

/-- The next signal is taken; what it reports of the lock state is still to be passed on. -/
theorem Serves.take {signal : PropertySignal} {signals : List PropertySignal} {hint : Option Bool}
    (h : Serves log sub []) (hsignals : sub.signals = signal :: signals)
    (hhint : signal.lockedHint = .ok hint) : Serves log { sub with signals } hint.toList := by
  refine ⟨h.onDBus, h.checked, ?_, h.due⟩
  rw [← h.told, hsignals, List.append_nil, List.append_assoc]
  have hread : signal.hint? = hint := by
    rw [PropertySignal.hint?, hhint]
    rfl
  cases hint <;> simp [hread]

theorem Tracking.next (h : w.Tracking) (hstep : w.step .next = .ok w') : w'.Tracking := by
  have hfits := h.fits
  simp only [step] at hstep
  split at hstep
  · rename_i sub hstage
    rw [hstage] at hfits
    split at hstep
    · cases hstep
    · rename_i signal signals hsignals
      split at hstep
      · cases hstep
        exact h.fallBack hfits.onDBus
      · rename_i hhint
        cases hstep
        exact h.still (hfits.take hsignals hhint)
      · rename_i locked hhint
        cases hstep
        exact h.still (hfits.take hsignals hhint)
  · cases hstep

theorem Tracking.streamEnd (h : w.Tracking) (hstep : w.step .streamEnd = .ok w') : w'.Tracking := by
  have hfits := h.fits
  simp only [step] at hstep
  split at hstep
  · rename_i sub hstage
    rw [hstage] at hfits
    split at hstep
    · cases hstep
      exact h.fallBack hfits.onDBus
    · cases hstep
  · cases hstep

theorem Tracking.recheck (h : w.Tracking) (hstep : w.step .recheck = .ok w') : w'.Tracking := by
  have hfits := h.fits
  simp only [step] at hstep
  split at hstep
  · rename_i sub hstage
    rw [hstage] at hfits
    by_cases hdue : w.now < sub.nextTick
    · rw [if_pos hdue] at hstep
      cases hstep
    rw [if_neg hdue] at hstep
    by_cases hid : w.session.id = sub.id
    · rw [if_neg (not_not.mpr hid), ← hid] at hstep
      cases hstep
      refine h.check hfits.onDBus ⟨hfits.onDBus.concat nofun nofun, ?_, ?_, w.now, ?_, by grind⟩
      · rw [checkedFor_concat, hid]
        rfl
      · rw [passedHints_concat rfl, receivedHints_concat rfl]
        have := hfits.told
        simpa [WatchEvent.passed?, WatchEvent.received?] using this
      · rw [lastStart_concat]
        rfl
    · rw [if_pos hid] at hstep
      cases hstep
      exact h.still hfits.onDBus
  · cases hstep

theorem Tracking.sent (h : w.Tracking) (hstep : w.step .sent = .ok w') : w'.Tracking := by
  have hfits := h.fits
  simp only [step] at hstep
  split at hstep
  · rename_i sub locked hstage
    rw [hstage] at hfits
    cases hstep
    by_cases hreceiver : w.receiver
    · rw [if_pos hreceiver]
      have hserves : Serves (w.log ++ [(w.now, .passed sub.id locked)]) sub [] :=
        hfits.concat nofun nofun rfl rfl rfl (by simp [WatchEvent.passed?, WatchEvent.received?])
      exact h.note rfl ⟨hfits.onDBus, hfits.checked⟩ hserves.told_prefix hserves
    · rw [if_neg hreceiver]
      exact h.giveUp hfits.onDBus.live hreceiver
  · rename_i locked hstage
    rw [hstage] at hfits
    cases hstep
    by_cases hreceiver : w.receiver
    · rw [if_pos hreceiver]
      exact h.still hfits
    · rw [if_neg hreceiver]
      exact h.giveUp hfits hreceiver
  · cases hstep

theorem Tracking.poll (h : w.Tracking) {ctl : Loginctl} (hstep : w.step (.poll ctl) = .ok w') :
    w'.Tracking := by
  have hfits := h.fits
  simp only [step] at hstep
  split at hstep
  · rename_i last hstage
    rw [hstage] at hfits
    have hpolled : Live (w.log ++ [(w.now, .polled)]) := Live.concat hfits nofun
    split at hstep
    · cases hstep
      exact h.note rfl hfits (h.told_concat rfl rfl rfl) hpolled
    · cases hstep
      exact h.note rfl hfits (h.told_concat rfl rfl rfl) hpolled
  · cases hstep

theorem Tracking.step {input : WatchInput} (h : w.Tracking) (hstep : w.step input = .ok w') :
    w'.Tracking := by
  cases input with
  | pass millis =>
      cases hstep
      exact ⟨h.pointed, h.gone, h.orderly, h.told, h.fits⟩
  | updateFrom ctl cfg =>
      cases hstep
      exact h.updateFrom _
  | hangUp =>
      cases hstep
      exact h.hangUp
  | begin => exact h.begin hstep
  | subscribe ok => exact h.subscribe hstep
  | receive signal => exact h.receive hstep
  | next => exact h.next hstep
  | streamEnd => exact h.streamEnd hstep
  | recheck => exact h.recheck hstep
  | sent => exact h.sent hstep
  | poll ctl => exact h.poll hstep

theorem Tracking.of_run {session : SessionCtl} {inputs : List WatchInput}
    (hrun : Run LockWatch.step (LockWatch.start session) inputs w) : w.Tracking :=
  hrun.invariant (Tracking.start session) fun _ _ _ h _ hstep => h.step hstep

end LockWatch

end AlertU
