import AlertU.SessionWatch

/-! The handover of the session's observation from the D-Bus subscription to polling. The watcher
keeps no value of its own: the subscription pushes what it is told, and `monitor` starts out knowing
nothing, so the first reading after the handover is not pushed whatever was pushed before it. -/

open FilePath Runs Logs

namespace AlertU

/-- What happens to `LockedHint`, and what the watcher learns of it: a signal that it passes on, or a
reading that it has compared, with what that puts on the lock channel. -/
inductive Sighting where
  | changed (locked : Bool)
  | signalled (locked : Bool)
  | polled (locked : Bool) (sent : List Bool)
  deriving DecidableEq, Repr

namespace Sighting

/-- The value that the watcher learns. -/
def value : Sighting → Option Bool
  | .changed _ => none
  | .signalled locked | .polled locked _ => some locked

def isPoll : Sighting → Bool
  | .polled _ _ => true
  | _ => false

end Sighting

namespace Observer

/-- The value that `monitor` compares its readings with. -/
def last : Observer → Option Bool
  | .polling last _ => last
  | _ => none

def isPolling : Observer → Bool
  | .polling _ _ => true
  | _ => false

theorem changed_last (observer : Observer) (locked : Bool) :
    (observer.changed locked).last = observer.last := by
  cases observer <;> rfl

theorem changed_isPolling (observer : Observer) (locked : Bool) :
    (observer.changed locked).isPolling = observer.isPolling := by
  cases observer <;> rfl

end Observer

structure Handover where
  desktop : Desktop
  history : List Sighting

namespace Handover

def start (desktop : Desktop) : Handover := ⟨desktop, []⟩

/-- What an input that leads from `s` to `next` shows. -/
def sightings (s next : Desktop) : DesktopInput → List Sighting
  | .user _ | .locker _ => if next.hint = s.hint then [] else [.changed next.hint]
  | .signal =>
      match s.observer with
      | .dbus (locked :: _) => [.signalled locked]
      | _ => []
  | .report =>
      match s.observer with
      | .polling _ (some reading) =>
          [.polled reading (next.lockChannel.drop s.lockChannel.length)]
      | _ => []
  | _ => []

def step (p : Platform) (s : Handover) (input : DesktopInput) : Except Unit Handover :=
  match s.desktop.step p input with
  | .ok next => .ok ⟨next, s.history ++ sightings s.desktop next input⟩
  | .error e => .error e

/-- The last value known to the watcher. -/
def known (history : List Sighting) : Option Bool := latest Sighting.value history

/-- The session is unlocked while the last value known to the watcher is `true`, and a poll, which
puts `sent` on the lock channel, is the first to tell the watcher about it. -/
def FirstSight (history before middle : List Sighting) (sent : List Bool) : Prop :=
  (∃ after, history = before ++ .changed false :: middle ++ .polled false sent :: after) ∧
    known before = some true ∧ ∀ sighting ∈ middle, sighting.value ≠ some false

/-- No unlock is lost: a poll that is the first to see it puts it on the lock channel. -/
def UnlocksHeard (history : List Sighting) : Prop :=
  ∀ before middle sent, FirstSight history before middle sent → false ∈ sent

/-- The first poll of all is never the first to see an unlock. -/
def PolledInTime (history : List Sighting) : Prop :=
  ∀ before middle sent, FirstSight history before middle sent →
    ∃ sighting ∈ before ++ middle, sighting.isPoll

variable {p : Platform} {s s' : Handover} {next : Desktop}

/-- A poll puts an unlock on the lock channel if an earlier poll has been made and `true` is known. -/
def Compared (before : List Sighting) (sighting : Sighting) (_after : List Sighting) : Prop :=
  ∀ sent, sighting = .polled false sent →
    (false ∈ sent ↔ before.any Sighting.isPoll ∧ known before = some true)

/-- What the observer remembers: nothing before the first poll, and what is known after it. -/
structure Remembers (s : Handover) : Prop where
  compared : Each Compared [] s.history
  last : s.desktop.observer.last = if s.history.any Sighting.isPoll then known s.history else none
  unpolled : s.desktop.observer.isPolling = false → s.history.any Sighting.isPoll = false

theorem known_append (history segment : List Sighting) :
    known (history ++ segment) = (known segment).or (known history) := latest_append _

theorem known_of_silent {segment : List Sighting} (h : ∀ sighting ∈ segment, sighting.value = none) :
    known segment = none := latest_eq_none h

theorem isPoll_of_silent {segment : List Sighting}
    (h : ∀ sighting ∈ segment, sighting.value = none) : segment.any Sighting.isPoll = false := by
  rw [List.any_eq_false]
  intro sighting hmem hpoll
  have := h sighting hmem
  cases sighting <;> simp_all [Sighting.value, Sighting.isPoll]

theorem silent_of_changed (hint : Bool) (locked : Bool) :
    ∀ sighting ∈ if locked = hint then [] else [Sighting.changed locked], sighting.value = none := by
  split_ifs
  · exact nofun
  · intro sighting hmem
    rw [List.mem_singleton.mp hmem]
    rfl

theorem setHint_observer (d : Desktop) (moment : Bool → Moment) (locked : Bool) :
    (d.setHint moment locked).observer = d.observer ∨
      ∃ locked', (d.setHint moment locked).observer = d.observer.changed locked' := by
  unfold Desktop.setHint
  split_ifs
  · exact .inl rfl
  · exact .inr ⟨locked, rfl⟩

namespace Remembers

theorem start (desktop : Desktop) (hobserver : desktop.observer = .subscribing) :
    (Handover.start desktop).Remembers :=
  ⟨trivial, by simp [Handover.start, hobserver, Observer.last], fun _ => rfl⟩

/-- A step on which the watcher learns nothing. -/
theorem extend (h : s.Remembers) (segment : List Sighting)
    (hsilent : ∀ sighting ∈ segment, sighting.value = none)
    (hlast : next.observer.last = s.desktop.observer.last)
    (hpolling : next.observer.isPolling = false → s.desktop.observer.isPolling = false) :
    Remembers ⟨next, s.history ++ segment⟩ := by
  have hpoll : (s.history ++ segment).any Sighting.isPoll = s.history.any Sighting.isPoll := by
    rw [List.any_append, isPoll_of_silent hsilent, Bool.or_false]
  refine ⟨h.compared.append (fun _ _ _ _ hcompared => hcompared) ?_, ?_, ?_⟩
  · rw [each_iff]
    rintro middle sighting after rfl sent rfl
    have := hsilent (.polled false sent) (List.mem_append_right _ List.mem_cons_self)
    cases this
  · show next.observer.last = _
    rw [hpoll, known_append, known_of_silent hsilent, Option.none_or, hlast, h.last]
  · intro hnext
    rw [hpoll]
    exact h.unpolled (hpolling hnext)

/-- A step that leaves the observer as it was, apart from the signals under way. -/
theorem keep (h : s.Remembers) (segment : List Sighting)
    (hsilent : ∀ sighting ∈ segment, sighting.value = none)
    (hobserver : next.observer = s.desktop.observer ∨
      ∃ locked, next.observer = s.desktop.observer.changed locked) :
    Remembers ⟨next, s.history ++ segment⟩ := by
  rcases hobserver with hsame | ⟨locked, hchanged⟩
  · exact h.extend segment hsilent (by rw [hsame]) (by rw [hsame]; exact id)
  · refine h.extend segment hsilent ?_ ?_
    · rw [hchanged, Observer.changed_last]
    · rw [hchanged, Observer.changed_isPolling]
      exact id

theorem report (h : s.Remembers) {last : Option Bool} {reading : Bool} {sent : List Bool}
    (hobserver : s.desktop.observer = .polling last (some reading))
    (hnext : next.observer = .polling (monitorStep last (some reading)).1 none)
    (hsent : sent = (monitorStep last (some reading)).2.toList) :
    Remembers ⟨next, s.history ++ [.polled reading sent]⟩ := by
  have hlast := h.last
  rw [hobserver] at hlast
  change last = _ at hlast
  refine ⟨h.compared.append (fun _ _ _ _ hcompared => hcompared) ⟨?_, trivial⟩, ?_, ?_⟩
  · rintro sent' hpolled
    cases hpolled
    rw [hsent, hlast]
    show _ ↔ s.history.any Sighting.isPoll ∧ known s.history = some true
    cases s.history.any Sighting.isPoll with
    | false => simp [monitorStep]
    | true =>
        simp only [if_true, true_and]
        cases known s.history with
        | none => decide
        | some locked => cases locked <;> decide
  · show next.observer.last = _
    have hremembered : (monitorStep last (some reading)).1 = some reading := by
      unfold monitorStep
      by_cases hsame : last = some reading
      · simp [hsame]
      · simp [hsame]
    rw [hnext, Observer.last, hremembered, known_append]
    simp [Sighting.isPoll, known, Sighting.value]
  · intro hpolling
    rw [hnext] at hpolling
    cases hpolling

/-- The subscription passes a signal on, while there has been no poll. -/
theorem signalled (h : s.Remembers) {locked : Bool} {signals : List Bool}
    (hobserver : s.desktop.observer = .dbus (locked :: signals))
    (hnext : next.observer = .dbus signals) : Remembers ⟨next, s.history ++ [.signalled locked]⟩ := by
  have hnone := h.unpolled (by rw [hobserver]; rfl)
  refine ⟨h.compared.append (fun _ _ _ _ hcompared => hcompared)
    ⟨fun _ hpolled => absurd hpolled (by simp), trivial⟩, ?_, ?_⟩
  · simp [hnext, Observer.last, hnone, Sighting.isPoll]
  · simp [hnone, Sighting.isPoll]

theorem step (h : s.Remembers) {input : DesktopInput} (hstep : s.step p input = .ok s') :
    s'.Remembers := by
  unfold Handover.step at hstep
  split at hstep
  · rename_i next hnext
    cases hstep
    cases Desktop.step_cases hnext with
    | machine wake host next _ _ => exact h.keep [] (List.forall_mem_nil _) (.inl rfl)
    | delivered host locked rest next _ _ => exact h.keep [] (List.forall_mem_nil _) (.inl rfl)
    | locker obeys locked rest _ =>
        refine h.keep _ (silent_of_changed _ _) ?_
        split_ifs
        · exact setHint_observer _ _ _
        · exact .inl rfl
    | user locked => exact h.keep _ (silent_of_changed _ _) (setHint_observer _ _ _)
    | subscribed hobserver =>
        exact h.extend [] (List.forall_mem_nil _) (by rw [hobserver]; rfl)
          (by rw [hobserver]; exact fun _ => rfl)
    | fellBack hobserver =>
        refine h.extend [] (List.forall_mem_nil _) ?_ fun hpolling => by cases hpolling
        cases hold : s.desktop.observer with
        | subscribing => rfl
        | dbus signals => rfl
        | polling last reading => exact absurd hold (hobserver last reading)
    | signalled locked signals hobserver =>
        simp only [sightings, hobserver]
        exact h.signalled hobserver rfl
    | unread ctl => exact h.keep [] (List.forall_mem_nil _) (.inl rfl)
    | read ctl last hobserver =>
        exact h.extend [] (List.forall_mem_nil _) (by rw [hobserver]; rfl)
          fun hpolling => by cases hpolling
    | reported last reading hobserver =>
        simp only [sightings, hobserver, List.drop_left]
        exact h.report hobserver rfl rfl
  · cases hstep

end Remembers

/-- At the poll that first sees an unlock, `true` is still what is known. -/
theorem known_at_firstSight {history before middle : List Sighting} {sent : List Bool}
    (h : FirstSight history before middle sent) :
    known (before ++ .changed false :: middle) = some true := by
  obtain ⟨-, hknown, hmiddle⟩ := h
  rw [known_append, ← List.singleton_append, known_append, hknown]
  cases hsaid : known middle with
  | none => rfl
  | some locked =>
      obtain ⟨sighting, hmem, hvalue⟩ := exists_of_latest hsaid
      cases locked with
      | true => rfl
      | false => exact absurd hvalue (hmiddle sighting hmem)

/-- The handover loses an unlock exactly if the first poll of all is the first to see it. -/
theorem unlock_survives_handover_iff {host : Host} {files : FileSystem} {cfg : Config}
    {cfgPath : PathBuf} {privileges : Privileges} {hint : Bool} {inputs : List DesktopInput}
    (hrun : Run (step p) (start (.start (.start p host files cfg cfgPath privileges) hint)) inputs s) :
    UnlocksHeard s.history ↔ PolledInTime s.history := by
  have h : s.Remembers := hrun.invariant (.start _ rfl) fun _ _ _ h _ hnext => h.step hnext
  have hpoint : ∀ before middle sent, FirstSight s.history before middle sent →
      (false ∈ sent ↔ ∃ sighting ∈ before ++ middle, sighting.isPoll) := by
    intro before middle sent hfirst
    obtain ⟨after, hhistory⟩ := hfirst.1
    have hcompared := each_iff.mp h.compared _ _ after hhistory sent rfl
    rw [List.nil_append, known_at_firstSight hfirst] at hcompared
    have hpolls : (before ++ .changed false :: middle).any Sighting.isPoll =
        (before ++ middle).any Sighting.isPoll := by
      rw [List.any_append, List.any_append, List.any_cons]
      rfl
    rw [hcompared, hpolls, List.any_eq_true]
    exact and_iff_left rfl
  constructor
  · intro hheard before middle sent hfirst
    exact (hpoint before middle sent hfirst).mp (hheard before middle sent hfirst)
  · intro hpolled before middle sent hfirst
    exact (hpoint before middle sent hfirst).mpr (hpolled before middle sent hfirst)

/-- Arming, with the lock announced over D-Bus and delivered, then the loss of the subscription. -/
def armedThenFallBack : List DesktopInput :=
  [.subscribe, .machine (.control .arm) (Bench.host "c1"), .locker true, .signal,
    .deliver (Bench.host "c1"), .fallBack]

def poll (locked : Bool) : List DesktopInput :=
  [.read { Bench.loginctl "c1" with showSession := some ⟨true, if locked then "yes" else "no"⟩ },
    .report]

theorem unlock_survives_handover_iff_second_poll :
    ∃ s : Handover, .polled false [false] ∈ s.history ∧
      (UnlocksHeard s.history ↔ PolledInTime s.history) := by
  obtain ⟨s, hrun, hsent⟩ : ∃ s, Run (step Bench.platform)
      (start (.start (Bench.boot .default "c1") false))
      (armedThenFallBack ++ poll true ++ .user false :: poll false) s ∧
      .polled false [false] ∈ s.history :=
    ⟨_, run_get (by decide +kernel), by decide +kernel⟩
  exact ⟨s, hsent, unlock_survives_handover_iff hrun⟩

/-- The user unlocks the session between the end of the subscription and the first poll: nothing is
put on the lock channel. -/
theorem handover_loses_unlock :
    ¬∀ (p : Platform) (host : Host) (files : FileSystem) (cfg : Config) (cfgPath : PathBuf)
        (privileges : Privileges) (hint : Bool) (inputs : List DesktopInput) (s : Handover),
      Run (step p) (start (.start (.start p host files cfg cfgPath privileges) hint)) inputs s →
      UnlocksHeard s.history := by
  intro h
  obtain ⟨s, hrun, hhistory⟩ : ∃ s, Run (step Bench.platform)
      (start (.start (Bench.boot .default "c1") false))
      (armedThenFallBack ++ .user false :: poll false) s ∧
      s.history = [.changed true, .signalled true] ++ .changed false :: [] ++ .polled false [] :: [] :=
    ⟨_, run_get (by decide +kernel), by decide +kernel⟩
  have hsent := h _ _ _ _ _ _ _ _ s hrun [.changed true, .signalled true] [] []
    ⟨⟨[], hhistory⟩, rfl, nofun⟩
  cases hsent

end Handover

end AlertU
