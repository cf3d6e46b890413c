import AlertU.Hotplug
import Mathlib.Data.List.Basic

/-! The watcher's loop in time, and what becomes of a change. Rescans are debounced, however the directory
changes; and no change is stuck: from wherever they are, the watcher and the machine get by themselves to
where nothing is outstanding. -/

open FilePath Timing Logs Debounce Runs

namespace AlertU

namespace Hotplug

variable {p : Platform} {launch : Launch} {s s' : Hotplug}

/-- The loop is in order, if the watcher has got that far. -/
def LoopOk (s : Hotplug) : Prop :=
  ∀ loop, s.watcher = .looping loop → loop.Ok DEBOUNCE ∧ loop.now ≤ s.clock

theorem LoopOk.turn (h : s.LoopOk) {loop loop' : Loop} {turn : Turn}
    (hwatcher : s.watcher = .looping loop)
    (hloop : loop.step DEBOUNCE (s.clock, turn) = .ok loop') :
    loop'.Ok DEBOUNCE ∧ loop'.now ≤ s.clock :=
  ⟨(h loop hwatcher).1.step hloop, (Loop.step_cases hloop).2.1.le⟩

theorem LoopOk.step {input : HotplugInput} (h : s.LoopOk) (hstep : Stepped p launch s input s') :
    s'.LoopOk := by
  cases hstep with
  | passed nanos =>
      exact fun loop hloop =>
        (h loop hloop).imp_right fun hnow => hnow.trans (Nat.le_add_right _ _)
  | ignored _ _ _ | reported _ _ _ _ _ | unreported _ _ _ | commanded _ | booted _ | taken _ _ _ _
  | finished _ _ _ _ _ _ _ => exact h
  | gone _ => exact fun _ hloop => by cases hloop
  | added _ => exact fun _ hloop => by cases hloop
  | looping _ =>
      intro loop hloop
      cases hloop
      exact ⟨.start s.clock, le_refl _⟩
  | read _ _ _ _ hwatcher _ hturn | waited _ _ _ _ hwatcher hturn | sent _ _ hwatcher hturn =>
      intro loop hloop
      cases hloop
      exact h.turn hwatcher hturn

theorem loopOk_of_run {devices : List DeviceEntry} {inputs : List HotplugInput}
    (hrun : Run (step p launch) (start devices) inputs s) : s.LoopOk :=
  hrun.invariant (fun _ h => by cases h) fun _ _ _ h _ hstep => h.step (step_cases hstep)

/-- The loop of the watcher, whatever wakes it: it is dirty while a change that it has read is
outstanding, and every rescan answers such a change after a whole window without any turn, so that no two
rescans are closer than that. -/
theorem watcher_debounces {devices : List DeviceEntry} {inputs : List HotplugInput} {loop : Loop}
    (hrun : Run (step p launch) (start devices) inputs s) (hwatcher : s.watcher = .looping loop) :
    (loop.dirty ↔ Outstanding loop.turns) ∧ ∀ before t after,
      loop.turns = before ++ (t, .settled) :: after →
        Outstanding before ∧ ∀ e ∈ before, e.1 + DEBOUNCE ≤ t := by
  have hok := (loopOk_of_run hrun loop hwatcher).1
  refine ⟨hok.dirty, fun before t after hturns => ?_⟩
  have hsettled := (each_iff.mp hok.debounced) before (t, .settled) after hturns rfl
  rwa [List.nil_append] at hsettled

theorem watcher_debounces_plugIn : ∃ (s : Hotplug) (loop : Loop), s.watcher = .looping loop ∧
    ∃ before t after, loop.turns = before ++ (t, .settled) :: after ∧
      Outstanding before ∧ ∀ e ∈ before, e.1 + DEBOUNCE ≤ t := by
  obtain ⟨s, hrun, loop, hwatcher, before, t, after, hturns⟩ :
      ∃ s, Run (step Bench.platform bench) (start []) plugIn s ∧
        ∃ loop, s.watcher = .looping loop ∧
          ∃ before t after, loop.turns = before ++ (t, .settled) :: after := by
    refine ⟨_, run_get (by decide +kernel), _, rfl, ?_⟩
    exact ⟨[(0, .changed), (0, .changed)], DEBOUNCE, [(DEBOUNCE, .resumed)], by decide +kernel⟩
  exact ⟨s, loop, hwatcher, before, t, after, hturns, (watcher_debounces hrun hwatcher).2 _ _ _ hturns⟩

/-! ### No change is stuck -/

/-- What the watcher and the machine do of themselves. -/
def internal : HotplugInput → Bool
  | .pass _ | .turn .changed | .turn .settled | .turn .resumed | .take (.control _) | .finish _ => true
  | _ => false

/-- The devices that are there are the same, and what has been missed. -/
structure SameWorld (s s' : Hotplug) : Prop where
  devices : s'.devices = s.devices
  missed : s'.missed = s.missed

/-- Both are at work: the machine has started and has not stopped, and the watcher is in its loop. -/
structure Working (s : Hotplug) (loop : Loop) : Prop where
  loopOk : s.LoopOk
  looping : s.watcher = .looping loop
  running : ∃ d, s.machine = some ⟨d, true⟩
  started : ∀ changed, s.busy ≠ some (none, changed)

/-- What is left to do, for the watcher in its loop and the machine. -/
def work (s : Hotplug) (loop : Loop) : ℕ :=
  5 * s.events.length + (if loop.dirty then 4 else 0) + (if loop.since = none then 3 else 0) +
    2 * s.controls.length + if s.busy.isSome then 1 else 0

/-- The machine has stopped. -/
def Stopped (s : Hotplug) : Prop := ∃ d, s.machine = some ⟨d, false⟩

variable {loop : Loop}

theorem Working.settled (h : s.Working loop) (hwork : s.work loop = 0) : s.Settled := by
  have hevents : s.events = [] := List.length_eq_zero_iff.mp (by unfold work at hwork; omega)
  have hcontrols : s.controls = [] := List.length_eq_zero_iff.mp (by unfold work at hwork; omega)
  have hdirty : loop.dirty = false := by
    by_contra hdirty
    simp [work, hdirty] at hwork
  have hawake : loop.since ≠ none := by
    intro hnone
    simp [work, hnone] at hwork
  have hidle : s.busy = none := by
    by_contra hbusy
    have hsome := Option.isSome_iff_ne_none.mpr hbusy
    simp [work, hsome] at hwork
  refine ⟨by rw [h.looping]; rfl, ?_, fun changed => by rw [hidle]; nofun⟩
  rintro (hpending | howing | hrescan)
  · exact hpending hevents
  · simp [h.looping, Watcher.isOwing, hdirty, hawake] at howing
  · rw [hcontrols] at hrescan
    cases hrescan

/-- A running machine always returns from its handler, or panics. -/
theorem exists_wake (d : Daemon) (wake : Wake) (host : Host) :
    ∃ next running, Service.wake p ⟨d, true⟩ wake host = .ok ⟨next, running⟩ := by
  cases hstep : d.step p (wake, host) with
  | error e => exact ⟨d, false, by rw [Service.wake, if_pos rfl, hstep]⟩
  | ok next => exact ⟨next, true, by rw [Service.wake, if_pos rfl, hstep]⟩

theorem Working.finish (h : s.Working loop) {wake : Wake} {changed : Bool}
    (hbusy : s.busy = some (some wake, changed)) : ∃ host s', s.step p launch (.finish host) = .ok s' ∧
      s.SameWorld s' ∧ (s'.Stopped ∨ s'.Working loop ∧ s'.work loop < s.work loop) := by
  obtain ⟨d, hmachine⟩ := h.running
  let host : Host := { Bench.host "c1" with devices := s.devices }
  have hseen : ¬(!changed ∧ host.devices ≠ s.devices) := fun hne => hne.2 rfl
  obtain ⟨next, running, hwake⟩ := exists_wake (p := p) d wake host
  let s' : Hotplug := { s with machine := some ⟨next, running⟩, busy := none }
  have hfinish : s.finish p launch host = .ok s' := by
    simp only [Hotplug.finish, hbusy, if_neg hseen, hmachine, hwake]
    rfl
  refine ⟨host, s', hfinish, ⟨rfl, rfl⟩, ?_⟩
  cases running with
  | false => exact .inl ⟨next, rfl⟩
  | true =>
      refine .inr ⟨⟨h.loopOk, h.looping, ⟨next, rfl⟩, fun _ hnone => by cases hnone⟩, ?_⟩
      simp [s', work, hbusy]

theorem Working.take (h : s.Working loop) (hbusy : s.busy = none) {ctrl : Control}
    {controls : List Control} (hcontrols : s.controls = ctrl :: controls) :
    ∃ s', s.step p launch (.take (.control ctrl)) = .ok s' ∧ s.SameWorld s' ∧
      s'.Working loop ∧ s'.work loop < s.work loop := by
  obtain ⟨d, hmachine⟩ := h.running
  let s' : Hotplug := { s with controls, busy := some (some (.control ctrl), false) }
  have htake : s.take (.control ctrl) = .ok s' := by
    simp [Hotplug.take, hmachine, hbusy, hcontrols, s']
  refine ⟨s', htake, ⟨rfl, rfl⟩, ⟨h.loopOk, h.looping, ⟨d, hmachine⟩, fun _ hnone => by cases hnone⟩, ?_⟩
  simp only [s', work, hbusy, hcontrols, List.length_cons, Option.isSome_none, Option.isSome_some,
    Bool.false_eq_true, if_true, if_false]
  omega

/-- A turn of the loop after `nanos` that goes on and leaves less to do. -/
theorem Working.turn (h : s.Working loop) (hbusy : s.busy = none) {turn : Turn} {loop' : Loop}
    {s' : Hotplug} {nanos : ℕ}
    (hloop : loop.step DEBOUNCE (s.clock + nanos, turn) = .ok loop')
    (hact : act { s with clock := s.clock + nanos } loop' turn = .ok s')
    (hwatcher : s'.watcher = .looping loop') (hmachine : s'.machine = s.machine)
    (hbusy' : s'.busy = s.busy) :
    Run (step p launch) s [.pass nanos, .turn turn] s' ∧ s'.Working loop' := by
  have hturn : Hotplug.turn { s with clock := s.clock + nanos } turn = .ok s' := by
    unfold Hotplug.turn
    split
    · rename_i loop₀ hlooping
      cases h.looping.symm.trans hlooping
      rw [hloop]
      exact hact
    · rename_i hlooping
      exact absurd h.looping (hlooping loop)
  have hok : LoopOk { s with clock := s.clock + nanos } := fun loop'' hloop'' =>
    (h.loopOk loop'' hloop'').imp_right fun hnow => hnow.trans (Nat.le_add_right _ _)
  refine ⟨run_cons_iff.mpr ⟨_, rfl, run_cons_iff.mpr ⟨s', hturn, .nil⟩⟩,
    hok.step (@turn_cases p launch _ _ _ hturn), hwatcher, ?_, fun changed => ?_⟩
  · rw [hmachine]
    exact h.running
  · rw [hbusy', hbusy]
    nofun

/-- Steps that the two take of themselves, and what they come to. -/
def Gets (p : Platform) (launch : Launch) (s : Hotplug) (Q : Hotplug → Prop) : Prop :=
  ∃ inputs s', RunIf (step p launch) (fun _ input => internal input) s inputs s' ∧
    s.SameWorld s' ∧ Q s'

theorem Gets.of_run {Q : Hotplug → Prop} {inputs : List HotplugInput}
    (hrun : Run (step p launch) s inputs s') (hinternal : inputs.all internal)
    (hsame : s.SameWorld s') (hQ : Q s') : Gets p launch s Q := by
  refine ⟨inputs, s', .of_run hrun fun before input after _ hinputs _ => ?_, hsame, hQ⟩
  exact List.all_eq_true.mp hinternal input (by rw [hinputs]; simp)

theorem Gets.trans {P Q : Hotplug → Prop} (h : Gets p launch s P)
    (hnext : ∀ s', P s' → Gets p launch s' Q) : Gets p launch s Q := by
  obtain ⟨inputs, middle, hrun, hsame, hP⟩ := h
  obtain ⟨inputs', s', hrun', hsame', hQ⟩ := hnext middle hP
  exact ⟨inputs ++ inputs', s', hrun.trans hrun', ⟨hsame'.devices.trans hsame.devices,
    hsame'.missed.trans hsame.missed⟩, hQ⟩

/-- What is left is less, or the machine has stopped. -/
def Lessens (s : Hotplug) (loop : Loop) (s' : Hotplug) : Prop :=
  s'.Stopped ∨ ∃ loop', s'.Working loop' ∧ s'.work loop' < s.work loop

/-- The rescan is sent: the channel has room for it. -/
theorem Working.resumes (h : s.Working loop) (hbusy : s.busy = none) (hcontrols : s.controls = [])
    (hsince : loop.since = none) : Gets p launch s (s.Lessens loop) := by
  have hnow := (h.loopOk loop h.looping).2
  let loop' : Loop := ⟨loop.dirty, some s.clock, s.clock, loop.turns ++ [(s.clock, .resumed)]⟩
  have hloop : loop.step DEBOUNCE (s.clock + 0, .resumed) = .ok loop' := by
    simp only [Loop.step, hsince, Nat.add_zero]
    rw [if_neg (Nat.not_lt.mpr hnow)]
  obtain ⟨d, hmachine⟩ := h.running
  let s' : Hotplug := { s with controls := [.rescan], watcher := .looping loop' }
  have hact : act { s with clock := s.clock + 0 } loop' .resumed = .ok s' := by
    simp [act, sendRescan, hmachine, hcontrols, CONTROL_CAPACITY, s']
  obtain ⟨hrun, hworking⟩ := h.turn hbusy hloop hact rfl rfl rfl
  refine .of_run hrun rfl ⟨rfl, rfl⟩ (.inr ⟨loop', hworking, ?_⟩)
  simp [work, s', loop', hsince, hcontrols]

theorem Working.reads (h : s.Working loop) (hbusy : s.busy = none) {since : ℕ}
    (hsince : loop.since = some since) {event : InotifyEvent} {events : List InotifyEvent}
    (hevents : s.events = event :: events) : Gets p launch s (s.Lessens loop) := by
  have hnow := (h.loopOk loop h.looping).2
  let loop' : Loop := ⟨true, some s.clock, s.clock, loop.turns ++ [(s.clock, .changed)]⟩
  have hloop : loop.step DEBOUNCE (s.clock + 0, .changed) = .ok loop' := by
    simp only [Loop.step, hsince, Nat.add_zero]
    rw [if_neg (Nat.not_lt.mpr hnow)]
  let s' : Hotplug := { s with events, watcher := .looping loop' }
  have hact : act { s with clock := s.clock + 0 } loop' .changed = .ok s' := by
    simp [act, hevents, s']
  obtain ⟨hrun, hworking⟩ := h.turn hbusy hloop hact rfl rfl rfl
  refine .of_run hrun rfl ⟨rfl, rfl⟩ (.inr ⟨loop', hworking, ?_⟩)
  simp only [work, s', loop', hsince, hevents, List.length_cons, if_true, reduceCtorEq, if_false]
  omega

/-- A window passes without any change, and the burst is settled. -/
theorem Working.rests (h : s.Working loop) (hbusy : s.busy = none) {since : ℕ}
    (hsince : loop.since = some since) (hdirty : loop.dirty) : Gets p launch s (s.Lessens loop) := by
  have hnow := (h.loopOk loop h.looping).2
  let t := s.clock + DEBOUNCE
  let loop' : Loop := ⟨false, none, t, loop.turns ++ [(t, .settled)]⟩
  have hslept : since = loop.now := (h.loopOk loop h.looping).1.asleep since hsince
  have hloop : loop.step DEBOUNCE (t, .settled) = .ok loop' := by
    simp only [Loop.step, hsince]
    rw [if_neg (by omega), if_pos ⟨hdirty, by omega⟩]
  let s' : Hotplug := { s with clock := t, watcher := .looping loop' }
  have hact : act { s with clock := t } loop' .settled = .ok s' := rfl
  obtain ⟨hrun, hworking⟩ := h.turn hbusy hloop hact rfl rfl rfl
  refine .of_run hrun rfl ⟨rfl, rfl⟩ (.inr ⟨loop', hworking, ?_⟩)
  simp [work, s', loop', hsince, hdirty]

/-- With something left to do, the machine or the watcher does some of it. -/
theorem Working.goes (h : s.Working loop) (hwork : s.work loop ≠ 0) :
    Gets p launch s (s.Lessens loop) := by
  cases hbusy : s.busy with
  | some message =>
      obtain ⟨_ | wake, changed⟩ := message
      · exact absurd hbusy (h.started changed)
      · obtain ⟨host, s', hstep, hsame, hwhy⟩ := @Working.finish p launch _ _ h _ _ hbusy
        exact .of_run (.snoc .nil trivial hstep) rfl hsame
          (hwhy.imp_right fun hworking => ⟨loop, hworking⟩)
  | none =>
      cases hcontrols : s.controls with
      | cons ctrl controls =>
          obtain ⟨s', hstep, hsame, hworking⟩ := @Working.take p launch _ _ h hbusy _ _ hcontrols
          exact .of_run (.snoc .nil trivial hstep) rfl hsame (.inr ⟨loop, hworking⟩)
      | nil =>
          cases hsince : loop.since with
          | none => exact h.resumes hbusy hcontrols hsince
          | some since =>
              cases hevents : s.events with
              | cons event events => exact h.reads hbusy hsince hevents
              | nil =>
                  refine h.rests hbusy hsince ?_
                  by_contra hclean
                  exact hwork (by simp [work, hbusy, hcontrols, hsince, hevents, hclean])

theorem Working.settles (h : s.Working loop) :
    Gets p launch s fun s' => s'.Stopped ∨ s'.Settled ∧ ∃ loop, s'.Working loop := by
  induction hwork : s.work loop using Nat.strong_induction_on generalizing s loop with
  | _ n ih =>
      by_cases hnone : s.work loop = 0
      · exact .of_run .nil rfl ⟨rfl, rfl⟩ (.inr ⟨h.settled hnone, loop, h⟩)
      · refine (h.goes hnone).trans fun s' hs' => ?_
        rcases hs' with hstopped | ⟨loop', hworking, hless⟩
        · exact .of_run .nil rfl ⟨rfl, rfl⟩ (.inl hstopped)
        · exact ih _ (hwork ▸ hless) hworking rfl

/-- The machine handles no messages before it has started. -/
theorem started_of_run {devices : List DeviceEntry} {inputs : List HotplugInput} {v : Service}
    (hrun : Run (step p launch) (start devices) inputs s) (hmachine : s.machine = some v) :
    ∀ changed, s.busy ≠ some (none, changed) := by
  let Started (s : Hotplug) : Prop := ∀ changed, s.busy = some (none, changed) → s.machine = none
  have hstarted : Started s := by
    refine hrun.invariant (fun _ h => by cases h) fun s input next h _ hstep => ?_
    cases step_cases hstep with
    | passed _ | ignored _ _ _ | gone _ | added _ | looping _ | read _ _ _ _ _ _ _ | waited _ _ _ _ _ _
    | sent _ _ _ _ | commanded _ => exact h
    | reported _ _ _ _ _ | unreported _ _ _ =>
        intro changed hbusy
        obtain ⟨⟨wake, before⟩, hbefore, hwake⟩ := Option.map_eq_some_iff.mp hbusy
        cases hwake
        exact h before hbefore
    | booted hmachine => exact fun _ _ => hmachine
    | taken _ _ _ _ => exact fun _ hbusy => by cases hbusy
    | finished _ _ _ _ _ _ _ => exact fun _ hbusy => by cases hbusy
  intro changed hbusy
  rw [hstarted changed hbusy] at hmachine
  cases hmachine

/-- A change is never stuck: as long as the machine runs and the watcher is in its loop, the two get by
themselves to where the machine shows the devices that are there, unless the machine stops on the way. -/
theorem changes_get_through {devices : List DeviceEntry} {inputs : List HotplugInput} {v : Service}
    (hrun : Run (step p launch) (start devices) inputs s) (hwatcher : s.watcher = .looping loop)
    (hmachine : s.machine = some v) (hrunning : v.running) (hmissed : s.missed = false) :
    Gets p launch s fun s' => s'.Stopped ∨
      s'.Settled ∧ ∃ v, s'.machine = some v ∧ v.daemon.Reflects p s.devices := by
  have hworking : s.Working loop := by
    refine ⟨loopOk_of_run hrun, hwatcher, ⟨v.daemon, ?_⟩, started_of_run hrun hmachine⟩
    rw [hmachine, ← hrunning]
  obtain ⟨more, s', hmore, hsame, hwhy⟩ := @Working.settles p launch _ _ hworking
  refine ⟨more, s', hmore, hsame, ?_⟩
  rcases hwhy with hstopped | ⟨hsettled, loop', hworking'⟩
  · exact .inl hstopped
  · obtain ⟨d, hmachine'⟩ := hworking'.running
    have hrun' := hrun.trans (hmore.weaken fun _ _ _ => trivial)
    refine .inr ⟨hsettled, _, hmachine', ?_⟩
    rw [← hsame.devices]
    exact (follows_of_run hrun').reflects hsettled (hsame.missed.trans hmissed) hmachine' rfl

theorem changes_get_through_plugIn : ∃ s : Hotplug, ¬s.Settled ∧ Gets Bench.platform bench s fun s' =>
    s'.Stopped ∨ s'.Settled ∧
      ∃ v, s'.machine = some v ∧ v.daemon.Reflects Bench.platform s.devices := by
  obtain ⟨s, hrun, hevents, loop, hwatcher, v, hmachine, hrunning, hmissed⟩ :
      ∃ s, Run (step Bench.platform bench) (start []) (plugIn.take 6) s ∧ s.events ≠ [] ∧
        ∃ loop, s.watcher = .looping loop ∧
          ∃ v, s.machine = some v ∧ v.running ∧ s.missed = false := by
    refine ⟨_, run_get (by decide +kernel), by decide +kernel, _, rfl, ?_⟩
    exact ⟨_, (Option.some_get (by decide +kernel)).symm, by decide +kernel, by decide +kernel⟩
  exact ⟨s, fun hsettled => hsettled.nothing (.inl hevents),
    changes_get_through hrun hwatcher hmachine hrunning hmissed⟩

end Hotplug

end AlertU
