import AlertU.Bench
import AlertU.Learn
import AlertU.Logs
import AlertU.MachineTurn
import AlertU.Runs

/-! Pairing next to the guard. A window runs detached from the machine, and both read the same
devices: a press goes to the readers of the machine and to those of every open window that listens to
its node, and each of them hands it on at its own pace. -/

open FilePath Timing Runs Logs

namespace AlertU

/-- A run of `learn::run`: the devices it listens to and the presses its readers have forwarded. Its
readers stand once it has started. -/
structure Window where
  entries : List DeviceEntry
  secs : ℕ
  started : Option Instant
  presses : List (ℕ × Press)
  closed : Bool

/-- What happens to the presses, which are numbered, and to the windows. -/
inductive PairingMoment where
  | observed (window press : ℕ)
  | learned (window press : ℕ)
  | closed (window : ℕ)
  | toggled (press : ℕ)
  | intruded (press : ℕ)
  | leftIdle (press : ℕ)
  deriving DecidableEq, Repr

namespace PairingMoment

def press : PairingMoment → Option ℕ
  | .observed _ press | .learned _ press | .toggled press | .intruded press | .leftIdle press =>
      some press
  | .closed _ => none

def observedPress : PairingMoment → Option ℕ
  | .observed _ press => some press
  | _ => none

/-- The press that the machine has acted on. -/
def actedOn : PairingMoment → Option ℕ
  | .toggled press | .intruded press | .leftIdle press => some press
  | _ => none

end PairingMoment

namespace Window

/-- `learn::run` on the devices of the moment. -/
def new (entries : List DeviceEntry) (secs : ℕ) : Window :=
  ⟨Learn.listened entries, secs, none, [], false⟩

/-- What the window's reader of the node forwards. -/
def hears (evdev : Evdev) (window : Window) (path : PathBuf) (event : EventSummary) :
    Option Press :=
  if window.closed || window.started.isNone then none
  else
    (window.entries.find? fun entry => entry.path.same path).bind fun entry =>
      Learn.watchOne evdev entry event

def hear (evdev : Evdev) (press : ℕ) (path : PathBuf) (event : EventSummary) (window : Window) :
    Window :=
  match window.hears evdev path event with
  | some seen => { window with presses := window.presses ++ [(press, seen)] }
  | none => window

end Window

/-- The daemon, the pairing windows it has opened, the signals its readers are still to send, and its
input channel. -/
structure Pairing where
  daemon : Daemon
  windows : List Window
  nextPress : ℕ
  pending : List (ℕ × InputSignal)
  signals : List (ℕ × InputSignal)
  history : List PairingMoment

inductive PairingInput where
  | machine (wake : Wake) (host : Host)
  | begin (window : ℕ) (now : Instant)
  | press (path : PathBuf) (name : String) (event : EventSummary) (readers : List Reader)
      (windows : List ℕ)
  | forward (n : ℕ)
  | lose (n : ℕ)
  | deliver (host : Host)
  | receive (window : ℕ) (now : Instant)
  | timeOut (window : ℕ) (now : Instant)

/-- The messages of the machine other than input signals. -/
def Wake.isInput : Wake → Bool
  | .input _ => true
  | _ => false

/-- The window that an accepted `LearnRemote` opens. -/
def Action.window : Action → Option Window
  | .learn secs entries => some (.new entries secs)
  | _ => none

namespace Pairing

def start (daemon : Daemon) : Pairing := ⟨daemon, [], 0, [], [], []⟩

variable (p : Platform) (s : Pairing)

def moveTo (next : Daemon) : Pairing :=
  { s with
    daemon := next
    windows := s.windows ++ (s.daemon.since next).filterMap Action.window }

/-- What the delivery of a signal of the press does. -/
def moments (d next : Daemon) (press : ℕ) (signal : InputSignal) : List PairingMoment :=
  (if signal = .remoteToggle then [.toggled press] else []) ++
    (if .handle .intrusion ∈ d.since next then [.intruded press] else []) ++
    if d.state = .idle ∧ next.state ≠ .idle then [.leftIdle press] else []

/-- The signals that the readers make of an event. -/
def sent (readers : List Reader) (name : String) (event : EventSummary) : List InputSignal :=
  readers.filterMap fun reader => reader.role.signal name event

def step (s : Pairing) : PairingInput → Except Unit Pairing
  | .machine wake host =>
      if wake.isInput then .error ()
      else
        match s.daemon.step p (wake, host) with
        | .ok next => .ok (s.moveTo next)
        | .error _ => .error ()
  | .begin w now =>
      match s.windows[w]? with
      | some window =>
          if window.closed || window.started.isSome then .error ()
          else if window.entries.isEmpty then
            -- "no input device available to learn from"
            .ok { s with
              windows := s.windows.set w { window with closed := true }
              history := s.history ++ [.closed w] }
          else .ok { s with windows := s.windows.set w { window with started := some now } }
      | none => .error ()
  | .press path name event readers windows =>
      if (readers.all fun reader => reader ∈ s.daemon.readers ∧ path.same reader.path) &&
          windows.all fun w =>
            s.windows[w]?.any fun window => (window.hears p.evdev path event).isSome then
        .ok { s with
          windows := s.windows.mapIdx fun w window =>
            if w ∈ windows then window.hear p.evdev s.nextPress path event else window
          nextPress := s.nextPress + 1
          pending := s.pending ++ (sent readers name event).map (s.nextPress, ·)
          history := s.history ++ windows.map (.observed · s.nextPress) }
      else .error ()
  | .forward n =>
      match s.pending[n]? with
      | some signal =>
          .ok { s with pending := s.pending.eraseIdx n, signals := s.signals ++ [signal] }
      | none => .error ()
  | .lose n => .ok { s with pending := s.pending.eraseIdx n }
  | .deliver host =>
      match s.signals with
      | [] => .error ()
      | (press, signal) :: rest =>
          match s.daemon.step p (.input signal, host) with
          | .ok next =>
              .ok { s with
                daemon := next
                signals := rest
                history := s.history ++ moments s.daemon next press signal }
          | .error _ => .error ()
  | .receive w now =>
      match s.windows[w]? with
      | some window =>
          match window.closed, window.started, window.presses with
          | false, some started, (press, seen) :: rest =>
              if now < started then .error ()
              else
                match Learn.receive started now seen with
                | none => .ok { s with windows := s.windows.set w { window with presses := rest } }
                | some _ =>
                    .ok { s with
                      windows := s.windows.set w { window with presses := rest, closed := true }
                      history := s.history ++ [.learned w press, .closed w] }
          | _, _, _ => .error ()
      | none => .error ()
  | .timeOut w now =>
      match s.windows[w]? with
      | some window =>
          match window.closed, window.started with
          | false, some started =>
              if now.elapsedSince started < window.secs * nanosPerSec then .error ()
              else
                .ok { s with
                  windows := s.windows.set w { window with closed := true }
                  history := s.history ++ [.closed w] }
          | _, _ => .error ()
      | none => .error ()

/-- The presses that some window has observed. -/
def observed : List ℕ := s.history.filterMap PairingMoment.observedPress

/-- No signal of an observed press is still under way to the machine. -/
def settled : Bool := (s.pending ++ s.signals).all fun signal => signal.1 ∉ s.observed

/-- The condition on one step: the guard is armed with nothing of an observed press under way, and a
press that a window observes is no toggle, nor any other signal unless the guard is idle. -/
def calm : PairingInput → Bool
  | .machine wake _ => !s.daemon.arms wake || s.settled
  | .deliver _ =>
      match s.signals with
      | [] => true
      | (_, signal) :: _ => !s.daemon.arms (.input signal) || s.settled
  | .press _ name event readers windows =>
      windows.isEmpty || (.remoteToggle ∉ sent readers name event &&
        ((sent readers name event).isEmpty || s.daemon.state = .idle))
  | _ => true

/-- What keeps the two readers of a device apart: what the machine has acted on and what the windows
have observed are different presses, and so it stays. -/
structure Separate (s : Pairing) : Prop where
  numbered : ∀ m ∈ s.history, ∀ press, m.press = some press → press < s.nextPress
  underWay : ∀ signal ∈ s.pending ++ s.signals, signal.1 < s.nextPress ∧
    (signal.1 ∈ s.observed → signal.2 ≠ .remoteToggle ∧ s.daemon.state = .idle)
  forwarded : ∀ window ∈ s.windows, ∀ seen ∈ window.presses, seen.1 ∈ s.observed
  learned : ∀ w press, .learned w press ∈ s.history → press ∈ s.observed
  apart : ∀ m ∈ s.history, ∀ press, m.actedOn = some press → press ∉ s.observed

variable {p : Platform} {s s' : Pairing} {wake : Wake} {host : Host} {next : Daemon}

theorem mem_observed {press : ℕ} : press ∈ s.observed ↔ ∃ w, .observed w press ∈ s.history := by
  rw [observed, List.mem_filterMap]
  constructor
  · rintro ⟨m, hm, hpress⟩
    cases m <;> cases hpress
    exact ⟨_, hm⟩
  · rintro ⟨w, hw⟩
    exact ⟨_, hw, rfl⟩

theorem settled_iff : s.settled ↔ ∀ signal ∈ s.pending ++ s.signals, signal.1 ∉ s.observed := by
  simp only [settled, List.all_eq_true, decide_eq_true_eq]

namespace Separate

theorem start (daemon : Daemon) : (Pairing.start daemon).Separate :=
  ⟨nofun, nofun, nofun, nofun, nofun⟩

/-- A step on which no press is observed, acted on or reported. -/
theorem extend (h : s.Separate) (segment : List PairingMoment)
    (hhistory : s'.history = s.history ++ segment) (hnext : s'.nextPress = s.nextPress)
    (hsegment : ∀ m ∈ segment, m.observedPress = none)
    (hpress : ∀ m ∈ segment, ∀ press, m.press = some press → press < s.nextPress)
    (hunderWay : ∀ signal ∈ s'.pending ++ s'.signals, signal ∈ s.pending ++ s.signals)
    (hstate : s'.daemon.state = .idle ∨ ∀ signal ∈ s'.pending ++ s'.signals,
      signal.1 ∉ s.observed)
    (hforwarded : ∀ window ∈ s'.windows, ∀ seen ∈ window.presses, seen.1 ∈ s.observed)
    (hlearned : ∀ w press, .learned w press ∈ segment → press ∈ s.observed)
    (hapart : ∀ m ∈ segment, ∀ press, m.actedOn = some press → press ∉ s.observed) :
    s'.Separate := by
  have hobserved : s'.observed = s.observed := by
    rw [observed, observed, hhistory, List.filterMap_append,
      List.filterMap_eq_nil_iff.mpr hsegment, List.append_nil]
  refine ⟨?_, ?_, ?_, ?_, ?_⟩
  · rw [hhistory, hnext]
    intro m hm press hmoment
    rcases List.mem_append.mp hm with hm | hm
    · exact h.numbered m hm press hmoment
    · exact hpress m hm press hmoment
  · rw [hobserved, hnext]
    intro signal hsignal
    obtain ⟨hlt, hquiet⟩ := h.underWay signal (hunderWay signal hsignal)
    refine ⟨hlt, fun hmem => ⟨(hquiet hmem).1, ?_⟩⟩
    rcases hstate with hidle | hnone
    · exact hidle
    · exact absurd hmem (hnone signal hsignal)
  · rw [hobserved]
    exact hforwarded
  · rw [hobserved, hhistory]
    intro w press hm
    rcases List.mem_append.mp hm with hm | hm
    · exact h.learned w press hm
    · exact hlearned w press hm
  · rw [hobserved, hhistory]
    intro m hm press hmoment
    rcases List.mem_append.mp hm with hm | hm
    · exact h.apart m hm press hmoment
    · exact hapart m hm press hmoment

/-- While the guard is active, nothing of an observed press is under way. -/
theorem idle_or_settled (h : s.Separate) :
    s.daemon.state = .idle ∨ ∀ signal ∈ s.pending ++ s.signals, signal.1 ∉ s.observed := by
  by_cases hstate : s.daemon.state = .idle
  · exact .inl hstate
  · exact .inr fun signal hsignal hmem => hstate ((h.underWay signal hsignal).2 hmem).2

/-- The same after a step of the machine: when it was armed, nothing observed was under way. -/
theorem idle_or_settled_of_turn (h : s.Separate) (hturn : Daemon.Turn p host s.daemon wake next)
    (hcalm : s.daemon.arms wake → s.settled) :
    next.state = .idle ∨ ∀ signal ∈ s.pending ++ s.signals, signal.1 ∉ s.observed := by
  by_cases hnext : next.state = .idle
  · exact .inl hnext
  · rcases h.idle_or_settled with hstate | hsettled
    · exact .inr (settled_iff.mp (hcalm (hturn.arms hstate hnext)))
    · exact .inr hsettled

/-- A step that changes one window, which forwards nothing new. -/
theorem forwarded_set (h : s.Separate) {w : ℕ} {window window' : Window}
    (hwindow : s.windows[w]? = some window)
    (hpresses : ∀ seen ∈ window'.presses, seen ∈ window.presses) :
    ∀ win ∈ s.windows.set w window', ∀ seen ∈ win.presses, seen.1 ∈ s.observed := by
  intro win hwin seen hseen
  rcases List.mem_or_eq_of_mem_set hwin with hwin | rfl
  · exact h.forwarded win hwin seen hseen
  · exact h.forwarded window (List.mem_of_getElem? hwindow) seen (hpresses seen hseen)

/-- A step of a window: the machine and its signals stand still. -/
theorem window (h : s.Separate) {w : ℕ} {window : Window} (window' : Window)
    (hwindow : s.windows[w]? = some window)
    (hpresses : ∀ seen ∈ window'.presses, seen ∈ window.presses) (segment : List PairingMoment)
    (hsegment : ∀ m ∈ segment, m.observedPress = none ∧ m.actedOn = none)
    (hpress : ∀ m ∈ segment, ∀ press, m.press = some press → press ∈ s.observed) :
    Separate { s with
      windows := s.windows.set w window'
      history := s.history ++ segment } := by
  refine h.extend segment rfl rfl (fun m hm => (hsegment m hm).1) ?_ (fun _ hsignal => hsignal)
    h.idle_or_settled (h.forwarded_set hwindow hpresses)
    (fun w press hm => hpress _ hm press rfl) ?_
  · intro m hm press hmoment
    obtain ⟨w, hw⟩ := mem_observed.mp (hpress m hm press hmoment)
    exact h.numbered _ hw press rfl
  · intro m hm press hmoment
    rw [(hsegment m hm).2] at hmoment
    cases hmoment

/-- A step of a window that nothing is told of. -/
theorem setWindow (h : s.Separate) {w : ℕ} {window : Window} (window' : Window)
    (hwindow : s.windows[w]? = some window)
    (hpresses : ∀ seen ∈ window'.presses, seen ∈ window.presses) :
    Separate { s with windows := s.windows.set w window' } := by
  have hset := h.window window' hwindow hpresses [] nofun nofun
  rwa [List.append_nil] at hset

theorem close (h : s.Separate) {w : ℕ} {window : Window} (hwindow : s.windows[w]? = some window) :
    Separate { s with
      windows := s.windows.set w { window with closed := true }
      history := s.history ++ [.closed w] } :=
  h.window { window with closed := true } hwindow (fun _ hseen => hseen) [.closed w]
    (by simp [PairingMoment.observedPress, PairingMoment.actedOn]) (by simp [PairingMoment.press])

/-- Signals move on towards the machine, or get lost. -/
theorem handOn (h : s.Separate) {pending signals : List (ℕ × InputSignal)}
    (hsignals : ∀ signal ∈ pending ++ signals, signal ∈ s.pending ++ s.signals) :
    Separate { s with pending, signals } := by
  refine h.extend [] (List.append_nil _).symm rfl nofun nofun hsignals ?_ h.forwarded nofun nofun
  exact h.idle_or_settled.imp_right fun hsettled signal hsignal =>
    hsettled signal (hsignals signal hsignal)

theorem machine (h : s.Separate) (hturn : Daemon.Turn p host s.daemon wake next)
    (hcalm : s.daemon.arms wake → s.settled) : (s.moveTo next).Separate := by
  refine h.extend [] (List.append_nil _).symm rfl nofun nofun (fun _ hsignal => hsignal)
    (h.idle_or_settled_of_turn hturn hcalm) ?_ nofun nofun
  intro window hwindow seen hseen
  rcases List.mem_append.mp hwindow with hwindow | hwindow
  · exact h.forwarded window hwindow seen hseen
  · obtain ⟨action, -, haction⟩ := List.mem_filterMap.mp hwindow
    cases action <;> cases haction
    cases hseen

theorem moments_cases {d : Daemon} {press : ℕ} {signal : InputSignal} {m : PairingMoment}
    (hm : m ∈ moments d next press signal) :
    m = .toggled press ∨ m = .intruded press ∨ m = .leftIdle press := by
  unfold moments at hm
  simp only [List.mem_append] at hm
  rcases hm with (hm | hm) | hm <;> split_ifs at hm <;> simp at hm <;> simp [hm]

/-- The delivery of a signal: one that belongs to an observed press does nothing. -/
theorem deliver (h : s.Separate) {press : ℕ} {signal : InputSignal} {rest : List (ℕ × InputSignal)}
    (hsignals : s.signals = (press, signal) :: rest)
    (hcalm : s.daemon.arms (.input signal) → s.settled)
    (hstep : s.daemon.step p (.input signal, host) = .ok next) :
    Separate { s with
      daemon := next
      signals := rest
      history := s.history ++ moments s.daemon next press signal } := by
  have hrest : ∀ signal ∈ s.pending ++ rest, signal ∈ s.pending ++ s.signals := by
    intro signal hsignal
    rw [hsignals]
    exact List.mem_append.mpr ((List.mem_append.mp hsignal).imp_right (List.mem_cons_of_mem _))
  have hmem : (press, signal) ∈ s.pending ++ s.signals := by
    rw [hsignals]
    exact List.mem_append_right _ List.mem_cons_self
  obtain ⟨hlt, hquiet⟩ := h.underWay _ hmem
  have hmoments : ∀ m ∈ moments s.daemon next press signal,
      m.observedPress = none ∧ m.press = some press ∧ m.actedOn = some press := by
    intro m hm
    rcases moments_cases hm with rfl | rfl | rfl <;> exact ⟨rfl, rfl, rfl⟩
  have hnone : press ∈ s.observed → moments s.daemon next press signal = [] := by
    intro hobserved
    obtain ⟨htoggle, hidle⟩ := hquiet hobserved
    cases signal with
    | remoteToggle => exact absurd rfl htoggle
    | activity source =>
        change s.daemon.onInput p host (.activity source) = .ok next at hstep
        rw [Daemon.onInput, hidle] at hstep
        cases hstep
        simp [moments, Daemon.since]
  refine h.extend _ rfl rfl (fun m hm => (hmoments m hm).1) ?_ hrest ?_ h.forwarded ?_ ?_
  · intro m hm press' hpress
    rw [(hmoments m hm).2.1] at hpress
    cases hpress
    exact hlt
  · exact (h.idle_or_settled_of_turn (Daemon.turn_of_step hstep) hcalm).imp_right
      fun hquiet signal hsignal => hquiet signal (hrest signal hsignal)
  · intro w press' hm
    rcases moments_cases hm with hm | hm | hm <;> cases hm
  · intro m hm press' hpress hobserved
    rw [(hmoments m hm).2.2] at hpress
    cases hpress
    rw [hnone hobserved] at hm
    cases hm

theorem hear_presses {evdev : Evdev} {press : ℕ} {path : PathBuf} {event : EventSummary}
    {window : Window} {seen : ℕ × Press} (hseen : seen ∈ (window.hear evdev press path event).presses) :
    seen ∈ window.presses ∨ seen.1 = press := by
  unfold Window.hear at hseen
  split at hseen
  · rcases List.mem_append.mp hseen with hseen | hseen
    · exact .inl hseen
    · rw [List.mem_singleton.mp hseen]
      exact .inr rfl
  · exact .inl hseen

theorem nextPress_notMem_observed (h : s.Separate) : s.nextPress ∉ s.observed := by
  intro hmem
  obtain ⟨w, hw⟩ := mem_observed.mp hmem
  have hlt := h.numbered _ hw _ rfl
  omega

/-- What has been observed once some windows have observed the press `n` as well. -/
theorem mem_observed_of_press {n press : ℕ} {windows : List ℕ}
    (hhistory : s'.history = s.history ++ windows.map (.observed · n)) :
    press ∈ s'.observed ↔ press ∈ s.observed ∨ ((∃ w, w ∈ windows) ∧ press = n) := by
  simp only [mem_observed, hhistory, List.mem_append, List.mem_map, PairingMoment.observed.injEq,
    exists_or]
  constructor
  · rintro (hold | ⟨w, w', hw', -, rfl⟩)
    · exact .inl hold
    · exact .inr ⟨⟨w', hw'⟩, rfl⟩
  · rintro (hold | ⟨⟨w, hw⟩, rfl⟩)
    · exact .inl hold
    · exact .inr ⟨w, w, hw, rfl, rfl⟩

/-- A press is numbered afresh, so that nothing has been done about it yet. -/
theorem press (h : s.Separate) {path : PathBuf} {name : String} {event : EventSummary}
    {readers : List Reader} {windows : List ℕ}
    (hcalm : windows = [] ∨ (.remoteToggle ∉ sent readers name event ∧
      (sent readers name event = [] ∨ s.daemon.state = .idle))) :
    Separate { s with
      windows := s.windows.mapIdx fun w window =>
        if w ∈ windows then window.hear p.evdev s.nextPress path event else window
      nextPress := s.nextPress + 1
      pending := s.pending ++ (sent readers name event).map (s.nextPress, ·)
      history := s.history ++ windows.map (.observed · s.nextPress) } := by
  generalize hs' : ({ s with
      windows := _, nextPress := _, pending := _, history := _ } : Pairing) = s'
  have hobserved {press : ℕ} : press ∈ s'.observed ↔
      press ∈ s.observed ∨ ((∃ w, w ∈ windows) ∧ press = s.nextPress) := by
    subst hs'
    exact mem_observed_of_press rfl
  have hold {press : ℕ} (hlt : press < s.nextPress) (hmem : press ∈ s'.observed) :
      press ∈ s.observed := by
    rcases hobserved.mp hmem with hmem | ⟨-, rfl⟩
    · exact hmem
    · omega
  have hquiet {signal : InputSignal} (hsignal : signal ∈ sent readers name event)
      (hmem : s.nextPress ∈ s'.observed) : signal ≠ .remoteToggle ∧ s.daemon.state = .idle := by
    obtain ⟨⟨w, hw⟩, -⟩ := (hobserved.mp hmem).resolve_left h.nextPress_notMem_observed
    rcases hcalm with rfl | ⟨htoggle, hidle⟩
    · cases hw
    · refine ⟨fun heq => htoggle (heq ▸ hsignal), hidle.resolve_left fun hnil => ?_⟩
      rw [hnil] at hsignal
      cases hsignal
  subst hs'
  refine ⟨?_, ?_, ?_, ?_, ?_⟩
  · intro m hm press hmoment
    rcases List.mem_append.mp hm with hm | hm
    · have hlt := h.numbered m hm press hmoment
      show press < s.nextPress + 1
      omega
    · obtain ⟨w, -, rfl⟩ := List.mem_map.mp hm
      cases hmoment
      show s.nextPress < s.nextPress + 1
      omega
  · intro signal hsignal
    have hcases : signal ∈ s.pending ++ s.signals ∨
        ∃ sig ∈ sent readers name event, (s.nextPress, sig) = signal := by
      simp only [List.mem_append, List.mem_map] at hsignal ⊢
      tauto
    rcases hcases with hsignal | ⟨sig, hsig, rfl⟩
    · obtain ⟨hlt, hsignal⟩ := h.underWay signal hsignal
      exact ⟨Nat.lt_succ_of_lt hlt, fun hmem => hsignal (hold hlt hmem)⟩
    · exact ⟨Nat.lt_succ_self _, hquiet hsig⟩
  · intro window hwindow seen hseen
    obtain ⟨w, hw, rfl⟩ := List.mem_mapIdx.mp hwindow
    rw [hobserved]
    split_ifs at hseen with hmem
    · rcases hear_presses hseen with hseen | hseen
      · exact .inl (h.forwarded _ (List.getElem_mem hw) seen hseen)
      · exact .inr ⟨⟨w, hmem⟩, hseen⟩
    · exact .inl (h.forwarded _ (List.getElem_mem hw) seen hseen)
  · intro w press hm
    rw [hobserved]
    rcases List.mem_append.mp hm with hm | hm
    · exact .inl (h.learned w press hm)
    · obtain ⟨w', -, hw'⟩ := List.mem_map.mp hm
      cases hw'
  · intro m hm press hmoment hmem
    rcases List.mem_append.mp hm with hm | hm
    · have hlt : press < s.nextPress := by
        refine h.numbered m hm press ?_
        cases m <;> first | exact hmoment | cases hmoment
      exact h.apart m hm press hmoment (hold hlt hmem)
    · obtain ⟨w, -, rfl⟩ := List.mem_map.mp hm
      cases hmoment

theorem step (h : s.Separate) {input : PairingInput} (hcalm : s.calm input)
    (hstep : s.step p input = .ok s') : s'.Separate := by
  cases input with
  | machine wake host =>
      simp only [Pairing.step] at hstep
      split_ifs at hstep
      split at hstep
      · rename_i next hnext
        cases hstep
        exact h.machine (Daemon.turn_of_step hnext) (by simpa [calm, imp_iff_not_or] using hcalm)
      · cases hstep
  | begin w now =>
      simp only [Pairing.step] at hstep
      split at hstep
      · rename_i window hwindow
        split_ifs at hstep
        · cases hstep
          exact h.close hwindow
        · cases hstep
          exact h.setWindow { window with started := some now } hwindow fun _ hseen => hseen
      · cases hstep
  | press path name event readers windows =>
      simp only [Pairing.step] at hstep
      split_ifs at hstep
      cases hstep
      exact h.press (by simpa [calm] using hcalm)
  | forward n =>
      simp only [Pairing.step] at hstep
      split at hstep
      · rename_i signal hsignal
        cases hstep
        refine h.handOn fun q hq => ?_
        simp only [List.mem_append, List.mem_singleton] at hq ⊢
        rcases hq with hq | hq | rfl
        · exact .inl (List.mem_of_mem_eraseIdx hq)
        · exact .inr hq
        · exact .inl (List.mem_of_getElem? hsignal)
      · cases hstep
  | lose n =>
      cases hstep
      refine h.handOn fun q hq => ?_
      rw [List.mem_append] at hq ⊢
      exact hq.imp_left List.mem_of_mem_eraseIdx
  | deliver host =>
      simp only [Pairing.step] at hstep
      split at hstep
      · cases hstep
      · rename_i press signal rest hsignals
        split at hstep
        · rename_i next hnext
          cases hstep
          exact h.deliver hsignals (by simpa [calm, hsignals, imp_iff_not_or] using hcalm) hnext
        · cases hstep
  | receive w now =>
      simp only [Pairing.step] at hstep
      split at hstep
      · rename_i window hwindow
        split at hstep
        · rename_i started press seen rest hclosed hstarted hpresses
          split_ifs at hstep
          have hrest : ∀ q ∈ rest, q ∈ window.presses := by
            intro q hq
            rw [hpresses]
            exact List.mem_cons_of_mem _ hq
          have hmem : press ∈ s.observed := by
            refine h.forwarded window (List.mem_of_getElem? hwindow) (press, seen) ?_
            rw [hpresses]
            exact List.mem_cons_self
          split at hstep
          · cases hstep
            exact h.setWindow { window with presses := rest } hwindow hrest
          · cases hstep
            exact h.window _ hwindow hrest [.learned w press, .closed w]
              (by simp [PairingMoment.observedPress, PairingMoment.actedOn])
              (by simpa [PairingMoment.press] using hmem)
        · cases hstep
      · cases hstep
  | timeOut w now =>
      simp only [Pairing.step] at hstep
      split at hstep
      · rename_i window hwindow
        split at hstep
        · split_ifs at hstep
          cases hstep
          exact h.close hwindow
        · cases hstep
      · cases hstep

end Separate

/-- What pairing promises next to the guard: a press makes the guard leave `idle` only when every
window that has observed it is closed, and a press that has been learned is neither a toggle nor an
intrusion. -/
structure Exclusive (s : Pairing) : Prop where
  leftIdle : ∀ before press after, s.history = before ++ .leftIdle press :: after →
    ∀ w, .observed w press ∈ before → .closed w ∈ before
  learned : ∀ w press, .learned w press ∈ s.history →
    .toggled press ∉ s.history ∧ .intruded press ∉ s.history

/-- As long as no window observes a toggle, or another signal of the readers outside `idle`, and the
guard is not armed over the signal of a press that a window has observed, pairing and the guard keep
apart. -/
theorem pairing_is_exclusive {files : FileSystem} {cfg : Config} {cfgPath : PathBuf}
    {privileges : Privileges} {inputs : List PairingInput}
    (hrun : RunIf (step p) (fun s input => s.calm input)
      (start (.start p host files cfg cfgPath privileges)) inputs s) : s.Exclusive := by
  have h : s.Separate := hrun.invariant (.start _) fun _ _ _ h hcalm hnext => h.step hcalm hnext
  constructor
  · intro before press after hhistory w hw
    refine absurd (mem_observed.mpr ⟨w, ?_⟩) (h.apart (.leftIdle press) ?_ press rfl)
    · rw [hhistory]
      exact List.mem_append_left _ hw
    · rw [hhistory]
      exact List.mem_append_right _ List.mem_cons_self
  · intro w press hlearned
    have hobserved := h.learned w press hlearned
    exact ⟨fun hm => h.apart _ hm press rfl hobserved, fun hm => h.apart _ hm press rfl hobserved⟩

/-- A host with the remote of `Bench.shutter` as its only input device. -/
def shutterHost : Host :=
  { Bench.host "c1" with
    devices := [⟨⟨"/dev/input/event5"⟩, "AB Shutter", true, false⟩] }

/-- A press on that remote, which its reader and, if open, the first window get. -/
def shutterPress (key : KeyCode) (windows : List ℕ) : PairingInput :=
  .press ⟨"/dev/input/event5"⟩ "AB Shutter" (.key key 1) [⟨⟨"/dev/input/event5"⟩, .remote [28]⟩] windows

def shutterBoot : Daemon :=
  .start Bench.platform shutterHost ⟨fun _ => none⟩ Bench.shutter ⟨"/etc/alertu/config.toml"⟩ ⟨none⟩

def openWindow : List PairingInput :=
  [.machine (.control (.learnRemote (30 * nanosPerSec))) shutterHost, .begin 0 ⟨0, by decide⟩]

/-- Pairing another button of the remote, then arming with the old one. -/
theorem pairing_is_exclusive_other_button :
    ∃ s : Pairing, s.Exclusive ∧ .learned 0 0 ∈ s.history ∧ .leftIdle 1 ∈ s.history := by
  obtain ⟨s, hrun, hhistory⟩ : ∃ s, RunIf (step Bench.platform) (fun s input => s.calm input)
      (start shutterBoot)
      (openWindow ++ [shutterPress 115 [0], .receive 0 ⟨nanosPerSec, by decide⟩,
        shutterPress 28 [], .forward 0, .deliver shutterHost]) s ∧
      .learned 0 0 ∈ s.history ∧ .leftIdle 1 ∈ s.history :=
    ⟨_, runIf_get (by decide +kernel), by decide +kernel⟩
  exact ⟨s, pairing_is_exclusive hrun, hhistory⟩

/-- Pairing the current remote again: the press is learned, and it arms the guard. -/
theorem pairing_again_arms :
    ¬∀ (p : Platform) (host : Host) (files : FileSystem) (cfg : Config) (cfgPath : PathBuf)
        (privileges : Privileges) (inputs : List PairingInput) (s : Pairing),
      Run (step p) (start (.start p host files cfg cfgPath privileges)) inputs s →
      s.Exclusive := by
  intro h
  obtain ⟨s, hrun, hlearned, htoggled⟩ : ∃ s, Run (step Bench.platform) (start shutterBoot)
      (openWindow ++ [shutterPress 28 [0], .forward 0, .deliver shutterHost,
        .receive 0 ⟨nanosPerSec, by decide⟩]) s ∧
      .learned 0 0 ∈ s.history ∧ .toggled 0 ∈ s.history :=
    ⟨_, run_get (by decide +kernel), by decide +kernel⟩
  exact ((h _ _ _ _ _ _ _ s hrun).learned 0 0 hlearned).1 htoggled

end Pairing

end AlertU
