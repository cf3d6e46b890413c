import AlertU.Bench
import AlertU.Logs
import AlertU.MachineTurn
import AlertU.Runs

/-! Polling while the session is exchanged. `monitor` remembers one value, whichever session it was
read from, and `SetConfig` may point the shared `SessionCtl` at another session between any two of its
readings, so a difference between two sessions looks like a change of one. -/

open FilePath Runs Logs

namespace AlertU

/-- What the poll loop reads, with the session it has asked about and whether the value is pushed, and
the disarms by the lock channel, with the session of the reading that was pushed. -/
inductive Observation where
  | read (id : String) (locked sent : Bool)
  | disarmed (id : String)
  deriving DecidableEq, Repr

def Observation.reading : Observation → Option (String × Bool)
  | .read id locked _ => some (id, locked)
  | .disarmed _ => none

def Wake.isLock : Wake → Bool
  | .lock _ => true
  | _ => false

/-- The machine and the poll loop: the value it remembers, the session it is asking about, and the
lock channel, each message of which is listed with the session it was read from. -/
structure Monitoring where
  daemon : Daemon
  last : Option Bool
  asking : Option String
  lockChannel : List (String × Bool)
  history : List Observation

inductive MonitoringInput where
  | machine (wake : Wake) (host : Host)
  | deliver (host : Host)
  | ask
  | answer (ctl : Loginctl)

namespace Monitoring

def start (daemon : Daemon) : Monitoring := ⟨daemon, none, none, [], []⟩

def step (p : Platform) (s : Monitoring) : MonitoringInput → Except Unit Monitoring
  | .machine wake host =>
      if wake.isLock then .error ()
      else
        match s.daemon.step p (wake, host) with
        | .ok next => .ok { s with daemon := next }
        | .error _ => .error ()
  | .deliver host =>
      match s.lockChannel with
      | [] => .error ()
      | (id, locked) :: rest =>
          match s.daemon.step p (.lock locked, host) with
          | .ok next =>
              .ok { s with
                daemon := next
                lockChannel := rest
                history := s.history ++
                  if .handle .sessionUnlocked ∈ s.daemon.since next then [.disarmed id] else [] }
          | .error _ => .error ()
  | .ask =>
      -- `is_locked` copies the id before it runs `loginctl`
      match s.asking with
      | none => .ok { s with asking := some s.daemon.session.id }
      | some _ => .error ()
  | .answer ctl =>
      match s.asking with
      | none => .error ()
      | some id =>
          match SessionCtl.isLocked ⟨id⟩ ctl with
          | none => .ok { s with asking := none }
          | some locked =>
              let (last, emitted) := monitorStep s.last (some locked)
              .ok { s with
                last, asking := none
                lockChannel := s.lockChannel ++ emitted.toList.map (id, ·)
                history := s.history ++ [.read id locked emitted.isSome] }

/-- The last successful reading. -/
def lastRead (history : List Observation) : Option (String × Bool) :=
  latest Observation.reading history

/-- A value is pushed only if the same session was read at the opposite value just before, and the
lock channel disarms the guard only through such a value. -/
def Genuine (before : List Observation) (entry : Observation) (_after : List Observation) : Prop :=
  match entry with
  | .read id locked sent => sent → lastRead before = some (id, !locked)
  | .disarmed id => ∃ earlier later, before = earlier ++ .read id false true :: later ∧
      lastRead earlier = some (id, true)

/-- A reading of another session than the last one agrees with it. -/
def Agrees (before : List Observation) (entry : Observation) (_after : List Observation) : Prop :=
  ∀ id locked sent id' locked', entry = .read id locked sent →
    lastRead before = some (id', locked') → id ≠ id' → locked = locked'

/-- What the poll loop does, whatever the sessions are. -/
def Pushed (before : List Observation) (entry : Observation) (_after : List Observation) : Prop :=
  match entry with
  | .read _ locked sent => sent = true ↔ (lastRead before).map Prod.snd = some (!locked)
  | .disarmed id => .read id false true ∈ before

variable {p : Platform} {s s' : Monitoring}

structure Tracks (s : Monitoring) : Prop where
  last : s.last = (lastRead s.history).map Prod.snd
  channel : ∀ message ∈ s.lockChannel, .read message.1 message.2 true ∈ s.history
  pushed : Each Pushed [] s.history

theorem lastRead_append (history segment : List Observation) :
    lastRead (history ++ segment) = (lastRead segment).or (lastRead history) := latest_append _

/-- `monitor` remembers the reading, and pushes it if it remembered the opposite one. -/
theorem monitorStep_some (last : Option Bool) (locked : Bool) :
    monitorStep last (some locked) =
      (some locked, if last = some (!locked) then some locked else none) := by
  cases last with
  | none => cases locked <;> rfl
  | some remembered => cases remembered <;> cases locked <;> rfl

namespace Tracks

theorem start (daemon : Daemon) : (Monitoring.start daemon).Tracks := ⟨rfl, nofun, trivial⟩

theorem extend (h : s.Tracks) (segment : List Observation)
    (hlast : s'.last = (lastRead (s.history ++ segment)).map Prod.snd)
    (hhistory : s'.history = s.history ++ segment)
    (hchannel : ∀ message ∈ s'.lockChannel, message ∈ s.lockChannel ∨
      .read message.1 message.2 true ∈ segment)
    (hpushed : Each Pushed s.history segment) : s'.Tracks := by
  refine ⟨hhistory ▸ hlast, ?_, ?_⟩
  · intro message hmem
    rw [hhistory, List.mem_append]
    exact (hchannel message hmem).imp_left (h.channel message)
  · rw [hhistory]
    exact h.pushed.append (fun _ _ _ _ hentry => hentry) hpushed

theorem keep (h : s.Tracks) (hlast : s'.last = s.last) (hhistory : s'.history = s.history)
    (hchannel : s'.lockChannel = s.lockChannel) : s'.Tracks := by
  refine h.extend [] ?_ (by rw [hhistory, List.append_nil]) ?_ trivial
  · rw [List.append_nil, hlast, h.last]
  · rw [hchannel]
    exact fun _ hmem => .inl hmem

/-- The lock channel disarms the guard by an unlock. -/
theorem unlocked_of_handled {d next : Daemon} {locked : Bool} {host : Host}
    (hstep : d.step p (.lock locked, host) = .ok next)
    (hhandled : .handle .sessionUnlocked ∈ d.since next) : locked = false := by
  cases locked with
  | false => rfl
  | true =>
      change d.onLock p host true = .ok next at hstep
      rw [Daemon.onLock, if_neg (by simp)] at hstep
      cases hstep
      rw [Daemon.since_eq (List.append_nil _).symm] at hhandled
      cases hhandled

theorem deliver (h : s.Tracks) {id : String} {locked : Bool} {rest : List (String × Bool)}
    {next : Daemon} {host : Host} (hchannel : s.lockChannel = (id, locked) :: rest)
    (hstep : s.daemon.step p (.lock locked, host) = .ok next) :
    Tracks { s with
      daemon := next
      lockChannel := rest
      history := s.history ++
        if .handle .sessionUnlocked ∈ s.daemon.since next then [.disarmed id] else [] } := by
  refine h.extend _ ?_ rfl ?_ ?_
  · rw [lastRead_append, h.last]
    split_ifs <;> rfl
  · intro message hmem
    rw [hchannel]
    exact .inl (List.mem_cons_of_mem _ hmem)
  · split_ifs with hhandled
    · have hlocked := unlocked_of_handled hstep hhandled
      subst hlocked
      refine ⟨h.channel (id, false) ?_, trivial⟩
      rw [hchannel]
      exact List.mem_cons_self
    · trivial

theorem answer (h : s.Tracks) (id : String) (locked : Bool) :
    Tracks { s with
      last := (monitorStep s.last (some locked)).1
      asking := none
      lockChannel := s.lockChannel ++ (monitorStep s.last (some locked)).2.toList.map (id, ·)
      history := s.history ++ [.read id locked (monitorStep s.last (some locked)).2.isSome] } := by
  rw [monitorStep_some]
  refine h.extend _ ?_ rfl ?_ ⟨?_, trivial⟩
  · rw [lastRead_append]
    rfl
  · intro message hmem
    rw [List.mem_append] at hmem
    refine hmem.imp_right fun hnew => ?_
    split_ifs at hnew with hopposite
    · have hmessage : message = (id, locked) := by simpa using hnew
      simp [hmessage, hopposite]
    · cases hnew
  · show _ = true ↔ _
    rw [← h.last]
    split_ifs with hopposite
    · simp [hopposite]
    · simp [hopposite]

theorem step (h : s.Tracks) {input : MonitoringInput} (hstep : s.step p input = .ok s') :
    s'.Tracks := by
  cases input with
  | machine wake host =>
      simp only [Monitoring.step] at hstep
      split_ifs at hstep
      split at hstep
      · cases hstep
        exact h.keep rfl rfl rfl
      · cases hstep
  | deliver host =>
      simp only [Monitoring.step] at hstep
      split at hstep
      · cases hstep
      · rename_i hchannel
        split at hstep
        · rename_i next hnext
          cases hstep
          exact h.deliver hchannel hnext
        · cases hstep
  | ask =>
      simp only [Monitoring.step] at hstep
      split at hstep
      · cases hstep
        exact h.keep rfl rfl rfl
      · cases hstep
  | answer ctl =>
      simp only [Monitoring.step] at hstep
      split at hstep
      · cases hstep
      · rename_i id hasking
        split at hstep
        · cases hstep
          exact h.keep rfl rfl rfl
        · rename_i locked _
          cases hstep
          exact h.answer id locked

end Tracks

/-- A value that is pushed is genuine if its session was the last one to be read. -/
theorem genuine_read {before after : List Observation} {id : String} {locked : Bool}
    (hpushed : Pushed before (.read id locked true) after)
    (hagrees : Agrees before (.read id locked true) after) : lastRead before = some (id, !locked) := by
  have hlast : (lastRead before).map Prod.snd = some (!locked) := hpushed.mp rfl
  obtain ⟨⟨id', locked'⟩, hread, hlocked⟩ := Option.map_eq_some_iff.mp hlast
  change locked' = !locked at hlocked
  subst hlocked
  by_cases hid : id = id'
  · rw [hread, hid]
  · have := hagrees id locked true id' _ rfl hread hid
    cases locked <;> cases this

/-- What the poll loop pushes are genuine changes exactly if two successive readings of different
sessions always agree. -/
theorem monitor_pushes_genuine_iff {host : Host} {files : FileSystem} {cfg : Config}
    {cfgPath : PathBuf} {privileges : Privileges} {inputs : List MonitoringInput}
    (hrun : Run (step p) (start (.start p host files cfg cfgPath privileges)) inputs s) :
    Each Genuine [] s.history ↔ Each Agrees [] s.history := by
  have h : s.Tracks := hrun.invariant (.start _) fun _ _ _ h _ hnext => h.step hnext
  have hpushed := each_iff.mp h.pushed
  rw [each_iff, each_iff]
  constructor
  · rintro hgenuine before entry after hhistory id locked sent id' locked' rfl hlast hid
    by_contra hdiffer
    have hopposite : locked' = !locked := by
      cases locked <;> cases locked' <;> simp_all
    subst hopposite
    have hsent : sent = true := by
      refine (hpushed before _ after hhistory).mpr ?_
      rw [hlast]
      rfl
    have hread := hgenuine before _ after hhistory hsent
    rw [hlast] at hread
    cases hread
    exact hid rfl
  · intro hagrees before entry after hhistory
    cases entry with
    | read id locked sent =>
        rintro rfl
        exact genuine_read (hpushed before _ after hhistory) (hagrees before _ after hhistory)
    | disarmed id =>
        have hmem := hpushed before _ after hhistory
        obtain ⟨earlier, later, hbefore⟩ := List.append_of_mem hmem
        rw [List.nil_append] at hbefore
        refine ⟨earlier, later, hbefore, ?_⟩
        have hsplit : s.history = earlier ++ .read id false true :: (later ++ .disarmed id :: after) := by
          rw [hhistory, hbefore, List.append_assoc]
          rfl
        exact genuine_read (hpushed earlier _ _ hsplit) (hagrees earlier _ _ hsplit)

/-- One round of the poll loop, in which `loginctl` reports the session to be locked or not. -/
def round (locked : Bool) : List MonitoringInput :=
  [.ask, .answer { Bench.loginctl "c1" with
    showSession := some ⟨true, if locked then "yes" else "no"⟩ }]

theorem monitor_pushes_genuine_iff_one_session :
    ∃ s : Monitoring, .disarmed "3" ∈ s.history ∧ Each Genuine [] s.history := by
  obtain ⟨s, hrun, hhistory⟩ : ∃ s, Run (step Bench.platform)
      (start (Bench.boot (Bench.onSession "3") "c1"))
      (.machine (.control .arm) (Bench.host "c1") :: round true ++ round false ++
        [.deliver (Bench.host "c1")]) s ∧
      s.history = [.read "3" true false, .read "3" false true, .disarmed "3"] :=
    ⟨_, run_get (by decide +kernel), by decide +kernel⟩
  refine ⟨s, by simp [hhistory], (monitor_pushes_genuine_iff hrun).mpr ?_⟩
  rw [hhistory]
  refine ⟨?_, ?_, ?_, trivial⟩
  · rintro id locked sent id' locked' - hlast
    cases hlast
  · rintro id locked sent id' locked' hread hlast hid
    cases hread
    cases hlast
    exact absurd rfl hid
  · rintro id locked sent id' locked' hread
    cases hread

/-- While the guard is armed, `SetConfig` exchanges a locked session for an unlocked one: the poll loop
pushes the difference, and it disarms the guard. -/
theorem session_swap_disarms :
    ¬∀ (p : Platform) (host : Host) (files : FileSystem) (cfg : Config) (cfgPath : PathBuf)
        (privileges : Privileges) (inputs : List MonitoringInput) (s : Monitoring),
      Run (step p) (start (.start p host files cfg cfgPath privileges)) inputs s →
      Each Genuine [] s.history := by
  intro h
  obtain ⟨s, hrun, hhistory⟩ : ∃ s, Run (step Bench.platform)
      (start (Bench.boot (Bench.onSession "3") "c1"))
      (.machine (.control .arm) (Bench.host "c1") :: round true ++
        .machine (.control (.setConfig (Bench.onSession "7"))) (Bench.host "c1") :: round false ++
        [.deliver (Bench.host "c1")]) s ∧
      s.history = [.read "3" true false, .read "7" false true, .disarmed "7"] :=
    ⟨_, run_get (by decide +kernel), by decide +kernel⟩
  have hgenuine := h _ _ _ _ _ _ _ s hrun
  rw [hhistory] at hgenuine
  have hread : some ("3", true) = some ("7", true) := hgenuine.2.1 rfl
  exact absurd hread (by decide)

end Monitoring

end AlertU
