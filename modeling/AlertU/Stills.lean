import AlertU.Bench
import AlertU.Snapshot

/-! The stills of all the alarms of a run. Every alarm spawns a capture, which goes on by itself while
the machine runs; the captures of different alarms interleave call by call. A still goes by the civil
second that its capture has read from the local clock. -/

open FilePath Calls Posix Calendar Runs

namespace AlertU.Stills

open Snapshot Procedure Perms

/-- The capture of one alarm: its configuration, what is left of it, and its trace. -/
structure Shot where
  cfg : Config
  rest : Procedure PathBuf
  trace : Trace

/-- `capture_async`. -/
def captureAsync (cfg : Config) (privileges : Privileges) : Shot :=
  ⟨cfg, capture cfg privileges, ⟨none, []⟩⟩

/-- The next call of a capture, made by a process on the files. -/
def Shot.advance (proc : Process) (s : Kernel) (env : Env) (shot : Shot) : Option (Shot × Kernel) :=
  match shot.rest with
  | .ret _ => none
  | .call k next =>
      let answer := exec proc s k env
      some ({ shot with rest := next answer.1, trace := shot.trace.note k answer.1 }, answer.2)

end AlertU.Stills

namespace AlertU

/-- The machine, the files, and the captures in the order of their alarms. -/
structure Stills where
  daemon : Daemon
  files : Kernel
  shots : List Stills.Shot

namespace Stills

open Snapshot Procedure Perms

inductive Input where
  | machine (wake : Wake) (host : Host)
  | capture (n : ℕ) (env : Env)

/-- The capture that an action of the machine spawns. -/
def spawned : Action → Option Shot
  | .snapshot cfg privileges => some (captureAsync cfg privileges)
  | _ => none

/-- The machine handles a wake-up, or the capture of the `n`-th alarm makes a call. -/
def step (p : Platform) (proc : Process) (s : Stills) : Input → Except Unit Stills
  | .machine wake host =>
      match s.daemon.step p (wake, host) with
      | .error _ => .error ()
      | .ok daemon => .ok { s with
          daemon
          shots := s.shots ++ (daemon.log.drop s.daemon.log.length).filterMap spawned }
  | .capture n env =>
      match s.shots[n]? with
      | none => .error ()
      | some shot =>
          match shot.advance proc s.files env with
          | none => .error ()
          | some (shot, files) => .ok { s with files, shots := s.shots.set n shot }

def start (daemon : Daemon) (files : Kernel) : Stills := ⟨daemon, files, []⟩

/-- The stills of different alarms are written to different paths. -/
def Distinct (s : Stills) : Prop :=
  ∀ (n m : ℕ) (a b : Shot), n ≠ m → s.shots[n]? = some a → s.shots[m]? = some b →
    ∀ path ∈ a.trace.written, ∀ other ∈ b.trace.written, path.same other = false

/-- The still that a step writes, by its number. -/
def writes (proc : Process) (s : Stills) : Input → Option (ℕ × Shot)
  | .machine _ _ => none
  | .capture n env =>
      match s.shots[n]? with
      | none => none
      | some shot =>
          match shot.rest with
          | .call (.create path) _ =>
              if (exec proc s.files (.create path) env).1 = .ok () then some (n, shot) else none
          | _ => none

/-- No still is written in the directory and with the civil second of one that is. -/
def OwnSecond (proc : Process) (s : Stills) (input : Input) : Prop :=
  ∀ n shot, s.writes proc input = some (n, shot) → ∀ m other, n ≠ m → s.shots[m]? = some other →
    other.trace.written ≠ [] → shot.cfg.snapshotDir.same other.cfg.snapshotDir →
      shot.trace.clock ≠ other.trace.clock

/-! ### One capture -/

/-- Every file that was written is named after the time that was read. -/
def Dated (cfg : Config) (t : Trace) : Prop :=
  ∀ path ∈ t.written, ∃ now, t.clock = some now ∧ path = outPath cfg now

variable {cfg : Config} {privileges : Privileges} {now : Tm}

/-- The tool writes one file at most, the one it is given. -/
theorem always_output_dated (prog : String) (args : List String) :
    Always (anything Trace.note) (Dated cfg)
      (fun _ t => t.clock = some now ∧ Dated cfg t) (output prog args (outPath cfg now))
      ⟨some now, []⟩ := by
  have hempty : Dated cfg ⟨some now, []⟩ := fun path hpath => by cases hpath
  refine always_andThen.mpr ((always_unnoted (unnoted_spawn prog args) hempty).mono (fun _ h => h) ?_)
  rintro (e | _) t rfl
  · exact ⟨rfl, hempty⟩
  · refine always_andThen.mpr (always_tell.mpr (always_anything_call.mpr ⟨hempty, fun r => ?_⟩))
    have hdated : Dated cfg (Trace.note ⟨some now, []⟩ (.create (outPath cfg now)) r) := by
      cases r with
      | error e => exact hempty
      | ok _ =>
          intro path hpath
          obtain rfl := List.mem_singleton.mp hpath
          exact ⟨now, rfl, rfl⟩
    have hclock : (Trace.note ⟨some now, []⟩ (.create (outPath cfg now)) r).clock = some now := by
      cases r <;> rfl
    refine ⟨hdated, (always_unnoted unnoted_wait hdated).mono (fun _ h => h) ?_⟩
    rintro _ t rfl
    exact ⟨hclock, hdated⟩

theorem always_runCaptureTool_dated :
    Always (anything Trace.note) (Dated cfg) (fun _ t => t.clock = some now ∧ Dated cfg t)
      (runCaptureTool cfg (outPath cfg now)) ⟨some now, []⟩ := by
  have hempty : Dated cfg ⟨some now, []⟩ := fun path hpath => by cases hpath
  refine always_andThen.mpr (always_tell.mpr (always_anything_call.mpr ⟨hempty, fun r => ⟨hempty, ?_⟩⟩))
  cases r with
  | true => exact always_output_dated _ _
  | false =>
      refine always_andThen.mpr (always_tell.mpr
        (always_anything_call.mpr ⟨hempty, fun r => ⟨hempty, ?_⟩⟩))
      cases r with
      | true => exact always_output_dated _ _
      | false => exact ⟨hempty, rfl, hempty⟩

/-- A capture writes under the name of the time that it reads, and under no other. -/
theorem capture_dated (cfg : Config) (privileges : Privileges) :
    Always (anything Trace.note) (Dated cfg) (fun _ _ => True) (capture cfg privileges) ⟨none, []⟩ := by
  have hempty : ∀ clock, Dated cfg ⟨clock, []⟩ := fun clock path hpath => by cases hpath
  refine always_andThen.mpr (always_mapError.mpr
    ((always_unnoted (unnoted_secureDir _ _) (hempty none)).mono (fun _ h => h) ?_))
  rintro (e | _) t rfl
  · trivial
  refine always_andThen.mpr (always_tell.mpr (always_anything_call.mpr ⟨hempty none, fun now => ?_⟩))
  refine ⟨hempty (some now), always_andThen.mpr
    (always_runCaptureTool_dated.mono (fun _ h => h) ?_)⟩
  rintro (e | result) t ⟨hclock, hdated⟩
  · trivial
  show Always _ _ _ (if result.1 = true then _ else _) t
  split_ifs
  · refine always_andThen.mpr (always_mapError.mpr
      ((always_unnoted (unnoted_secureCapturedFile _ _) hdated).mono (fun _ h => h) ?_))
    rintro (e | _) t' rfl
    · trivial
    · exact ⟨hdated, trivial⟩
  · exact ⟨hdated, trivial⟩

/-! ### All captures -/

/-- The capture writes under the name of the time that it reads, whatever it has done so far. -/
def Following (shot : Shot) : Prop :=
  Always (anything Trace.note) (Dated shot.cfg) (fun _ _ => True) shot.rest shot.trace

def AllFollowing (s : Stills) : Prop := ∀ shot ∈ s.shots, Following shot

variable {p : Platform} {proc : Process} {s next : Stills} {input : Input}

/-- What a step does: the machine spawns captures that have written nothing, or a capture goes on. -/
theorem step_cases (h : s.step p proc input = .ok next) :
    (∃ wake host daemon new, input = .machine wake host ∧
      next = { s with daemon, shots := s.shots ++ new } ∧
      ∀ shot ∈ new, ∃ cfg privileges, shot = captureAsync cfg privileges) ∨
    ∃ n env shot shot' files, input = .capture n env ∧ s.shots[n]? = some shot ∧
      shot.advance proc s.files env = some (shot', files) ∧
      next = { s with files, shots := s.shots.set n shot' } := by
  cases input with
  | machine wake host =>
      simp only [step] at h
      cases hdaemon : s.daemon.step p (wake, host) with
      | error e =>
          rw [hdaemon] at h
          cases h
      | ok daemon =>
          rw [hdaemon] at h
          cases h
          refine .inl ⟨wake, host, daemon, _, rfl, rfl, fun shot hshot => ?_⟩
          obtain ⟨action, -, hspawned⟩ := List.mem_filterMap.mp hshot
          cases action <;> cases hspawned
          exact ⟨_, _, rfl⟩
  | capture n env =>
      simp only [step] at h
      cases hshot : s.shots[n]? with
      | none =>
          rw [hshot] at h
          cases h
      | some shot =>
          rw [hshot] at h
          cases hadvance : shot.advance proc s.files env with
          | none =>
              simp only [hadvance] at h
              cases h
          | some result =>
              simp only [hadvance] at h
              cases h
              exact .inr ⟨n, env, shot, result.1, result.2, rfl, hshot, hadvance, rfl⟩

theorem advance_following {files files' : Kernel} {env : Env} {shot shot' : Shot}
    (hfollowing : Following shot) (h : shot.advance proc files env = some (shot', files')) :
    Following shot' := by
  unfold Shot.advance at h
  cases hrest : shot.rest with
  | ret a =>
      rw [hrest] at h
      cases h
  | call k rest =>
      rw [hrest] at h
      cases h
      rw [Following, hrest] at hfollowing
      exact (always_anything_call.mp hfollowing).2 _

theorem allFollowing_step (hinv : s.AllFollowing) (h : s.step p proc input = .ok next) :
    next.AllFollowing := by
  rcases step_cases h with ⟨wake, host, daemon, new, -, rfl, hnew⟩ |
    ⟨n, env, shot, shot', files, -, hshot, hadvance, rfl⟩
  · intro shot hshot
    rcases List.mem_append.mp hshot with hshot | hshot
    · exact hinv shot hshot
    · obtain ⟨cfg, privileges, rfl⟩ := hnew shot hshot
      exact capture_dated cfg privileges
  · intro other hother
    rcases List.mem_or_eq_of_mem_set hother with hother | rfl
    · exact hinv other hother
    · exact advance_following (hinv shot (List.mem_of_getElem? hshot)) hadvance

/-- A call of a capture writes its still, or no file at all. -/
theorem advance_written {n : ℕ} {env : Env} {shot shot' : Shot} {files : Kernel}
    (hshot : s.shots[n]? = some shot) (h : shot.advance proc s.files env = some (shot', files)) :
    shot'.cfg = shot.cfg ∧
    ((s.writes proc (.capture n env) = none ∧ shot'.trace.written = shot.trace.written) ∨
      ∃ path, s.writes proc (.capture n env) = some (n, shot) ∧
        shot'.trace = { shot.trace with written := shot.trace.written ++ [path] }) := by
  unfold Shot.advance at h
  cases hrest : shot.rest with
  | ret a =>
      rw [hrest] at h
      cases h
  | call k next =>
      rw [hrest] at h
      cases h
      refine ⟨rfl, ?_⟩
      cases k with
      | create path =>
          simp only [writes, hshot, hrest]
          cases hcreated : (exec proc s.files (.create path) env).1 with
          | error e => exact .inl ⟨if_neg (by simp), by simp only [Trace.note]⟩
          | ok _ => exact .inr ⟨path, if_pos rfl, by simp only [Trace.note]⟩
      | _ => exact .inl ⟨by simp only [writes, hshot, hrest], by simp only [Trace.note]⟩

/-- New captures have written nothing, so they make no difference. -/
theorem distinct_spawn {daemon : Daemon} {new : List Shot}
    (hnew : ∀ shot ∈ new, ∃ cfg privileges, shot = captureAsync cfg privileges) (h : s.Distinct) :
    Distinct { s with daemon, shots := s.shots ++ new } := by
  have hold : ∀ {n : ℕ} {shot : Shot} {path : PathBuf}, (s.shots ++ new)[n]? = some shot →
      path ∈ shot.trace.written → s.shots[n]? = some shot := by
    intro n shot path hshot hpath
    by_cases hn : n < s.shots.length
    · rwa [List.getElem?_append_left hn] at hshot
    · rw [List.getElem?_append_right (Nat.le_of_not_lt hn)] at hshot
      obtain ⟨cfg, privileges, rfl⟩ := hnew shot (List.mem_of_getElem? hshot)
      cases hpath
  intro n m a b hne ha hb path hpath other hother
  exact h n m a b hne (hold ha hpath) (hold hb hother) path hpath other hother

/-- A call of the `n`-th capture keeps the stills distinct if what it writes, if anything, is distinct
from the stills of the others. -/
theorem distinct_set {files : Kernel} {n : ℕ} {shot shot' : Shot} {new : List PathBuf}
    (hshot : s.shots[n]? = some shot) (hwritten : shot'.trace.written = shot.trace.written ++ new)
    (h : s.Distinct) :
    Distinct { s with files, shots := s.shots.set n shot' } ↔
      ∀ (m : ℕ) (other : Shot), n ≠ m → s.shots[m]? = some other →
        ∀ path ∈ new, ∀ q ∈ other.trace.written, path.same q = false := by
  have hlt : n < s.shots.length := (List.getElem?_eq_some_iff.mp hshot).1
  have hself : (s.shots.set n shot')[n]? = some shot' := List.getElem?_set_self hlt
  constructor
  · intro hnext m other hne hother path hpath q hq
    refine hnext n m shot' other hne hself ?_ path ?_ q hq
    · show (s.shots.set n shot')[m]? = some other
      rwa [List.getElem?_set_ne hne]
    · rw [hwritten]
      exact List.mem_append_right _ hpath
  · intro hnew
    -- the `n`-th capture against another
    have hone : ∀ (m : ℕ) (other : Shot), n ≠ m → s.shots[m]? = some other →
        ∀ path ∈ shot'.trace.written, ∀ q ∈ other.trace.written, path.same q = false := by
      intro m other hne hother path hpath q hq
      rw [hwritten] at hpath
      rcases List.mem_append.mp hpath with hpath | hpath
      · exact h n m shot other hne hshot hother path hpath q hq
      · exact hnew m other hne hother path hpath q hq
    intro i j a b hne ha hb path hpath q hq
    rcases getElem?_set_cases ha with ⟨rfl, rfl⟩ | ⟨-, hi⟩
    · rcases getElem?_set_cases hb with ⟨rfl, -⟩ | ⟨-, hj⟩
      · exact absurd rfl hne
      · exact hone j b hne hj path hpath q hq
    · rcases getElem?_set_cases hb with ⟨rfl, rfl⟩ | ⟨-, hj⟩
      · rw [same_comm]
        exact hone i a hne.symm hi q hq path hpath
      · exact h i j a b hne hi hj path hpath q hq

/-- A step keeps the stills distinct exactly if the still that it writes has its civil second to itself,
in its directory. -/
theorem ownSecond_iff (hinv : s.AllFollowing) (hdistinct : s.Distinct)
    (h : s.step p proc input = .ok next) : s.OwnSecond proc input ↔ next.Distinct := by
  have hinv' := allFollowing_step hinv h
  rcases step_cases h with ⟨wake, host, daemon, new, rfl, rfl, hnew⟩ |
    ⟨n, env, shot, shot', files, rfl, hshot, hadvance, rfl⟩
  · exact iff_of_true (fun n shot hwrites => by cases hwrites) (distinct_spawn hnew hdistinct)
  · have hlt : n < s.shots.length := (List.getElem?_eq_some_iff.mp hshot).1
    have hmem : shot' ∈ s.shots.set n shot' := List.mem_of_getElem? (List.getElem?_set_self hlt)
    obtain ⟨hcfg, ⟨hwrites, hwritten⟩ | ⟨path, hwrites, htrace⟩⟩ := advance_written hshot hadvance
    · rw [@distinct_set s files n shot shot' [] hshot (by rw [hwritten, List.append_nil]) hdistinct]
      refine iff_of_true (fun n' other hother => ?_) fun m other _ _ path hpath => by cases hpath
      rw [hwrites] at hother
      cases hother
    · rw [@distinct_set s files n shot shot' [path] hshot (by rw [htrace]) hdistinct]
      have hpath : ∃ now, shot.trace.clock = some now ∧ path = outPath shot.cfg now := by
        have hdated : Dated shot'.cfg shot'.trace := (hinv' shot' hmem).holds
        have := hdated path (by rw [htrace]; exact List.mem_append_right _ (List.mem_singleton_self _))
        rwa [htrace, hcfg] at this
      obtain ⟨now, hclock, rfl⟩ := hpath
      have hothers : ∀ {m : ℕ} {other : Shot} {q : PathBuf}, s.shots[m]? = some other →
          q ∈ other.trace.written → ∃ now', other.trace.clock = some now' ∧
            q = outPath other.cfg now' := fun {m other q} hother hq =>
        (hinv other (List.mem_of_getElem? hother)).holds q hq
      constructor
      · intro hguard m other hne hother path hpath q hq
        obtain rfl := List.mem_singleton.mp hpath
        obtain ⟨now', hclock', rfl⟩ := hothers hother hq
        cases hsame : (outPath shot.cfg now).same (outPath other.cfg now') with
        | false => rfl
        | true =>
            obtain ⟨hdir, rfl⟩ := outPath_same_iff.mp hsame
            have := hguard n shot hwrites m other hne hother (List.ne_nil_of_mem hq) hdir
            exact absurd (hclock.trans hclock'.symm) this
      · intro hnew n' shot'' hwrites' m other hne hother hnonempty hdir hclocks
        cases hwrites.symm.trans hwrites'
        obtain ⟨q, hq⟩ := List.exists_mem_of_ne_nil _ hnonempty
        obtain ⟨now', hclock', rfl⟩ := hothers hother hq
        have hnow : now = now' := by
          rw [hclock, hclock'] at hclocks
          exact Option.some.inj hclocks
        have := hnew m other hne hother _ (List.mem_singleton_self _) _ hq
        rw [outPath_same_iff.mpr ⟨hdir, hnow⟩] at this
        cases this

theorem allFollowing_start (daemon : Daemon) (files : Kernel) : (start daemon files).AllFollowing :=
  fun _ hshot => by cases hshot

theorem distinct_start (daemon : Daemon) (files : Kernel) : (start daemon files).Distinct :=
  fun _ _ _ _ _ hshot => by cases hshot

/-- In every run of the daemon, with any number of alarms, any local clock and any order of the captures:
no still is written over another alarm's, as long as each still that is written has its civil second to
itself in its directory, and only that long. -/
theorem stills_distinct_iff {host : Host} {configFiles : FileSystem} {cfg : Config} {cfgPath : PathBuf}
    {privileges : Privileges} {files : Kernel} {inputs : List Input}
    (hrun : Run (step p proc) (start (.start p host configFiles cfg cfgPath privileges) files) inputs s) :
    RunIf (step p proc) (OwnSecond proc) (start (.start p host configFiles cfg cfgPath privileges) files)
        inputs s ↔
      Throughout (step p proc) (start (.start p host configFiles cfg cfgPath privileges) files) inputs
        Distinct :=
  runIf_iff_throughout (allFollowing_start _ _) (distinct_start _ _)
    (fun _ _ _ hinv h => allFollowing_step hinv h)
    (fun _ _ _ hinv hdistinct h => ownSecond_iff hinv hdistinct h) hrun

section Bench

def usualDaemon : Process := ⟨1000, 1000, [], 0o022⟩

/-- Two alarms with a disarming in between, and then the first nine calls of both captures, the clock
saying the same. -/
def twoAlarms : List Input :=
  (Bench.escalation ++ (.control .disarm, Bench.host "c1") :: Bench.escalation).map
      (fun wake => .machine wake.1 wake.2) ++
    List.replicate 9 (.capture 0 ⟨none, true, turnBack, ""⟩) ++
    List.replicate 9 (.capture 1 ⟨none, true, turnBack, ""⟩)

def noFiles : Kernel := ⟨fun _ => none, 0, []⟩

/-- Both alarms have written the same file. -/
theorem twoAlarms_run : ∃ s,
    Run (step Bench.platform usualDaemon) (start (Bench.boot Bench.prompt "c1") noFiles) twoAlarms s ∧
    ¬s.Distinct := by
  let still : PathBuf := ⟨"/var/lib/alertu/snapshots/alertu-20241027-023000.jpg"⟩
  obtain ⟨s, hrun, hfirst, hsecond⟩ : ∃ s,
      Run (step Bench.platform usualDaemon) (start (Bench.boot Bench.prompt "c1") noFiles)
        twoAlarms s ∧
      s.shots[0]?.map (fun shot => shot.trace.written) = some [still] ∧
      s.shots[1]?.map (fun shot => shot.trace.written) = some [still] :=
    ⟨_, run_get (by decide +kernel), by decide +kernel, by decide +kernel⟩
  obtain ⟨a, ha, hwritten⟩ := Option.map_eq_some_iff.mp hfirst
  obtain ⟨b, hb, hwritten'⟩ := Option.map_eq_some_iff.mp hsecond
  refine ⟨s, hrun, fun hdistinct => ?_⟩
  have := hdistinct 0 1 a b (by decide) ha hb still (by rw [hwritten]; exact List.mem_singleton_self _)
    still (by rw [hwritten']; exact List.mem_singleton_self _)
  rw [same_self] at this
  cases this

theorem stills_distinct_iff_twice : ∃ s,
    Run (step Bench.platform usualDaemon) (start (Bench.boot Bench.prompt "c1") noFiles) twoAlarms s ∧
    ¬RunIf (step Bench.platform usualDaemon) (OwnSecond usualDaemon)
      (start (Bench.boot Bench.prompt "c1") noFiles) twoAlarms s := by
  obtain ⟨s, hrun, hnot⟩ := twoAlarms_run
  exact ⟨s, hrun, fun hguarded => hnot (((stills_distinct_iff hrun).mp hguarded).last hrun)⟩

/-- Two alarms within one second of local time, or in the hour that comes twice: the later still replaces
the earlier one. -/
theorem stills_overwritten : ¬∀ (p : Platform) (proc : Process) (host : Host) (configFiles : FileSystem)
    (cfg : Config) (cfgPath : PathBuf) (privileges : Privileges) (files : Kernel) (inputs : List Input)
    (s : Stills),
      Run (step p proc) (start (.start p host configFiles cfg cfgPath privileges) files) inputs s →
      s.Distinct := by
  intro h
  obtain ⟨s, hrun, hnot⟩ := twoAlarms_run
  exact hnot (h _ _ _ _ _ _ _ _ _ s hrun)

end Bench

end Stills

end AlertU
