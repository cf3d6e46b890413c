import AlertU.Logs
import AlertU.Retry
import AlertU.SirenRace

/-! How long a siren goes on. Along any run of the sirens, what each siren task goes through is noted: the
players that it spawns and how they end, its pauses, and what makes it end itself. -/

open FilePath Logs Retry Runs

namespace AlertU

/-- What a siren task goes through. `told` is the stop flag, or the notification. -/
inductive SirenEvent where
  | spawned
  | played (success : Bool)
  | rested
  | unspawnable
  | unwaitable
  | told
  deriving DecidableEq, Repr

namespace SirenEvent

def isFailure : SirenEvent → Bool
  | .played success => !success
  | _ => false

def isSuccess : SirenEvent → Bool
  | .played success => success
  | _ => false

/-- The task ends itself. -/
def isEnd : SirenEvent → Bool
  | .unspawnable | .unwaitable | .told => true
  | _ => false

end SirenEvent

/-- The failures since a player last came to its end. -/
def failuresInARow (events : List SirenEvent) : ℕ := count (·.isFailure) (·.isSuccess) events

/-- The task may go on to the next player: it has not ended, has not failed too often in a row, and has
rested after a failure. -/
structure MaySpawn (events : List SirenEvent) : Prop where
  goesOn : ∀ e ∈ events, e.isEnd = false
  few : failuresInARow events < SIREN_MAX_FAILURES
  rested : events.getLast? ≠ some (.played false)

/-- Why the task has ended itself. -/
def HasEnded (events : List SirenEvent) : Prop :=
  (∃ e ∈ events, e.isEnd) ∨ failuresInARow events = SIREN_MAX_FAILURES

variable {events : List SirenEvent}

/-- What the task has gone through when it is at a point. -/
def Point.Fits (events : List SirenEvent) : Point → Prop
  | .head failures | .spawning failures => failures = failuresInARow events ∧ MaySpawn events
  | .launched _ failures | .waiting _ failures _ | .retrying failures =>
      failures = failuresInARow events ∧ failures < SIREN_MAX_FAILURES ∧ ∀ e ∈ events, e.isEnd = false
  | .draining failures =>
      failures = failuresInARow events ∧ failures ≤ SIREN_MAX_FAILURES ∧
        ∀ e ∈ events, e.isEnd = false
  | .killing _ | .reaping _ => ∃ e ∈ events, e.isEnd
  | .finished => HasEnded events
  | .dropped => True

namespace SirenTask

/-- What the task goes through in a move. -/
def event (task : SirenTask) (status : ℕ → Option PlayerStatus) : Move → Option SirenEvent
  | .loadStop => if task.stop then some .told else none
  | .spawn ok => some (if ok then .spawned else .unspawnable)
  | .childExited =>
      match task.point.holds.bind status with
      | some (.exited success) => some (.played success)
      | _ => none
  | .waitFailed => some .unwaitable
  | .notified => some .told
  | .retried => some .rested
  | _ => none

variable {task next : SirenTask} {status : ℕ → Option PlayerStatus} {fresh : ℕ}

theorem goesOn_concat {e : SirenEvent} (h : ∀ e ∈ events, e.isEnd = false) (he : e.isEnd = false) :
    ∀ e' ∈ events ++ [e], e'.isEnd = false :=
  List.forall_mem_append.mpr ⟨h, List.forall_mem_singleton.mpr he⟩

theorem end_concat {e : SirenEvent} (he : e.isEnd) : ∃ e' ∈ events ++ [e], e'.isEnd :=
  ⟨e, List.mem_append_right _ (List.mem_singleton_self e), he⟩

/-! What each event of the task makes of where it stands. -/

section Fits

variable {failures child : ℕ}

theorem fits_spawned (h : (Point.spawning failures).Fits events) :
    (Point.launched child failures).Fits (events ++ [.spawned]) := by
  obtain ⟨hcount, hmay⟩ := h
  refine ⟨?_, hcount ▸ hmay.few, goesOn_concat hmay.goesOn rfl⟩
  rw [hcount]
  exact (count_of_neg rfl rfl).symm

theorem fits_succeeded {flag : Bool} (h : (Point.waiting child failures flag).Fits events) :
    (Point.head 0).Fits (events ++ [.played true]) := by
  obtain ⟨-, -, hgoes⟩ := h
  refine ⟨(count_of_reset rfl).symm, goesOn_concat hgoes rfl, ?_, by simp⟩
  rw [failuresInARow, count_of_reset rfl]
  decide

theorem fits_failed {flag : Bool} (h : (Point.waiting child failures flag).Fits events) :
    (Point.draining (failures + 1)).Fits (events ++ [.played false]) := by
  obtain ⟨hcount, hfew, hgoes⟩ := h
  refine ⟨?_, hfew, goesOn_concat hgoes rfl⟩
  rw [hcount]
  exact (count_of_pos rfl rfl).symm

theorem fits_drained (h : (Point.draining failures).Fits events) :
    (if SIREN_MAX_FAILURES ≤ failures then Point.finished else .retrying failures).Fits events := by
  obtain ⟨hcount, hle, hgoes⟩ := h
  split
  · rename_i hmany
    exact .inr (hcount ▸ Nat.le_antisymm hle hmany)
  · rename_i hfew
    exact ⟨hcount, Nat.lt_of_not_le hfew, hgoes⟩

theorem fits_rested (h : (Point.retrying failures).Fits events) :
    (Point.head failures).Fits (events ++ [.rested]) := by
  obtain ⟨hcount, hfew, hgoes⟩ := h
  have hsame : failuresInARow (events ++ [.rested]) = failuresInARow events := count_of_neg rfl rfl
  refine ⟨hcount.trans hsame.symm, goesOn_concat hgoes rfl, ?_, by simp⟩
  rw [hsame, ← hcount]
  exact hfew

end Fits

theorem advance_fits {m : Move} {point : Point} (hfits : task.point.Fits events)
    (h : task.advance status fresh m = some point) :
    point.Fits (events ++ (task.event status m).toList) := by
  cases m with
  | poll | suspend | drop => cases h
  | loadStop =>
      simp only [advance] at h
      split at h
      · rename_i failures hpoint
        rw [hpoint] at hfits
        cases h
        cases hstop : task.stop with
        | true =>
            simp only [event, hstop, if_true, Option.toList_some]
            exact .inl (end_concat rfl)
        | false =>
            simp only [event, hstop, Bool.false_eq_true, if_false, Option.toList_none, List.append_nil]
            exact hfits
      · cases h
  | spawn ok =>
      simp only [advance] at h
      split at h
      · rename_i hpoint
        rw [hpoint] at hfits
        cases h
        cases ok with
        | true => exact fits_spawned hfits
        | false => exact .inl (end_concat rfl)
      · cases h
  | childExited =>
      simp only [advance] at h
      split at h
      · rename_i child failures _ hpoint
        rw [hpoint] at hfits
        have hholds : task.point.holds = some child := by rw [hpoint]; rfl
        split at h
        · rename_i hstatus
          cases h
          simp only [event, hholds, Option.bind_some, hstatus, Option.toList_some]
          exact fits_succeeded hfits
        · rename_i hstatus
          cases h
          simp only [event, hholds, Option.bind_some, hstatus, Option.toList_some]
          exact fits_failed hfits
        · cases h
      · cases h
  | waitFailed =>
      simp only [advance] at h
      split at h
      · cases h
        exact .inl (end_concat rfl)
      · cases h
  | notified =>
      simp only [advance] at h
      split at h
      · cases h
        exact end_concat rfl
      · cases h
  | retried =>
      simp only [advance] at h
      split at h
      · rename_i hpoint
        rw [hpoint] at hfits
        cases h
        exact fits_rested hfits
      · cases h
  | select | kill =>
      simp only [advance] at h
      split at h
      · rename_i hpoint
        rw [hpoint] at hfits
        cases h
        simp only [event, Option.toList_none, List.append_nil]
        exact hfits
      · cases h
  | drained =>
      simp only [advance] at h
      split at h
      · rename_i hpoint
        rw [hpoint] at hfits
        cases h
        simp only [event, Option.toList_none, List.append_nil]
        exact fits_drained hfits
      · cases h
  | reaped =>
      simp only [advance] at h
      split at h
      · rename_i hpoint
        rw [hpoint] at hfits
        cases h
        simp only [event, Option.toList_none, List.append_nil]
        exact .inl hfits
      · cases h

/-- What the task has gone through after a move; it spawns a player only when it may. -/
theorem move_fits {m : Move} (hfits : task.point.Fits events)
    (h : task.move status fresh m = some next) :
    next.point.Fits (events ++ (task.event status m).toList) ∧
      (task.event status m = some .spawned → MaySpawn events) := by
  have hbody (h : (if task.polled then (task.advance status fresh m).map fun point =>
      { task with point } else none) = some next) :
      next.point.Fits (events ++ (task.event status m).toList) := by
    split_ifs at h
    obtain ⟨point, hpoint, rfl⟩ := Option.map_eq_some_iff.mp h
    exact advance_fits hfits hpoint
  cases m with
  | poll | suspend =>
      simp only [move] at h
      split_ifs at h
      cases h
      exact ⟨by simpa [event] using hfits, fun hspawned => by cases hspawned⟩
  | drop =>
      simp only [move] at h
      split_ifs at h
      cases h
      exact ⟨trivial, fun hspawned => by cases hspawned⟩
  | spawn ok =>
      refine ⟨hbody h, fun _ => ?_⟩
      simp only [move] at h
      split_ifs at h
      obtain ⟨point, hpoint, _⟩ := Option.map_eq_some_iff.mp h
      simp only [advance] at hpoint
      split at hpoint
      · rename_i hspawning
        rw [hspawning] at hfits
        exact hfits.2
      · cases hpoint
  | loadStop =>
      refine ⟨hbody h, fun hspawned => ?_⟩
      simp only [event] at hspawned
      split_ifs at hspawned
      cases hspawned
  | childExited =>
      refine ⟨hbody h, fun hspawned => ?_⟩
      simp only [event] at hspawned
      split at hspawned <;> cases hspawned
  | select | waitFailed | notified | drained | retried | kill | reaped =>
      exact ⟨hbody h, fun hspawned => by cases hspawned⟩

end SirenTask

/-- The sirens, and what their tasks have gone through. -/
structure SirenLog where
  sirens : Sirens
  log : List (ℕ × SirenEvent)

/-- What an input has some task go through. -/
def Sirens.event (s : Sirens) : SirenInput → Option (ℕ × SirenEvent)
  | .move id m => (s.tasks id).bind fun task => (task.event s.status m).map (id, ·)
  | _ => none

/-- What the task `id` has gone through. -/
def eventsOf (id : ℕ) (log : List (ℕ × SirenEvent)) : List SirenEvent :=
  (log.filter (·.1 = id)).map (·.2)

namespace SirenLog

def start (programs : Programs) (cfg : Config) : SirenLog := ⟨.start programs cfg, []⟩

def step (r : SirenLog) (input : SirenInput) : Except Unit SirenLog :=
  (r.sirens.step input).map fun sirens => ⟨sirens, r.log ++ (r.sirens.event input).toList⟩

/-- Every player is spawned by a task that may spawn one. -/
def Restrained (log : List (ℕ × SirenEvent)) : Prop :=
  Each (fun before e _ => e.2 = .spawned → MaySpawn (eventsOf e.1 before)) [] log

/-- The tasks stand where they should after what they have gone through. -/
structure Counting (r : SirenLog) : Prop where
  restrained : Restrained r.log
  fits : ∀ id task, r.sirens.tasks id = some task → task.point.Fits (eventsOf id r.log)
  unspawned : ∀ id, r.sirens.tasks id = none → eventsOf id r.log = []
  fresh : ∀ id, r.sirens.nextTask ≤ id → r.sirens.tasks id = none
  starting : ∀ id command, r.sirens.starting = some (id, command) →
    r.sirens.tasks id = none ∧ id < r.sirens.nextTask

variable {r r' : SirenLog}

theorem Counting.start (programs : Programs) (cfg : Config) : (SirenLog.start programs cfg).Counting :=
  ⟨trivial, nofun, fun _ _ => rfl, fun _ _ => rfl, nofun⟩

/-- A step that changes no task but in its flags. -/
theorem Counting.flagged (h : r.Counting) {sirens : Sirens}
    (hfits : ∀ id task, sirens.tasks id = some task → ∃ before, r.sirens.tasks id = some before ∧
      ∀ events, before.point.Fits events → task.point.Fits events)
    (hnone : ∀ id, sirens.tasks id = none ↔ r.sirens.tasks id = none)
    (hnext : r.sirens.nextTask ≤ sirens.nextTask)
    (hstarting : ∀ id command, sirens.starting = some (id, command) →
      r.sirens.tasks id = none ∧ id < sirens.nextTask) : Counting ⟨sirens, r.log ++ []⟩ := by
  rw [List.append_nil]
  refine ⟨h.restrained, fun id task htask => ?_, fun id hid => h.unspawned id ((hnone id).mp hid),
    fun id hid => (hnone id).mpr (h.fresh id (hnext.trans hid)), fun id command hcommand => ?_⟩
  · obtain ⟨before, hbefore, hkeeps⟩ := hfits id task htask
    exact hkeeps _ (h.fits id before hbefore)
  · obtain ⟨hid, hlt⟩ := hstarting id command hcommand
    exact ⟨(hnone id).mpr hid, hlt⟩

theorem fits_notifyWaiters {task : SirenTask} (h : task.point.Fits events) :
    task.notifyWaiters.point.Fits events := by
  unfold SirenTask.notifyWaiters
  split
  · rename_i hpoint
    rw [hpoint] at h
    exact h
  · exact h

/-- A step that leaves the tasks alone. -/
theorem Counting.same (h : r.Counting) {sirens : Sirens} (htasks : sirens.tasks = r.sirens.tasks)
    (hnext : r.sirens.nextTask ≤ sirens.nextTask)
    (hstarting : ∀ id command, sirens.starting = some (id, command) →
      r.sirens.tasks id = none ∧ id < sirens.nextTask) : Counting ⟨sirens, r.log ++ []⟩ := by
  refine h.flagged (fun id task htask => ?_) (fun id => by rw [htasks]) hnext hstarting
  exact ⟨task, htasks ▸ htask, fun _ hfits => hfits⟩

/-- A flag of one task is set. -/
theorem Counting.signal (h : r.Counting) {id : ℕ} {f : SirenTask → SirenTask}
    (hf : ∀ task events, task.point.Fits events → (f task).point.Fits events)
    (stopping : Option (ℕ × StopCall)) :
    Counting ⟨{ r.sirens.withTask id f with stopping }, r.log ++ []⟩ := by
  refine h.flagged (fun id' task htask => ?_) (fun _ => Sirens.withTask_eq_none) le_rfl h.starting
  rcases Sirens.withTask_eq_some.mp htask with ⟨rfl, before, hbefore, rfl⟩ | ⟨_, hbefore⟩
  · exact ⟨before, hbefore, hf before⟩
  · exact ⟨task, hbefore, fun _ hfits => hfits⟩

theorem setTask_eq_none {s : Sirens} {id id' : ℕ} {task : SirenTask} :
    (s.setTask id task).tasks id' = none ↔ id' ≠ id ∧ s.tasks id' = none := by
  simp only [Sirens.setTask, Function.update_apply]
  split_ifs with hid <;> simp [hid]

/-- A new task has gone through nothing. -/
theorem Counting.spawn (h : r.Counting) {id : ℕ} {command : Command}
    (hstarting : r.sirens.starting = some (id, command)) :
    Counting ⟨{ r.sirens.setTask id (.new command) with starting := none }, r.log ++ []⟩ := by
  obtain ⟨hnone, hlt⟩ := h.starting id command hstarting
  rw [List.append_nil]
  refine ⟨h.restrained, fun id' task htask => ?_, fun id' hid' => ?_, fun id' hid' => ?_, nofun⟩
  · rcases Sirens.setTask_eq_some.mp htask with ⟨rfl, rfl⟩ | ⟨_, hold⟩
    · rw [h.unspawned _ hnone]
      exact ⟨rfl, nofun, by decide, nofun⟩
    · exact h.fits id' task hold
  · exact h.unspawned id' (setTask_eq_none.mp hid').2
  · refine setTask_eq_none.mpr ⟨?_, h.fresh id' hid'⟩
    rintro rfl
    exact Nat.not_lt.mpr hid' hlt

theorem eventsOf_append (id : ℕ) (log more : List (ℕ × SirenEvent)) :
    eventsOf id (log ++ more) = eventsOf id log ++ eventsOf id more := by
  rw [eventsOf, List.filter_append, List.map_append]
  rfl

theorem eventsOf_self (id : ℕ) (event : Option SirenEvent) :
    eventsOf id (event.map (id, ·)).toList = event.toList := by
  cases event <;> simp [eventsOf]

theorem eventsOf_other {id id' : ℕ} (h : id' ≠ id) (event : Option SirenEvent) :
    eventsOf id' (event.map (id, ·)).toList = [] := by
  cases event <;> simp [eventsOf, Ne.symm h]

/-- A task moves. -/
theorem Counting.move (h : r.Counting) {id : ℕ} {m : Move} {task next : SirenTask}
    (htask : r.sirens.tasks id = some task)
    (hmove : task.move r.sirens.status r.sirens.nextPlayer m = some next) {sirens : Sirens}
    (htasks : sirens.tasks = r.sirens.tasks) (hnext : sirens.nextTask = r.sirens.nextTask)
    (hstarting : sirens.starting = r.sirens.starting) :
    Counting ⟨sirens.setTask id next,
      r.log ++ ((task.event r.sirens.status m).map (id, ·)).toList⟩ := by
  obtain ⟨hfits, hspawned⟩ := SirenTask.move_fits (h.fits id task htask) hmove
  have hsame {id' : ℕ} (hid' : r.sirens.tasks id' = none) :
      (sirens.setTask id next).tasks id' = none := by
    refine setTask_eq_none.mpr ⟨?_, htasks ▸ hid'⟩
    rintro rfl
    rw [htask] at hid'
    cases hid'
  refine ⟨?_, fun id' t ht => ?_, fun id' hid' => ?_, fun id' hid' => ?_, fun id' command hcommand => ?_⟩
  · cases hevent : task.event r.sirens.status m with
    | none =>
        simp only [Option.map_none, Option.toList_none, List.append_nil]
        exact h.restrained
    | some e =>
        simp only [Option.map_some, Option.toList_some]
        refine each_concat.mpr ⟨h.restrained, fun he => hspawned ?_⟩
        rw [hevent, ← he]
  · rw [eventsOf_append]
    rcases Sirens.setTask_eq_some.mp ht with ⟨rfl, rfl⟩ | ⟨hne, hold⟩
    · rw [eventsOf_self]
      exact hfits
    · rw [eventsOf_other hne, List.append_nil]
      rw [htasks] at hold
      exact h.fits id' t hold
  · obtain ⟨hne, hold⟩ := setTask_eq_none.mp hid'
    rw [eventsOf_append, eventsOf_other hne, List.append_nil]
    exact h.unspawned id' (htasks ▸ hold)
  · refine hsame (h.fresh id' ?_)
    rw [← hnext]
    exact hid'
  · obtain ⟨hnone, hlt⟩ := h.starting id' command (hstarting ▸ hcommand)
    exact ⟨hsame hnone, hnext ▸ hlt⟩

theorem affect_tasks (s : Sirens) (id : ℕ) (task : SirenTask) (m : Move) :
    (s.affect id task m).tasks = s.tasks ∧ (s.affect id task m).nextTask = s.nextTask ∧
      (s.affect id task m).starting = s.starting := by
  unfold Sirens.affect
  split
  · exact ⟨rfl, rfl, rfl⟩
  · split
    · split <;> exact ⟨rfl, rfl, rfl⟩
    · exact ⟨rfl, rfl, rfl⟩
  · exact ⟨rfl, rfl, rfl⟩

theorem Counting.step {input : SirenInput} (h : r.Counting) (hstep : r.step input = .ok r') :
    r'.Counting := by
  cases hsirens : r.sirens.step input with
  | error e =>
      rw [SirenLog.step, hsirens] at hstep
      cases hstep
  | ok sirens =>
      rw [SirenLog.step, hsirens] at hstep
      cases hstep
      cases input with
      | reconfigure programs cfg =>
          simp only [Sirens.step] at hsirens
          split_ifs at hsirens
          cases hsirens
          exact h.same rfl le_rfl h.starting
      | stopSiren =>
          simp only [Sirens.step] at hsirens
          split_ifs at hsirens
          cases hsirens
          exact h.same rfl le_rfl h.starting
      | startSiren programs path =>
          simp only [Sirens.step] at hsirens
          split_ifs at hsirens
          cases hsirens
          refine h.same rfl (Nat.le_succ _) fun id command hcommand => ?_
          obtain ⟨command', _, heq⟩ := Option.map_eq_some_iff.mp hcommand
          cases heq
          exact ⟨h.fresh _ le_rfl, Nat.lt_succ_self _⟩
      | call =>
          replace hsirens : r.sirens.call = .ok sirens := hsirens
          unfold Sirens.call at hsirens
          split at hsirens
          · cases hsirens
            exact h.signal (f := fun task => { task with stop := true }) (fun _ _ hfits => hfits) _
          · cases hsirens
            exact h.signal (fun _ _ hfits => fits_notifyWaiters hfits) _
          · cases hsirens
            exact h.signal (f := fun task => { task with aborted := true }) (fun _ _ hfits => hfits) _
          · rename_i id command hstopping hstarting
            cases hsirens
            exact h.spawn hstarting
          · cases hsirens
      | move id m =>
          simp only [Sirens.step] at hsirens
          split at hsirens
          · cases hsirens
          · rename_i task htask
            split at hsirens
            · cases hsirens
            · rename_i next hmove
              cases hsirens
              obtain ⟨htasks, hnext, hstarting⟩ := affect_tasks r.sirens id task m
              simp only [Sirens.event, htask, Option.bind_some]
              exact h.move htask hmove htasks hnext hstarting
      | exit player success =>
          simp only [Sirens.step] at hsirens
          split at hsirens <;> cases hsirens <;> exact h.same rfl le_rfl h.starting

theorem counting_of_run {programs : Programs} {cfg : Config} {inputs : List SirenInput}
    (hrun : Run step (start programs cfg) inputs r) : r.Counting :=
  hrun.invariant (.start programs cfg) fun _ _ _ h _ hstep => h.step hstep

/-- A siren goes on as long as it can, in every run: a siren task ends itself only if it has been told to,
if a player cannot be spawned or waited for, or after three failed players in a row; and until then it
spawns the next player only after a rest if the last one has failed. -/
theorem siren_goes_on {programs : Programs} {cfg : Config} {inputs : List SirenInput}
    (hrun : Run step (start programs cfg) inputs r) :
    (∀ id task, r.sirens.tasks id = some task → task.point = .finished →
      HasEnded (eventsOf id r.log)) ∧
    ∀ before id after, r.log = before ++ (id, .spawned) :: after → MaySpawn (eventsOf id before) := by
  have h := counting_of_run hrun
  refine ⟨fun id task htask hpoint => ?_, fun before id after hlog => ?_⟩
  · have hfits := h.fits id task htask
    rwa [hpoint] at hfits
  · exact (each_iff.mp h.restrained) before (id, .spawned) after hlog rfl

/-- The player fails, and the task goes on to the next one after a rest. -/
def failing (player : ℕ) : List SirenInput :=
  [.exit player false, .move 0 .poll, .move 0 .childExited, .move 0 .drained, .move 0 .retried,
    .move 0 .loadStop, .move 0 (.spawn true), .move 0 .select, .move 0 .suspend]

theorem siren_goes_on_mute : ∃ r : SirenLog, HasEnded (eventsOf 0 r.log) ∧
    ∃ before after, r.log = before ++ (0, .spawned) :: after ∧ failuresInARow (eventsOf 0 before) = 2 ∧
      MaySpawn (eventsOf 0 before) := by
  obtain ⟨r, hrun, ⟨task, htask, hpoint⟩, before, after, hlog, htwo⟩ : ∃ r,
      Run step (start (Bench.host "c1").programs .default)
        (Sirens.alarm 0 ++ failing 0 ++ failing 1 ++
          [.exit 2 false, .move 0 .poll, .move 0 .childExited, .move 0 .drained]) r ∧
      (∃ task, r.sirens.tasks 0 = some task ∧ task.point = .finished) ∧
      ∃ before after, r.log = before ++ (0, .spawned) :: after ∧
        failuresInARow (eventsOf 0 before) = 2 := by
    refine ⟨_, run_get (by decide +kernel), ?_, ?_⟩
    · exact ⟨_, (Option.some_get (by decide +kernel)).symm, by decide +kernel⟩
    · refine ⟨[(0, .spawned), (0, .played false), (0, .rested), (0, .spawned), (0, .played false),
        (0, .rested)], [(0, .played false)], by decide +kernel, by decide⟩
  exact ⟨r, (siren_goes_on hrun).1 0 task htask hpoint, before, after, hlog, htwo,
    (siren_goes_on hrun).2 before 0 after hlog⟩

end SirenLog

end AlertU
