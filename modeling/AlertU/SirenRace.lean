import AlertU.Bench
import AlertU.Runs
import AlertU.SirenTask

/-! `stop_siren` and `start_siren` against the siren tasks. The three calls of `stop_siren` run one
after another on the machine's thread, and between any two of them a siren task may move or a player
may exit. A stop silences the siren in every run in which it aborts no task that has a live player in
its hands. -/

open FilePath Runs

namespace AlertU

/-- How far `stop_siren` has got with a task. -/
inductive StopCall where
  | store
  | notifyWaiters
  | abort
  deriving DecidableEq, Repr

/-- A player process and the task that has spawned it. -/
structure SirenPlayer where
  task : ℕ
  status : PlayerStatus
  deriving DecidableEq, Repr

/-- The sound player, the calls it is still to make, and all siren tasks and their players so far. -/
structure Sirens where
  sound : SoundPlayer
  stopping : Option (ℕ × StopCall)
  starting : Option (ℕ × Command)
  tasks : ℕ → Option SirenTask
  nextTask : ℕ
  players : ℕ → Option SirenPlayer
  nextPlayer : ℕ

inductive SirenInput where
  | reconfigure (programs : Programs) (cfg : Config)
  | stopSiren
  | startSiren (programs : Programs) (path : PathBuf)
  | call
  | move (task : ℕ) (m : Move)
  | exit (player : ℕ) (success : Bool)

namespace Sirens

def start (programs : Programs) (cfg : Config) : Sirens :=
  ⟨.new programs cfg, none, none, fun _ => none, 0, fun _ => none, 0⟩

variable (s : Sirens)

def status (player : ℕ) : Option PlayerStatus := (s.players player).map (·.status)

def setTask (id : ℕ) (task : SirenTask) : Sirens :=
  { s with tasks := Function.update s.tasks id (some task) }

/-- Change the task if it has been spawned. -/
def withTask (id : ℕ) (f : SirenTask → SirenTask) : Sirens :=
  { s with tasks := Function.update s.tasks id ((s.tasks id).map f) }

def setPlayer (player : ℕ) (entry : SirenPlayer) : Sirens :=
  { s with players := Function.update s.players player (some entry) }

/-- The next call on the machine's thread. -/
def call : Except Unit Sirens :=
  match s.stopping, s.starting with
  | some (id, .store), _ =>
      .ok { s.withTask id (fun task => { task with stop := true }) with
        stopping := some (id, .notifyWaiters) }
  | some (id, .notifyWaiters), _ =>
      .ok { s.withTask id SirenTask.notifyWaiters with stopping := some (id, .abort) }
  | some (id, .abort), _ =>
      .ok { s.withTask id (fun task => { task with aborted := true }) with stopping := none }
  | none, some (id, command) => .ok { s.setTask id (.new command) with starting := none }
  | none, none => .error ()

/-- The effect of a move on the processes: a player is spawned or sent a signal. -/
def affect (id : ℕ) (task : SirenTask) : Move → Sirens
  | .spawn true =>
      { s.setPlayer s.nextPlayer ⟨id, .running⟩ with nextPlayer := s.nextPlayer + 1 }
  | .kill =>
      match task.point with
      | .killing child =>
          match s.players child with
          | some ⟨owner, .running⟩ => s.setPlayer child ⟨owner, .killed⟩
          | _ => s
      | _ => s
  | _ => s

/-- The machine's thread is not in the middle of a call. -/
def idle : Bool := s.stopping.isNone && s.starting.isNone

def step (s : Sirens) : SirenInput → Except Unit Sirens
  | .reconfigure programs cfg =>
      if !s.idle then .error ()
      else .ok { s with sound := s.sound.reconfigure programs cfg }
  | .stopSiren =>
      if !s.idle then .error ()
      else
        .ok { s with
          sound := s.sound.stopSiren
          stopping := s.sound.siren.map fun handle => (handle.task, .store) }
  | .startSiren programs path =>
      if !s.idle then .error ()
      else
        let (sound, command) := s.sound.startSiren programs s.nextTask path
        .ok { s with
          sound
          stopping := s.sound.siren.map fun handle => (handle.task, .store)
          starting := command.map fun command => (s.nextTask, command)
          nextTask := s.nextTask + 1 }
  | .call => s.call
  | .move id m =>
      match s.tasks id with
      | none => .error ()
      | some task =>
          match task.move s.status s.nextPlayer m with
          | none => .error ()
          | some next => .ok ((s.affect id task m).setTask id next)
  | .exit player success =>
      match s.players player with
      | some ⟨owner, .running⟩ => .ok (s.setPlayer player ⟨owner, .exited success⟩)
      | some ⟨owner, .killed⟩ => .ok (s.setPlayer player ⟨owner, .exited false⟩)
      | _ => .error ()

/-- A player that is running and has not been sent the signal. -/
def Sounds (player : ℕ) : Prop := ∃ owner, s.players player = some ⟨owner, .running⟩

/-- The task has no live player in its hands and is not on the way to the next one. -/
def settled (task : SirenTask) : Bool :=
  !task.point.isSpawning && task.point.holds.all fun child => s.status child ≠ some .running

/-- The condition on one step: a task is settled when it is aborted, and waiting for a live player
does not fail. -/
def orderly (s : Sirens) : SirenInput → Bool
  | .call =>
      match s.stopping with
      | some (id, .abort) => (s.tasks id).all s.settled
      | _ => true
  | .move id .waitFailed =>
      (s.tasks id).all fun task => task.point.holds.all fun child => s.status child ≠ some .running
  | _ => true

/-- What holds of the tasks and their players as long as every step is orderly. -/
structure Tidy (s : Sirens) : Prop where
  current : ∀ id task, s.tasks id = some task → task.aborted = false →
    (∃ call, s.stopping = some (id, call)) ∨
      (s.stopping = none ∧ s.starting = none ∧ s.sound.siren = some ⟨id⟩)
  stored : ∀ id call task, s.stopping = some (id, call) → call ≠ .store →
    s.tasks id = some task → task.stop
  aborted : ∀ id task, s.tasks id = some task → task.aborted → task.stop ∧ s.settled task
  held : ∀ player owner, s.players player = some ⟨owner, .running⟩ →
    ∃ task, s.tasks owner = some task ∧ task.point.holds = some player
  bound : ∀ id task child, s.tasks id = some task → task.point.holds = some child →
    child < s.nextPlayer
  fresh : ∀ id, s.nextTask ≤ id → s.tasks id = none
  starting : ∀ id command, s.starting = some (id, command) →
    s.tasks id = none ∧ id < s.nextTask ∧ s.sound.siren = some ⟨id⟩

variable {s} {s' : Sirens}

theorem setTask_eq_some {id id' : ℕ} {task t : SirenTask} :
    (s.setTask id task).tasks id' = some t ↔
      (id' = id ∧ t = task) ∨ (id' ≠ id ∧ s.tasks id' = some t) := by
  simp only [setTask, Function.update_apply]
  split_ifs with hid
  · simp [hid, eq_comm]
  · simp [hid]

theorem withTask_eq_some {id id' : ℕ} {f : SirenTask → SirenTask} {t : SirenTask} :
    (s.withTask id f).tasks id' = some t ↔
      (id' = id ∧ ∃ task, s.tasks id = some task ∧ t = f task) ∨
        (id' ≠ id ∧ s.tasks id' = some t) := by
  simp only [withTask, Function.update_apply]
  split_ifs with hid
  · rw [Option.map_eq_some_iff]
    simp [hid, eq_comm]
  · simp [hid]

theorem withTask_eq_none {id id' : ℕ} {f : SirenTask → SirenTask} :
    (s.withTask id f).tasks id' = none ↔ s.tasks id' = none := by
  simp only [withTask, Function.update_apply]
  split_ifs with hid
  · simp [hid]
  · rfl

theorem status_eq_running_iff {child : ℕ} : s.status child = some .running ↔ s.Sounds child := by
  rw [status, Option.map_eq_some_iff]
  constructor
  · rintro ⟨⟨owner, status⟩, hplayer, rfl⟩
    exact ⟨owner, hplayer⟩
  · rintro ⟨owner, hplayer⟩
    exact ⟨_, hplayer, rfl⟩

theorem settled_iff {task : SirenTask} : s.settled task ↔
    task.point.isSpawning = false ∧
      ∀ child, task.point.holds = some child → ¬s.Sounds child := by
  simp only [← status_eq_running_iff]
  unfold settled
  cases task.point.holds <;> simp

namespace Tidy

theorem start (programs : Programs) (cfg : Config) : (Sirens.start programs cfg).Tidy :=
  ⟨nofun, nofun, nofun, nofun, nofun, fun _ _ => rfl, nofun⟩

/-- The players that sound are in the hands of tasks that have not been aborted. -/
theorem not_aborted (h : s.Tidy) {player owner : ℕ}
    (hplayer : s.players player = some ⟨owner, .running⟩) :
    ∃ task, s.tasks owner = some task ∧ task.aborted = false ∧ task.point.holds = some player := by
  obtain ⟨task, htask, hholds⟩ := h.held player owner hplayer
  refine ⟨task, htask, ?_, hholds⟩
  by_contra haborted
  have hsettled := (h.aborted owner task htask (by simpa using haborted)).2
  simp [settled, hholds, status, hplayer] at hsettled

/-- The task that is being stopped is the only one that has not been aborted. -/
theorem eq_of_stopping (h : s.Tidy) {id id' : ℕ} {call : StopCall} {task : SirenTask}
    (hstopping : s.stopping = some (id, call)) (htask : s.tasks id' = some task)
    (haborted : task.aborted = false) : id' = id := by
  rcases h.current id' task htask haborted with ⟨call', hcall⟩ | ⟨hnone, -⟩
  · rw [hstopping] at hcall
    cases hcall
    rfl
  · rw [hstopping] at hnone
    cases hnone

theorem eq_of_not_aborted (h : s.Tidy) {id id' : ℕ} {task task' : SirenTask}
    (htask : s.tasks id = some task) (htask' : s.tasks id' = some task')
    (haborted : task.aborted = false) (haborted' : task'.aborted = false) : id = id' := by
  rcases h.current id task htask haborted with ⟨call, hstop⟩ | ⟨hstop, -, hsiren⟩
  · exact (h.eq_of_stopping hstop htask' haborted').symm
  · rcases h.current id' task' htask' haborted' with ⟨call', hstop'⟩ | ⟨-, -, hsiren'⟩
    · rw [hstop] at hstop'
      cases hstop'
    · rw [hsiren] at hsiren'
      cases hsiren'
      rfl

/-- At most one siren player sounds. -/
theorem at_most_one (h : s.Tidy) {player player' : ℕ} (hplayer : s.Sounds player)
    (hplayer' : s.Sounds player') : player = player' := by
  obtain ⟨owner, hplayer⟩ := hplayer
  obtain ⟨owner', hplayer'⟩ := hplayer'
  obtain ⟨task, htask, haborted, hholds⟩ := h.not_aborted hplayer
  obtain ⟨task', htask', haborted', hholds'⟩ := h.not_aborted hplayer'
  obtain rfl := h.eq_of_not_aborted htask htask' haborted haborted'
  rw [htask] at htask'
  cases htask'
  rw [hholds] at hholds'
  cases hholds'
  rfl

/-- A call of `stop_siren` on the task, which keeps its player in its hands. -/
theorem withTask (h : s.Tidy) {id : ℕ} {f : SirenTask → SirenTask}
    (hholds : ∀ task, (f task).point.holds = task.point.holds)
    (haborted : ∀ task, s.tasks id = some task → (f task).aborted →
      (f task).stop ∧ s.settled (f task))
    (stopping : Option (ℕ × StopCall))
    (hcurrent : ∀ id' task, (s.withTask id f).tasks id' = some task → task.aborted = false →
      ∃ call, stopping = some (id', call))
    (hstored : ∀ id' call task, stopping = some (id', call) → call ≠ .store →
      (s.withTask id f).tasks id' = some task → task.stop) :
    Tidy { s.withTask id f with stopping } := by
  refine ⟨fun id' task htask hlive => .inl (hcurrent id' task htask hlive), hstored, ?_, ?_, ?_, ?_, ?_⟩
  · intro id' t htask hdead
    rcases withTask_eq_some.mp htask with ⟨rfl, task, hold, rfl⟩ | ⟨hne, hold⟩
    · exact haborted task hold hdead
    · exact h.aborted id' t hold hdead
  · intro player owner hplayer
    obtain ⟨task, htask, hheld⟩ := h.held player owner hplayer
    by_cases hid : owner = id
    · subst hid
      exact ⟨f task, withTask_eq_some.mpr (.inl ⟨rfl, task, htask, rfl⟩), by rw [hholds, hheld]⟩
    · exact ⟨task, withTask_eq_some.mpr (.inr ⟨hid, htask⟩), hheld⟩
  · intro id' t child htask hchild
    rcases withTask_eq_some.mp htask with ⟨rfl, task, hold, rfl⟩ | ⟨hne, hold⟩
    · rw [hholds] at hchild
      exact h.bound _ task child hold hchild
    · exact h.bound id' t child hold hchild
  · exact fun id' hid' => withTask_eq_none.mpr (h.fresh id' hid')
  · intro id' command hstarting
    obtain ⟨hnone, hlt, hsiren⟩ := h.starting id' command hstarting
    exact ⟨withTask_eq_none.mpr hnone, hlt, hsiren⟩

theorem signal (h : s.Tidy) {id : ℕ} {call next : StopCall} {f : SirenTask → SirenTask}
    (hstopping : s.stopping = some (id, call))
    (hstop : ∀ task, s.tasks id = some task → (f task).stop)
    (haborted : ∀ task, (f task).aborted = task.aborted)
    (hholds : ∀ task, (f task).point.holds = task.point.holds)
    (hspawning : ∀ task, (f task).point.isSpawning = task.point.isSpawning) :
    Tidy { s.withTask id f with stopping := some (id, next) } := by
  refine h.withTask hholds ?_ _ ?_ ?_
  · intro task htask hdead
    rw [haborted] at hdead
    have hsettled := (h.aborted id task htask hdead).2
    exact ⟨hstop task htask, by simpa [settled, hholds, hspawning] using hsettled⟩
  · intro id' t htask hlive
    rcases withTask_eq_some.mp htask with ⟨rfl, -⟩ | ⟨hne, hold⟩
    · exact ⟨next, rfl⟩
    · exact absurd (h.eq_of_stopping hstopping hold hlive) hne
  · rintro id' call' t ⟨⟩ _ htask
    rcases withTask_eq_some.mp htask with ⟨-, task, hold, rfl⟩ | ⟨hne, -⟩
    · exact hstop task hold
    · exact absurd rfl hne

theorem abort (h : s.Tidy) {id : ℕ} (hstopping : s.stopping = some (id, .abort))
    (hsettled : (s.tasks id).all s.settled) :
    Tidy { s.withTask id (fun task => { task with aborted := true }) with stopping := none } := by
  refine h.withTask (f := fun task => { task with aborted := true }) (fun _ => rfl) ?_ _ ?_
    (fun _ _ _ hcall => by cases hcall)
  · intro task htask _
    rw [htask] at hsettled
    exact ⟨h.stored id .abort task hstopping nofun htask, hsettled⟩
  · intro id' t htask hlive
    rcases withTask_eq_some.mp htask with ⟨-, task, -, rfl⟩ | ⟨hne, hold⟩
    · cases hlive
    · exact absurd (h.eq_of_stopping hstopping hold hlive) hne

theorem spawn (h : s.Tidy) {id : ℕ} {command : Command} (hstopping : s.stopping = none)
    (hstarting : s.starting = some (id, command)) :
    Tidy { s.setTask id (.new command) with starting := none } := by
  obtain ⟨hnone, hlt, hsiren⟩ := h.starting id command hstarting
  refine ⟨?_, ?_, ?_, ?_, ?_, ?_, nofun⟩
  · intro id' t htask hlive
    rcases setTask_eq_some.mp htask with ⟨rfl, rfl⟩ | ⟨hne, hold⟩
    · exact .inr ⟨hstopping, rfl, hsiren⟩
    · rcases h.current id' t hold hlive with ⟨call, hcall⟩ | ⟨-, hidle, -⟩
      · rw [hstopping] at hcall
        cases hcall
      · rw [hstarting] at hidle
        cases hidle
  · intro id' call t hcall
    change s.stopping = some (id', call) at hcall
    rw [hstopping] at hcall
    cases hcall
  · intro id' t htask hdead
    rcases setTask_eq_some.mp htask with ⟨rfl, rfl⟩ | ⟨hne, hold⟩
    · cases hdead
    · exact h.aborted id' t hold hdead
  · intro player owner hplayer
    obtain ⟨task, htask, hheld⟩ := h.held player owner hplayer
    refine ⟨task, setTask_eq_some.mpr (.inr ⟨?_, htask⟩), hheld⟩
    rintro rfl
    rw [hnone] at htask
    cases htask
  · intro id' t child htask hchild
    rcases setTask_eq_some.mp htask with ⟨rfl, rfl⟩ | ⟨hne, hold⟩
    · cases hchild
    · exact h.bound id' t child hold hchild
  · intro id' hid'
    have hne : id' ≠ id := by
      change s.nextTask ≤ id' at hid'
      omega
    exact (Function.update_of_ne hne _ _).trans (h.fresh id' hid')

theorem call (h : s.Tidy) (horderly : s.orderly .call) (hcall : s.call = .ok s') : s'.Tidy := by
  unfold Sirens.call at hcall
  split at hcall
  · rename_i id hstopping
    cases hcall
    exact h.signal hstopping (fun _ _ => rfl) (fun _ => rfl) (fun _ => rfl) (fun _ => rfl)
  · rename_i id hstopping
    cases hcall
    refine h.signal hstopping (fun task htask => ?_) SirenTask.notifyWaiters_aborted
      SirenTask.notifyWaiters_holds SirenTask.notifyWaiters_isSpawning
    rw [SirenTask.notifyWaiters_stop]
    exact h.stored id .notifyWaiters task hstopping nofun htask
  · rename_i id hstopping
    cases hcall
    simp only [orderly, hstopping] at horderly
    exact h.abort hstopping horderly
  · rename_i id command hstopping hstarting
    cases hcall
    exact h.spawn hstopping hstarting
  · cases hcall

/-- A call of `stop_siren` or `start_siren` on an idle sound player. -/
theorem request (h : s.Tidy) (hstopping : s.stopping = none) {sound : SoundPlayer}
    {starting : Option (ℕ × Command)} {nextTask : ℕ}
    (hnext : s.nextTask ≤ nextTask)
    (hstart : ∀ id command, starting = some (id, command) →
      id = s.nextTask ∧ id < nextTask ∧ sound.siren = some ⟨id⟩) :
    Tidy { s with
      sound
      stopping := s.sound.siren.map fun handle => (handle.task, .store)
      starting
      nextTask } := by
  refine ⟨?_, ?_, h.aborted, h.held, h.bound, fun id hid => h.fresh id (hnext.trans hid), ?_⟩
  · intro id task htask hlive
    rcases h.current id task htask hlive with ⟨call, hcall⟩ | ⟨-, -, hsiren⟩
    · rw [hstopping] at hcall
      cases hcall
    · exact .inl ⟨.store, by rw [hsiren]; rfl⟩
  · intro id call task hcall hne
    obtain ⟨handle, -, heq⟩ := Option.map_eq_some_iff.mp hcall
    cases heq
    exact absurd rfl hne
  · intro id command hcommand
    obtain ⟨rfl, hlt, hsiren⟩ := hstart id command hcommand
    exact ⟨h.fresh _ le_rfl, hlt, hsiren⟩

theorem startSiren_siren {sound : SoundPlayer} {programs : Programs} {task : ℕ} {path : PathBuf}
    {command : Command} (h : (sound.startSiren programs task path).2 = some command) :
    (sound.startSiren programs task path).1.siren = some ⟨task⟩ := by
  unfold SoundPlayer.startSiren at h ⊢
  simp only at h ⊢
  split at h
  · cases h
  · split_ifs at h ⊢
    rfl

/-- A task that has moved, together with the players after its move. -/
theorem replace (h : s.Tidy) {id : ℕ} {task next : SirenTask} {players : ℕ → Option SirenPlayer}
    {nextPlayer : ℕ} (htask : s.tasks id = some task) (hstop : next.stop = task.stop)
    (haborted : next.aborted = task.aborted) (hnext : s.nextPlayer ≤ nextPlayer)
    (hplayers : ∀ player owner, player < s.nextPlayer ∨ owner ≠ id →
      players player = some ⟨owner, .running⟩ → s.players player = some ⟨owner, .running⟩)
    (hheld : ∀ player, players player = some ⟨id, .running⟩ → next.point.holds = some player)
    (hbound : ∀ child, next.point.holds = some child → child < nextPlayer)
    (hsettled : task.aborted → next.point.isSpawning = false ∧
      ∀ child owner, next.point.holds = some child → players child ≠ some ⟨owner, .running⟩) :
    Tidy { s with players, nextPlayer, tasks := Function.update s.tasks id (some next) } := by
  have hcases {id' : ℕ} {t : SirenTask}
      (h : (Function.update s.tasks id (some next)) id' = some t) :
      (id' = id ∧ t = next) ∨ (id' ≠ id ∧ s.tasks id' = some t) := setTask_eq_some.mp h
  refine ⟨?_, ?_, ?_, ?_, ?_, ?_, ?_⟩
  · intro id' t ht hlive
    rcases hcases ht with ⟨rfl, rfl⟩ | ⟨hne, hold⟩
    · exact h.current _ task htask (haborted ▸ hlive)
    · exact h.current id' t hold hlive
  · intro id' call t hcall hne ht
    rcases hcases ht with ⟨rfl, rfl⟩ | ⟨-, hold⟩
    · rw [hstop]
      exact h.stored _ call task hcall hne htask
    · exact h.stored id' call t hcall hne hold
  · intro id' t ht hdead
    rw [settled_iff]
    rcases hcases ht with ⟨rfl, rfl⟩ | ⟨hne, hold⟩
    · rw [haborted] at hdead
      obtain ⟨hspawning, hquiet⟩ := hsettled hdead
      refine ⟨hstop.trans (h.aborted _ task htask hdead).1, hspawning, ?_⟩
      rintro child hchild ⟨owner, hplayer⟩
      exact hquiet child owner hchild hplayer
    · obtain ⟨hstopped, hsettled'⟩ := h.aborted id' t hold hdead
      rw [settled_iff] at hsettled'
      refine ⟨hstopped, hsettled'.1, ?_⟩
      rintro child hchild ⟨owner, hplayer⟩
      exact hsettled'.2 child hchild
        ⟨owner, hplayers child owner (.inl (h.bound id' t child hold hchild)) hplayer⟩
  · intro player owner hplayer
    by_cases howner : owner = id
    · subst howner
      exact ⟨next, setTask_eq_some.mpr (.inl ⟨rfl, rfl⟩), hheld player hplayer⟩
    · obtain ⟨t, ht, hholds⟩ := h.held player owner (hplayers player owner (.inr howner) hplayer)
      exact ⟨t, setTask_eq_some.mpr (.inr ⟨howner, ht⟩), hholds⟩
  · intro id' t child ht hchild
    rcases hcases ht with ⟨rfl, rfl⟩ | ⟨hne, hold⟩
    · exact hbound child hchild
    · exact (h.bound id' t child hold hchild).trans_le hnext
  · intro id' hid'
    have hne : id' ≠ id := by
      rintro rfl
      rw [h.fresh _ hid'] at htask
      cases htask
    exact (Function.update_of_ne hne _ _).trans (h.fresh id' hid')
  · intro id' command hstarting
    obtain ⟨hnone, hlt, hsiren⟩ := h.starting id' command hstarting
    have hne : id' ≠ id := by
      rintro rfl
      rw [hnone] at htask
      cases htask
    exact ⟨(Function.update_of_ne hne _ _).trans hnone, hlt, hsiren⟩

/-- A player that is no longer running. -/
theorem setPlayer (h : s.Tidy) {player owner : ℕ} {status : PlayerStatus}
    (hstatus : status ≠ .running) : (s.setPlayer player ⟨owner, status⟩).Tidy := by
  have hplayers {player' owner' : ℕ}
      (hplayer' : (s.setPlayer player ⟨owner, status⟩).players player' = some ⟨owner', .running⟩) :
      s.players player' = some ⟨owner', .running⟩ := by
    simp only [Sirens.setPlayer, Function.update_apply] at hplayer'
    split_ifs at hplayer' with heq
    · cases hplayer'
      exact absurd rfl hstatus
    · exact hplayer'
  refine ⟨h.current, h.stored, ?_, fun player' owner' hplayer' => h.held _ _ (hplayers hplayer'),
    h.bound, h.fresh, h.starting⟩
  intro id task htask hdead
  obtain ⟨hstop, hsettled⟩ := h.aborted id task htask hdead
  rw [settled_iff] at hsettled ⊢
  refine ⟨hstop, hsettled.1, ?_⟩
  rintro child hchild ⟨owner', hplayer⟩
  exact hsettled.2 child hchild ⟨owner', hplayers hplayer⟩

theorem affect_of_ne {id : ℕ} {task : SirenTask} {m : Move} (hspawn : m ≠ .spawn true)
    (hkill : m ≠ .kill) : s.affect id task m = s := by
  unfold affect
  split
  · exact absurd rfl hspawn
  · exact absurd rfl hkill
  · rfl

/-- After the signal no player sounds that did not before, and the one in `killing` does not. -/
theorem affect_kill (s : Sirens) (id : ℕ) {child : ℕ} {task : SirenTask} (hpoint : task.point = .killing child) :
    ∃ players, s.affect id task .kill = { s with players } ∧
      (∀ {player owner}, players player = some ⟨owner, .running⟩ →
        s.players player = some ⟨owner, .running⟩) ∧
      ∀ {owner}, players child ≠ some ⟨owner, .running⟩ := by
  simp only [affect, hpoint]
  split
  · refine ⟨_, rfl, fun {player owner} hplayer => ?_, fun {owner} hplayer => ?_⟩
    · rw [Function.update_apply] at hplayer
      split_ifs at hplayer
      · cases hplayer
      · exact hplayer
    · rw [Function.update_self] at hplayer
      cases hplayer
  · rename_i hrunning
    exact ⟨s.players, rfl, fun hplayer => hplayer, fun {owner} hplayer => hrunning owner hplayer⟩

/-- What the task in `id` sounds is what it holds. -/
theorem holds_of_running (h : s.Tidy) {id player : ℕ} {task : SirenTask}
    (htask : s.tasks id = some task) (hplayer : s.players player = some ⟨id, .running⟩) :
    task.point.holds = some player := by
  obtain ⟨task', htask', hholds⟩ := h.held player id hplayer
  rw [htask] at htask'
  cases htask'
  exact hholds

/-- A task that has been aborted has no player that sounds. -/
theorem quiet_of_aborted (h : s.Tidy) {id : ℕ} {task : SirenTask} (htask : s.tasks id = some task)
    (haborted : task.aborted) : task.stop ∧ task.point.isSpawning = false ∧
      ∀ child, task.point.holds = some child → ¬s.Sounds child := by
  obtain ⟨hstop, hsettled⟩ := h.aborted id task htask haborted
  exact ⟨hstop, settled_iff.mp hsettled⟩

section Move

variable {id : ℕ} {task next : SirenTask}

/-- The task keeps what it has in its hands. -/
theorem kept (h : s.Tidy) (htask : s.tasks id = some task) (hstop : next.stop = task.stop)
    (haborted : next.aborted = task.aborted) (hholds : next.point.holds = task.point.holds)
    (hspawning : next.point.isSpawning → task.point.isSpawning ∨ task.stop = false) :
    (s.setTask id next).Tidy := by
  refine h.replace htask hstop haborted le_rfl (fun _ _ _ hplayer => hplayer) ?_ ?_ ?_
  · intro player hplayer
    rw [hholds, h.holds_of_running htask hplayer]
  · intro child hchild
    rw [hholds] at hchild
    exact h.bound id task child htask hchild
  · intro hdead
    obtain ⟨hstopped, hnot, hquiet⟩ := h.quiet_of_aborted htask hdead
    rw [hholds]
    refine ⟨Bool.eq_false_iff.mpr fun hnext => ?_, fun child owner hchild hplayer =>
      hquiet child hchild ⟨owner, hplayer⟩⟩
    rcases hspawning hnext with hspawning | hstop'
    · rw [hnot] at hspawning
      cases hspawning
    · rw [hstopped] at hstop'
      cases hstop'

/-- The task lets go of a player that does not sound. -/
theorem released (h : s.Tidy) (htask : s.tasks id = some task) (hstop : next.stop = task.stop)
    (haborted : next.aborted = task.aborted) {child : ℕ} (hchild : task.point.holds = some child)
    (hquiet : ¬s.Sounds child) (hholds : next.point.holds = none)
    (hspawning : next.point.isSpawning = false) : (s.setTask id next).Tidy := by
  refine h.replace htask hstop haborted le_rfl (fun _ _ _ hplayer => hplayer) ?_ ?_ ?_
  · intro player hplayer
    have hheld := h.holds_of_running htask hplayer
    rw [hchild] at hheld
    cases hheld
    exact absurd ⟨id, hplayer⟩ hquiet
  · intro child' hchild'
    rw [hholds] at hchild'
    cases hchild'
  · intro _
    rw [hholds]
    exact ⟨hspawning, nofun⟩

/-- The task, which has not been aborted, gets a new player into its hands. -/
theorem spawned (h : s.Tidy) (htask : s.tasks id = some task) (hstop : next.stop = task.stop)
    (haborted : next.aborted = task.aborted) (hspawning : task.point.isSpawning)
    (hholds : next.point.holds = some s.nextPlayer) :
    ((s.affect id task (.spawn true)).setTask id next).Tidy := by
  have hlive : ¬task.aborted := by
    intro hdead
    have hnot := (h.quiet_of_aborted htask hdead).2.1
    rw [hspawning] at hnot
    cases hnot
  have hnone : task.point.holds = none := by
    cases hpoint : task.point <;> simp_all [Point.isSpawning, Point.holds]
  refine h.replace htask hstop haborted (Nat.le_succ _) ?_ ?_ ?_ fun hdead => absurd hdead hlive
  · intro player owner hcase hplayer
    change Function.update s.players s.nextPlayer _ player = _ at hplayer
    rw [Function.update_apply] at hplayer
    split_ifs at hplayer with heq
    · subst heq
      cases hplayer
      rcases hcase with hlt | hne
      · omega
      · exact absurd rfl hne
    · exact hplayer
  · intro player hplayer
    change Function.update s.players s.nextPlayer _ player = _ at hplayer
    rw [Function.update_apply] at hplayer
    split_ifs at hplayer with heq
    · rw [hholds, heq]
    · have hheld := h.holds_of_running htask hplayer
      rw [hnone] at hheld
      cases hheld
  · intro child hchild
    rw [hholds] at hchild
    cases hchild
    exact Nat.lt_succ_self _

/-- The task sends the signal to its player, and waits for its end. -/
theorem killed (h : s.Tidy) (htask : s.tasks id = some task) (hstop : next.stop = task.stop)
    (haborted : next.aborted = task.aborted) {child : ℕ} (hpoint : task.point = .killing child)
    (hholds : next.point.holds = none) (hnext : next.point.isSpawning = false) :
    ((s.affect id task .kill).setTask id next).Tidy := by
  obtain ⟨players, haffect, hplayers, hquiet⟩ := affect_kill s id hpoint
  rw [haffect]
  refine h.replace htask hstop haborted le_rfl (fun _ _ _ => hplayers) ?_ ?_ ?_
  · intro player hplayer
    have hheld := h.holds_of_running htask (hplayers hplayer)
    rw [hpoint] at hheld
    cases hheld
    exact absurd hplayer hquiet
  · intro child' hchild'
    rw [hholds] at hchild'
    cases hchild'
  · intro _
    rw [hholds]
    exact ⟨hnext, nofun⟩

theorem move (h : s.Tidy) {m : Move} (htask : s.tasks id = some task)
    (hmove : task.move s.status s.nextPlayer m = some next) (horderly : s.orderly (.move id m)) :
    ((s.affect id task m).setTask id next).Tidy := by
  obtain ⟨hstop, haborted, hmoved⟩ := SirenTask.move_cases hmove
  cases hmoved with
  | kept _ hspawn hkill hholds hspawning =>
      rw [affect_of_ne hspawn hkill]
      exact h.kept htask hstop haborted hholds hspawning
  | released _ child hspawn hkill hchild hholds hspawning hwhy =>
      have hquiet : ¬s.Sounds child := by
        rcases hwhy with hexited | rfl | ⟨rfl, hdead⟩
        · rwa [← status_eq_running_iff]
        · rw [← status_eq_running_iff]
          simpa [orderly, htask, hchild] using horderly
        · exact (h.quiet_of_aborted htask hdead).2.2 child hchild
      rw [affect_of_ne hspawn hkill]
      exact h.released htask hstop haborted hchild hquiet hholds hspawning
  | spawned hspawning hholds _ => exact h.spawned htask hstop haborted hspawning hholds
  | killed child hpoint hholds hnext => exact h.killed htask hstop haborted hpoint hholds hnext

end Move

theorem step (h : s.Tidy) {input : SirenInput} (horderly : s.orderly input)
    (hstep : s.step input = .ok s') : s'.Tidy := by
  cases input with
  | reconfigure programs cfg =>
      simp only [Sirens.step] at hstep
      split_ifs at hstep
      cases hstep
      exact ⟨h.current, h.stored, h.aborted, h.held, h.bound, h.fresh, h.starting⟩
  | stopSiren =>
      simp only [Sirens.step] at hstep
      split_ifs at hstep with hidle
      cases hstep
      simp only [idle, Bool.not_eq_true', Bool.not_eq_false, Bool.and_eq_true,
        Option.isNone_iff_eq_none] at hidle
      refine h.request hidle.1 le_rfl fun id command hcommand => ?_
      rw [hidle.2] at hcommand
      cases hcommand
  | startSiren programs path =>
      simp only [Sirens.step] at hstep
      split_ifs at hstep with hidle
      cases hstep
      simp only [idle, Bool.not_eq_true', Bool.not_eq_false, Bool.and_eq_true,
        Option.isNone_iff_eq_none] at hidle
      refine h.request hidle.1 (Nat.le_succ _) fun id command hcommand => ?_
      obtain ⟨command', hcommand', heq⟩ := Option.map_eq_some_iff.mp hcommand
      cases heq
      exact ⟨rfl, Nat.lt_succ_self _, startSiren_siren hcommand'⟩
  | call => exact h.call horderly hstep
  | move id m =>
      simp only [Sirens.step] at hstep
      split at hstep
      · cases hstep
      · rename_i task htask
        split at hstep
        · cases hstep
        · rename_i next hmove
          cases hstep
          exact h.move htask hmove horderly
  | exit player success =>
      simp only [Sirens.step] at hstep
      split at hstep <;> cases hstep
      · exact h.setPlayer nofun
      · exact h.setPlayer nofun

end Tidy

/-- What stopping the siren is for. -/
structure Silenced (s : Sirens) : Prop where
  dropped : ∀ id task, s.tasks id = some task → task.aborted → task.point.isOver →
    ∀ player, s.players player ≠ some ⟨id, .running⟩
  stopped : s.idle → s.sound.siren = none →
    (∀ id task, s.tasks id = some task → task.point.isOver) → ∀ player, ¬s.Sounds player
  atMostOne : ∀ player player', s.Sounds player → s.Sounds player' → player = player'

/-- As long as no task is aborted with a live player in its hands, a stopped siren is silent and no
two siren players sound at the same time. -/
theorem stopSiren_silences {programs : Programs} {cfg : Config} {inputs : List SirenInput}
    (hrun : RunIf step (fun s input => s.orderly input) (start programs cfg) inputs s) :
    s.Silenced := by
  have h : s.Tidy := hrun.invariant (.start programs cfg)
    fun _ _ _ htidy horderly hstep => htidy.step horderly hstep
  refine ⟨?_, ?_, fun _ _ => h.at_most_one⟩
  · intro id task htask hdead _ player hplayer
    obtain ⟨task', htask', hlive, -⟩ := h.not_aborted hplayer
    rw [htask] at htask'
    cases htask'
    rw [hdead] at hlive
    cases hlive
  · rintro hidle hsiren - player ⟨owner, hplayer⟩
    simp only [idle, Bool.and_eq_true, Option.isNone_iff_eq_none] at hidle
    obtain ⟨task, htask, hlive, -⟩ := h.not_aborted hplayer
    rcases h.current owner task htask hlive with ⟨call, hcall⟩ | ⟨-, -, hsome⟩
    · rw [hidle.1] at hcall
      cases hcall
    · rw [hsiren] at hsome
      cases hsome

/-- The condition is needed: a task that has been aborted with a player in its hands, and that the
executor is not polling, can only be dropped, and then its player plays on. -/
theorem drop_leaves_player {id child : ℕ} {task : SirenTask} (htask : s.tasks id = some task)
    (haborted : task.aborted) (hpolled : task.polled = false)
    (hholds : task.point.holds = some child) (hplayer : s.players child = some ⟨id, .running⟩) :
    (∀ m next, task.move s.status s.nextPlayer m = some next → m = .drop) ∧
      ∃ s', s.step (.move id .drop) = .ok s' ∧ ¬s'.Silenced := by
  have hover : task.point.isOver = false := by
    cases hpoint : task.point <;> first | rfl | (rw [hpoint] at hholds; cases hholds)
  constructor
  · intro m next hmove
    cases m with
    | drop => rfl
    | _ => simp [SirenTask.move, hpolled, haborted] at hmove
  · have hmove : task.move s.status s.nextPlayer .drop = some { task with point := .dropped } := by
      simp [SirenTask.move, hpolled, haborted, hover]
    refine ⟨(s.affect id task .drop).setTask id { task with point := .dropped }, ?_, ?_⟩
    · simp only [step, htask, hmove]
    · intro hsilenced
      have hdropped := hsilenced.dropped id { task with point := .dropped }
        (setTask_eq_some.mpr (.inl ⟨rfl, rfl⟩)) haborted rfl child
      exact hdropped hplayer

/-- The first alarm, up to where its task waits for the player it has spawned. -/
def alarm (task : ℕ) : List SirenInput :=
  [.startSiren (Bench.host "c1").programs ⟨"/usr/share/alertu/siren.wav"⟩, .call,
    .move task .poll, .move task .loadStop, .move task (.spawn true), .move task .select,
    .move task .suspend]

/-- Disarmed while the task waits: the abort comes before the task is polled again, so the player
of the first alarm plays on next to that of the second. -/
theorem stopSiren_orphans_player :
    ¬∀ (programs : Programs) (cfg : Config) (inputs : List SirenInput) (s : Sirens),
      Run step (start programs cfg) inputs s → s.Silenced := by
  intro h
  obtain ⟨s, hrun, hfirst, hsecond⟩ : ∃ s, Run step (start (Bench.host "c1").programs .default)
      (alarm 0 ++ [.stopSiren, .call, .call, .call, .move 0 .drop] ++ alarm 1) s ∧
      s.players 0 = some ⟨0, .running⟩ ∧ s.players 1 = some ⟨1, .running⟩ :=
    ⟨_, run_get (by decide +kernel), by decide +kernel⟩
  cases (h _ _ _ s hrun).atMostOne 0 1 ⟨0, hfirst⟩ ⟨1, hsecond⟩

/-- The same alarms, with the task polled between the wake-up and the abort. -/
theorem stopSiren_silences_two_alarms : ∃ s : Sirens, s.Silenced ∧
    s.players 0 = some ⟨0, .killed⟩ ∧ s.players 1 = some ⟨1, .running⟩ := by
  obtain ⟨s, hrun, hplayers⟩ : ∃ s, RunIf step (fun s input => s.orderly input)
      (start (Bench.host "c1").programs .default)
      (alarm 0 ++ [.stopSiren, .call, .call, .move 0 .poll, .move 0 .notified, .move 0 .kill,
        .move 0 .suspend, .call, .move 0 .drop] ++ alarm 1) s ∧
      s.players 0 = some ⟨0, .killed⟩ ∧ s.players 1 = some ⟨1, .running⟩ :=
    ⟨_, runIf_get (by decide +kernel), by decide +kernel⟩
  exact ⟨s, stopSiren_silences hrun, hplayers⟩

end Sirens

end AlertU

