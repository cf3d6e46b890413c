import AlertU.Sound
import Mathlib.Logic.Function.Basic

/-! The task behind a looping siren. `siren_loop` is cut at every point where another thread can come
in between: what the executor does with the task (poll, suspend, drop) and every step of its body.
A task that has been aborted is dropped the next time it is suspended, and dropping it leaves its
player alone. -/

namespace AlertU

/-- Consecutive playback failures after which the siren gives up. -/
def SIREN_MAX_FAILURES : ℕ := 3

/-- A player process that a siren has spawned; `killed` once it has been sent the signal. -/
inductive PlayerStatus where
  | running
  | killed
  | exited (success : Bool)
  deriving DecidableEq, Repr

/-- Where `siren_loop` stands; `child` is the player in its hands. -/
inductive Point where
  | head (failures : ℕ)
  | spawning (failures : ℕ)
  | launched (child failures : ℕ)
  | waiting (child failures : ℕ) (notified : Bool)
  | draining (failures : ℕ)
  | retrying (failures : ℕ)
  | killing (child : ℕ)
  | reaping (child : ℕ)
  | finished
  | dropped
  deriving DecidableEq, Repr

namespace Point

/-- The points at which the task waits. -/
def isAwait : Point → Bool
  | .waiting _ _ _ | .draining _ | .retrying _ | .reaping _ => true
  | _ => false

def isOver : Point → Bool
  | .finished | .dropped => true
  | _ => false

/-- The player that the task has spawned and not yet killed or seen exit. -/
def holds : Point → Option ℕ
  | .launched child _ | .waiting child _ _ | .killing child => some child
  | _ => none

/-- Past the check of the flag, on the way to the next player. -/
def isSpawning : Point → Bool
  | .spawning _ => true
  | _ => false

end Point

structure SirenTask where
  command : Command
  stop : Bool
  aborted : Bool
  polled : Bool
  point : Point
  deriving DecidableEq, Repr

/-- One move of a siren task, by the executor or by its own body. -/
inductive Move where
  | poll
  | suspend
  | drop
  | loadStop
  | spawn (ok : Bool)
  | select
  | childExited
  | waitFailed
  | notified
  | drained
  | retried
  | kill
  | reaped
  deriving DecidableEq, Repr

namespace SirenTask

/-- `tokio::spawn(siren_loop(..))`: nothing has run yet. -/
def new (command : Command) : SirenTask := ⟨command, false, false, false, .head 0⟩

/-- The body of `siren_loop`, between two points. `status` is the process table and `fresh` the next
process. -/
def advance (task : SirenTask) (status : ℕ → Option PlayerStatus) (fresh : ℕ) :
    Move → Option Point
  | .loadStop =>
      match task.point with
      | .head failures => some (if task.stop then .finished else .spawning failures)
      | _ => none
  | .spawn ok =>
      match task.point with
      | .spawning failures => some (if ok then .launched fresh failures else .finished)
      | _ => none
  | .select =>
      match task.point with
      | .launched child failures => some (.waiting child failures false)
      | _ => none
  | .childExited =>
      match task.point with
      | .waiting child failures _ =>
          match status child with
          | some (.exited true) => some (.head 0)
          | some (.exited false) => some (.draining (failures + 1))
          | _ => none
      | _ => none
  | .waitFailed =>
      match task.point with
      | .waiting _ _ _ => some .finished
      | _ => none
  | .notified =>
      match task.point with
      | .waiting child _ true => some (.killing child)
      | _ => none
  | .drained =>
      match task.point with
      | .draining failures =>
          some (if SIREN_MAX_FAILURES ≤ failures then .finished else .retrying failures)
      | _ => none
  | .retried =>
      match task.point with
      | .retrying failures => some (.head failures)
      | _ => none
  | .kill =>
      match task.point with
      | .killing child => some (.reaping child)
      | _ => none
  | .reaped =>
      match task.point with
      | .reaping _ => some .finished
      | _ => none
  | .poll | .suspend | .drop => none

/-- One move of the task; none where the move is not possible. -/
def move (task : SirenTask) (status : ℕ → Option PlayerStatus) (fresh : ℕ) (m : Move) :
    Option SirenTask :=
  match m with
  | .poll =>
      if task.polled || task.aborted || task.point.isOver then none
      else some { task with polled := true }
  | .suspend => if task.polled && task.point.isAwait then some { task with polled := false } else none
  | .drop =>
      if task.polled || !task.aborted || task.point.isOver then none
      else some { task with point := .dropped }
  | m =>
      if task.polled then
        (task.advance status fresh m).map fun point => { task with point }
      else none

/-- `Notify::notify_waiters`: wakes the `select!` whose `notified()` exists; it leaves no permit. -/
def notifyWaiters (task : SirenTask) : SirenTask :=
  match task.point with
  | .waiting child failures _ => { task with point := .waiting child failures true }
  | _ => task

section NotifyWaiters

variable (task : SirenTask)

@[simp] theorem notifyWaiters_stop : task.notifyWaiters.stop = task.stop := by
  unfold notifyWaiters
  split <;> rfl

@[simp] theorem notifyWaiters_aborted : task.notifyWaiters.aborted = task.aborted := by
  unfold notifyWaiters
  split <;> rfl

@[simp] theorem notifyWaiters_holds : task.notifyWaiters.point.holds = task.point.holds := by
  unfold notifyWaiters
  split
  · rename_i hpoint
    rw [hpoint]
    rfl
  · rfl

@[simp] theorem notifyWaiters_isSpawning :
    task.notifyWaiters.point.isSpawning = task.point.isSpawning := by
  unfold notifyWaiters
  split
  · rename_i hpoint
    rw [hpoint]
    rfl
  · rfl

end NotifyWaiters

/-- What a move does to the player in the task's hands. -/
inductive Moved (status : ℕ → Option PlayerStatus) (fresh : ℕ) (task next : SirenTask) :
    Move → Prop where
  | kept (m : Move) (hspawn : m ≠ .spawn true) (hkill : m ≠ .kill)
      (hholds : next.point.holds = task.point.holds)
      (hspawning : next.point.isSpawning → task.point.isSpawning ∨ task.stop = false) :
      Moved status fresh task next m
  | released (m : Move) (child : ℕ) (hspawn : m ≠ .spawn true) (hkill : m ≠ .kill)
      (hchild : task.point.holds = some child) (hholds : next.point.holds = none)
      (hspawning : next.point.isSpawning = false)
      (hwhy : status child ≠ some .running ∨ m = .waitFailed ∨ (m = .drop ∧ task.aborted)) :
      Moved status fresh task next m
  | spawned (hspawning : task.point.isSpawning) (hholds : next.point.holds = some fresh)
      (hnext : next.point.isSpawning = false) : Moved status fresh task next (.spawn true)
  | killed (child : ℕ) (hpoint : task.point = .killing child) (hholds : next.point.holds = none)
      (hnext : next.point.isSpawning = false) : Moved status fresh task next .kill

variable {status : ℕ → Option PlayerStatus} {fresh : ℕ} {task next : SirenTask}

theorem advance_moved {m : Move} {point : Point} (h : task.advance status fresh m = some point) :
    Moved status fresh task { task with point } m := by
  cases m with
  | poll | suspend | drop => cases h
  | spawn ok =>
      simp only [advance] at h
      split at h
      · rename_i hpoint
        cases ok with
        | true =>
            cases h
            exact .spawned (by rw [hpoint]; rfl) rfl rfl
        | false =>
            cases h
            exact .kept _ nofun nofun (by rw [hpoint]; rfl) nofun
      · cases h
  | loadStop =>
      simp only [advance] at h
      split at h
      · rename_i hpoint
        cases h
        refine .kept _ nofun nofun ?_ ?_
        · rw [hpoint]
          split_ifs <;> rfl
        · intro hspawning
          split_ifs at hspawning with hstop
          · cases hspawning
          · exact .inr (Bool.eq_false_iff.mpr hstop)
      · cases h
  | select | notified | retried | reaped =>
      simp only [advance] at h
      split at h
      · rename_i hpoint
        cases h
        exact .kept _ nofun nofun (by rw [hpoint]; rfl) nofun
      · cases h
  | drained =>
      simp only [advance] at h
      split at h
      · rename_i hpoint
        cases h
        refine .kept _ nofun nofun ?_ ?_
        · rw [hpoint]
          split_ifs <;> rfl
        · intro hspawning
          split_ifs at hspawning <;> cases hspawning
      · cases h
  | childExited =>
      simp only [advance] at h
      split at h
      · rename_i child _ _ hpoint
        split at h
        all_goals
          first
          | cases h; done
          | rename_i hstatus
            cases h
            exact .released _ child nofun nofun (by rw [hpoint]; rfl) rfl rfl
              (.inl (by rw [hstatus]; nofun))
      · cases h
  | waitFailed =>
      simp only [advance] at h
      split at h
      · rename_i child _ _ hpoint
        cases h
        exact .released _ child nofun nofun (by rw [hpoint]; rfl) rfl rfl (.inr (.inl rfl))
      · cases h
  | kill =>
      simp only [advance] at h
      split at h
      · rename_i child hpoint
        cases h
        exact .killed child hpoint rfl rfl
      · cases h

/-- The inversion of `move`. -/
theorem move_cases {m : Move} (h : task.move status fresh m = some next) :
    next.stop = task.stop ∧ next.aborted = task.aborted ∧ Moved status fresh task next m := by
  have hbody (h : (if task.polled then (task.advance status fresh m).map fun point =>
      { task with point } else none) = some next) :
      next.stop = task.stop ∧ next.aborted = task.aborted ∧ Moved status fresh task next m := by
    split_ifs at h
    obtain ⟨point, hpoint, rfl⟩ := Option.map_eq_some_iff.mp h
    exact ⟨rfl, rfl, advance_moved hpoint⟩
  cases m with
  | poll =>
      simp only [move] at h
      split_ifs at h
      cases h
      exact ⟨rfl, rfl, .kept _ nofun nofun rfl .inl⟩
  | suspend =>
      simp only [move] at h
      split_ifs at h
      cases h
      exact ⟨rfl, rfl, .kept _ nofun nofun rfl .inl⟩
  | drop =>
      simp only [move] at h
      split_ifs at h with hguard
      cases h
      refine ⟨rfl, rfl, ?_⟩
      have haborted : task.aborted := by
        simp only [Bool.or_eq_true, Bool.not_eq_true', not_or, Bool.not_eq_false] at hguard
        exact hguard.1.2
      cases hchild : task.point.holds with
      | none => exact .kept _ nofun nofun hchild.symm nofun
      | some child =>
          exact .released _ child nofun nofun hchild rfl rfl (.inr (.inr ⟨rfl, haborted⟩))
  | loadStop | spawn _ | select | childExited | waitFailed | notified | drained | retried | kill
  | reaped => exact hbody h

end SirenTask

end AlertU
