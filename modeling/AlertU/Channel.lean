import Mathlib.Data.Nat.Notation
import Mathlib.Tactic.SplitIfs

/-! The single-value channel of tokio's `sync::watch`. The sender overwrites the value and bumps its
version; with no receiver left `send` fails and the channel keeps the old value. A receiver is the
version that it has marked as seen: it is notified once the channel has another one. -/

namespace Channel

structure Watch (α : Type*) where
  value : α
  version : ℕ
  receivers : ℕ
  deriving Repr

variable {α : Type*}

/-- `watch::channel`: the value at hand, and the one receiver handed out beside the sender. -/
def watch (a : α) : Watch α := ⟨a, 0, 1⟩

/-- `watch::Sender::send`. -/
def Watch.send (w : Watch α) (a : α) : Watch α :=
  if w.receivers = 0 then w else { w with value := a, version := w.version + 1 }

@[simp]
theorem Watch.send_receivers (w : Watch α) (a : α) : (w.send a).receivers = w.receivers := by
  unfold send
  split_ifs <;> rfl

theorem Watch.send_value (w : Watch α) (a : α) (h : w.receivers ≠ 0) : (w.send a).value = a := by
  rw [send, if_neg h]

/-- `Receiver::changed` returns at once. -/
def Watch.flagged (w : Watch α) (seen : ℕ) : Bool := w.version ≠ seen

/-- The channel `w` has become `w'`, by any number of sends. -/
structure Watch.Becomes (w w' : Watch α) : Prop where
  version : w.version ≤ w'.version
  value : w'.version = w.version → w'.value = w.value

theorem Watch.becomes_self (w : Watch α) : w.Becomes w := ⟨Nat.le_refl _, fun _ => rfl⟩

theorem Watch.becomes_send (w : Watch α) (a : α) : w.Becomes (w.send a) := by
  unfold send
  split_ifs
  · exact w.becomes_self
  · refine ⟨Nat.le_succ _, fun hsame => ?_⟩
    exact absurd hsame (Nat.succ_ne_self _)

/-- A receiver that has marked the version `seen` and has last passed on `shown`: unless it is flagged,
that is the value of the channel. -/
structure Watch.Shown (w : Watch α) (seen : ℕ) (shown : Option α) : Prop where
  marked : seen ≤ w.version
  current : w.flagged seen = false → ∀ a, shown = some a → a = w.value

variable {w w' : Watch α} {seen : ℕ} {shown : Option α}

/-- Whatever is sent meanwhile, a receiver that has not been flagged has missed nothing. -/
theorem Watch.Shown.becomes (h : w.Shown seen shown) (hnext : w.Becomes w') :
    w'.Shown seen shown := by
  refine ⟨Nat.le_trans h.marked hnext.version, fun hquiet a ha => ?_⟩
  have hsame : w'.version = seen := by simpa [flagged] using hquiet
  have hversion : w.version = seen := by
    have := h.marked
    have := hnext.version
    omega
  rw [hnext.value (hsame.trans hversion.symm)]
  exact h.current (by simp [flagged, hversion]) a ha

/-- Passing on the value that is read leaves a receiver up to date, even if it marks nothing. -/
theorem Watch.Shown.read (h : w.Shown seen shown) : w.Shown seen (some w.value) :=
  ⟨h.marked, fun _ _ ha => (Option.some.inj ha).symm⟩

/-- Marking the version before anything is passed on. -/
theorem Watch.shown_none (w : Watch α) : w.Shown w.version none := ⟨Nat.le_refl _, nofun⟩

end Channel
