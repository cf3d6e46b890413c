import Mathlib.Algebra.Group.Nat.Defs
import Mathlib.Order.Monotone.Basic
import Mathlib.Order.Lattice

/-! Instants and durations of a monotonic clock, in nanoseconds. An `Instant` is a `timespec` whose
seconds fit in an `i64`; adding a duration that leaves this range has no result, and the standard
library's `+` panics there. -/

namespace Timing

def nanosPerSec : ℕ := 1000000000

/-- `Duration::from_secs`; a duration is a number of nanoseconds. -/
def fromSecs (secs : UInt64) : ℕ := secs.toNat * nanosPerSec

/-- `Duration::from_millis`. -/
def fromMillis (millis : UInt64) : ℕ := millis.toNat * 1000000

/-- A point in time, counted from the clock's origin; its seconds fit in an `i64`. -/
@[ext]
structure Instant where
  nanos : ℕ
  fits : nanos / nanosPerSec < 2 ^ 63
  deriving DecidableEq, Repr

namespace Instant

theorem nanos_injective : Function.Injective Instant.nanos := fun _ _ h => Instant.ext h

instance : LinearOrder Instant := LinearOrder.lift' Instant.nanos nanos_injective

theorem le_iff {a b : Instant} : a ≤ b ↔ a.nanos ≤ b.nanos := Iff.rfl

/-- `Instant::checked_add`; `Instant + Duration` panics where this is `none`. -/
def checkedAdd (a : Instant) (d : ℕ) : Option Instant :=
  if h : (a.nanos + d) / nanosPerSec < 2 ^ 63 then some ⟨a.nanos + d, h⟩ else none

theorem checkedAdd_eq_some {a b : Instant} {d : ℕ} :
    a.checkedAdd d = some b ↔ b.nanos = a.nanos + d := by
  unfold checkedAdd
  constructor
  · split_ifs with h
    · intro heq
      cases heq
      rfl
    · intro heq
      cases heq
  · intro hb
    have hfits : (a.nanos + d) / nanosPerSec < 2 ^ 63 := by
      rw [← hb]
      exact b.fits
    rw [dif_pos hfits]
    exact congrArg some (Instant.ext hb.symm)

theorem checkedAdd_eq_none {a : Instant} {d : ℕ} :
    a.checkedAdd d = none ↔ 2 ^ 63 ≤ (a.nanos + d) / nanosPerSec := by
  unfold checkedAdd
  split_ifs with h
  · simp only [false_iff, not_le]
    exact h
  · simp only [true_iff]
    exact not_lt.mp h

/-- Time passed since an earlier instant, zero when it lies in the future. -/
def elapsedSince (now earlier : Instant) : ℕ := now.nanos - earlier.nanos

end Instant

/-- The successive readings of a monotonic clock. The kernel keeps it in a `ktime_t`, a signed
64-bit number of nanoseconds. -/
structure Clock where
  read : ℕ → Instant
  mono : Monotone read
  ktime : ∀ n, (read n).nanos < 2 ^ 63

/-- A delay of at most `2 ^ 62` seconds can be added to any reading of a clock. -/
theorem Clock.checkedAdd_isSome (clock : Clock) (n : ℕ) {d : ℕ}
    (hd : d ≤ 2 ^ 62 * nanosPerSec) : ((clock.read n).checkedAdd d).isSome := by
  have hk := clock.ktime n
  rw [Option.isSome_iff_ne_none, Ne, Instant.checkedAdd_eq_none, not_le, nanosPerSec]
  rw [nanosPerSec] at hd
  omega

end Timing
