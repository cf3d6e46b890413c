import Mathlib.Algebra.Group.Nat.Defs
import Mathlib.Data.List.DropRight
import Mathlib.Data.Nat.Notation

/-! Trying again after failures: what has happened since a count was last reset, and delays that double up
to a ceiling. -/

namespace Retry

variable {α : Type} {p reset : α → Bool} {log : List α} {a : α}

/-- How many of the events since the last one that resets the count are of the kind `p`. -/
def count (p reset : α → Bool) (log : List α) : ℕ :=
  (log.rtakeWhile fun a => !reset a).countP p

theorem count_of_reset (h : reset a) : count p reset (log ++ [a]) = 0 := by
  rw [count, List.rtakeWhile_concat_neg _ _ _ (by simp [h])]
  rfl

theorem count_of_pos (h : reset a = false) (hp : p a) :
    count p reset (log ++ [a]) = count p reset log + 1 := by
  rw [count, List.rtakeWhile_concat_pos _ _ _ (by simp [h]), List.countP_append,
    List.countP_singleton, if_pos hp]
  rfl

theorem count_of_neg (h : reset a = false) (hp : p a = false) :
    count p reset (log ++ [a]) = count p reset log := by
  rw [count, List.rtakeWhile_concat_pos _ _ _ (by simp [h]), List.countP_append,
    List.countP_singleton, if_neg (by simp [hp])]
  rfl

/-- The delay after `k` retries: it starts at `initial` and doubles, up to `ceiling`. -/
def delay (initial ceiling k : ℕ) : ℕ := min (initial * 2 ^ k) ceiling

theorem delay_zero {initial ceiling : ℕ} (h : initial ≤ ceiling) : delay initial ceiling 0 = initial := by
  rw [delay, Nat.pow_zero, Nat.mul_one, Nat.min_eq_left h]

/-- Doubling and capping the delay is the delay after one more retry. -/
theorem min_delay_mul_two (initial ceiling k : ℕ) :
    min (delay initial ceiling k * 2) ceiling = delay initial ceiling (k + 1) := by
  rw [delay, delay, Nat.pow_succ, ← Nat.mul_assoc]
  omega

end Retry
