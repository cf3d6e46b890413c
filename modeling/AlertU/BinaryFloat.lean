import Mathlib.Algebra.Order.Round
import Mathlib.Data.Int.Log
import Mathlib.Data.Rat.Floor
import Mathlib.Tactic.Linarith
import Mathlib.Tactic.Ring

/-! Rounding to the nearest number of a binary floating-point format, with `p` bits after the first one and a
least exponent. There is no largest exponent, so that nothing overflows. -/

namespace BinaryFloat

/-- The nearest integer, and of two the even one. -/
def roundEven (q : ℚ) : ℤ :=
  if Int.fract q < 1 / 2 then ⌊q⌋
  else if 1 / 2 < Int.fract q then ⌊q⌋ + 1
  else if Even ⌊q⌋ then ⌊q⌋ else ⌊q⌋ + 1

variable (p : ℕ) (least : ℤ)

/-- The exponent of the last bit of a number as large as `v`. -/
def exponent (v : ℚ) : ℤ := max (Int.log 2 |v| - p) least

def round (v : ℚ) : ℚ := roundEven (v / 2 ^ exponent p least v) * 2 ^ exponent p least v

/-- The numbers of the format. -/
def Representable (v : ℚ) : Prop := ∃ m k : ℤ, |m| ≤ 2 ^ (p + 1) ∧ least ≤ k ∧ v = m * 2 ^ k

variable {p : ℕ} {least : ℤ} {v : ℚ}

theorem roundEven_error (q : ℚ) :
    |q - roundEven q| ≤ Int.fract q ∧ |q - roundEven q| ≤ 1 - Int.fract q := by
  have hfloor : q - ⌊q⌋ = Int.fract q := Int.self_sub_floor q
  have hlow : 0 ≤ Int.fract q := Int.fract_nonneg q
  have hhigh : Int.fract q < 1 := Int.fract_lt_one q
  have hdown : |q - (⌊q⌋ : ℤ)| = Int.fract q := by rw [hfloor, abs_of_nonneg hlow]
  have hup : |q - (⌊q⌋ + 1 : ℤ)| = 1 - Int.fract q := by
    rw [Int.cast_add, Int.cast_one, abs_of_nonpos (by linarith)]
    linarith
  rw [roundEven]
  split_ifs with hless hmore heven
  · rw [hdown]
    exact ⟨le_rfl, by linarith⟩
  · rw [hup]
    exact ⟨by linarith, le_rfl⟩
  · rw [hdown]
    exact ⟨le_rfl, by linarith⟩
  · rw [hup]
    exact ⟨by linarith, le_rfl⟩

theorem roundEven_nearest (q : ℚ) (n : ℤ) : |q - roundEven q| ≤ |q - n| := by
  have hfloor : q - ⌊q⌋ = Int.fract q := Int.self_sub_floor q
  obtain ⟨hdown, hup⟩ := roundEven_error q
  rcases le_or_gt n ⌊q⌋ with hn | hn
  · have hcast : (n : ℚ) ≤ ⌊q⌋ := by exact_mod_cast hn
    exact hdown.trans (le_trans (by linarith) (le_abs_self (q - n)))
  · have hcast : (⌊q⌋ : ℚ) + 1 ≤ n := by exact_mod_cast hn
    exact hup.trans (le_trans (by linarith) (neg_le_abs (q - n)))

/-- A number between two integers is rounded to one between them. -/
theorem abs_roundEven_le {q : ℚ} {n : ℕ} (h : |q| ≤ n) : |roundEven q| ≤ n := by
  obtain ⟨hlow, hhigh⟩ := abs_le.mp h
  have hbelow : |q - roundEven q| ≤ q + n := by
    have hnearest := roundEven_nearest q (-n)
    rw [Int.cast_neg, Int.cast_natCast, sub_neg_eq_add, abs_of_nonneg (a := q + n) (by linarith)] at hnearest
    exact hnearest
  have habove : |q - roundEven q| ≤ n - q := by
    have hnearest := roundEven_nearest q n
    rw [Int.cast_natCast, abs_of_nonpos (a := q - n) (by linarith)] at hnearest
    linarith
  have hleft := (abs_le.mp hbelow).2
  have hright := (abs_le.mp habove).1
  rw [abs_le]
  constructor
  · have hcast : (-n : ℚ) ≤ roundEven q := by linarith
    exact_mod_cast hcast
  · have hcast : (roundEven q : ℚ) ≤ n := by linarith
    exact_mod_cast hcast

/-- Going to the nearest of some numbers keeps the order. -/
theorem monotone_of_nearest {f : ℚ → ℚ} {S : ℚ → Prop} (hmem : ∀ v, S (f v))
    (hnearest : ∀ v s, S s → |v - f v| ≤ |v - s|) : Monotone f := by
  intro v w hvw
  by_contra hnot
  rw [not_le] at hnot
  have hne : v < w := lt_of_le_of_ne hvw fun heq => absurd hnot (by rw [heq]; exact lt_irrefl _)
  have hv := sq_le_sq.mpr (hnearest v (f w) (hmem w))
  have hw := sq_le_sq.mpr (hnearest w (f v) (hmem v))
  nlinarith [mul_pos (sub_pos.mpr hnot) (sub_pos.mpr hne)]

theorem abs_div_le (v : ℚ) : |v / 2 ^ exponent p least v| ≤ (2 ^ (p + 1) : ℕ) := by
  have hpos : (0 : ℚ) < 2 ^ exponent p least v := zpow_pos two_pos _
  rw [abs_div, abs_of_pos hpos, div_le_iff₀ hpos, Nat.cast_pow, Nat.cast_ofNat, ← zpow_natCast,
    ← zpow_add₀ two_ne_zero]
  have hlog : |v| < (2 : ℕ) ^ (Int.log 2 |v| + 1) := Int.lt_zpow_succ_log_self one_lt_two |v|
  refine hlog.le.trans ?_
  rw [Nat.cast_ofNat]
  refine zpow_le_zpow_right₀ one_le_two ?_
  have := le_max_left (Int.log 2 |v| - p) least
  rw [exponent]
  omega

theorem representable_round (v : ℚ) : Representable p least (round p least v) := by
  refine ⟨_, _, ?_, le_max_right _ _, rfl⟩
  exact_mod_cast abs_roundEven_le (abs_div_le v)

/-- No multiple of the last bit is nearer. -/
theorem round_nearest_multiple (v : ℚ) (n : ℤ) :
    |v - round p least v| ≤ |v - n * 2 ^ exponent p least v| := by
  have hpos : (0 : ℚ) < 2 ^ exponent p least v := zpow_pos two_pos _
  have hscale : ∀ m : ℤ, |v - m * 2 ^ exponent p least v| =
      |v / 2 ^ exponent p least v - m| * 2 ^ exponent p least v := by
    intro m
    rw [← abs_of_pos hpos, abs_of_pos hpos, ← abs_of_pos hpos, ← abs_mul, abs_of_pos hpos, sub_mul,
      div_mul_cancel₀ v hpos.ne']
  rw [round, hscale, hscale]
  exact mul_le_mul_of_nonneg_right (roundEven_nearest _ n) hpos.le

/-- The numbers with a finer last bit are nearer to zero than `v`, and than the power of two below it. -/
theorem abs_le_zpow_log {m k : ℤ} (hm : |m| ≤ 2 ^ (p + 1)) (hcoarse : k < Int.log 2 |v| - p) :
    |(m : ℚ) * 2 ^ k| ≤ 2 ^ Int.log 2 |v| := by
  have hpos : (0 : ℚ) < 2 ^ k := zpow_pos two_pos _
  have hcast : |(m : ℚ)| ≤ 2 ^ (p + 1) := by exact_mod_cast hm
  rw [abs_mul, abs_of_pos hpos]
  calc |(m : ℚ)| * 2 ^ k ≤ 2 ^ (p + 1) * 2 ^ k := mul_le_mul_of_nonneg_right hcast hpos.le
    _ = 2 ^ ((p + 1 : ℕ) + k) := by rw [zpow_add₀ two_ne_zero, zpow_natCast]
    _ ≤ 2 ^ Int.log 2 |v| := zpow_le_zpow_right₀ one_le_two (by omega)

/-- The power of two below `v` is a multiple of its last bit. -/
theorem round_nearest_power (hv : v ≠ 0) (hexponent : exponent p least v = Int.log 2 |v| - p) :
    |v - round p least v| ≤ |v| - 2 ^ Int.log 2 |v| := by
  have hpower : (2 : ℚ) ^ Int.log 2 |v| ≤ |v| := by
    have hself := Int.zpow_log_le_self one_lt_two (abs_pos.mpr hv)
    rwa [Nat.cast_ofNat] at hself
  have hscaled : (2 : ℚ) ^ p * 2 ^ exponent p least v = 2 ^ Int.log 2 |v| := by
    rw [hexponent, ← zpow_natCast, ← zpow_add₀ two_ne_zero]
    congr 1
    omega
  rcases le_total 0 v with hsign | hsign
  · have hnearest := @round_nearest_multiple p least v (2 ^ p)
    rw [abs_of_nonneg hsign] at hpower hscaled ⊢
    rw [Int.cast_pow, Int.cast_ofNat, hscaled, abs_of_nonneg (sub_nonneg.mpr hpower)] at hnearest
    exact hnearest
  · have hnearest := @round_nearest_multiple p least v (-2 ^ p)
    rw [abs_of_nonpos hsign] at hpower hscaled ⊢
    rw [Int.cast_neg, Int.cast_pow, Int.cast_ofNat, neg_mul, hscaled, sub_neg_eq_add] at hnearest
    rw [abs_of_nonpos (a := v + _) (by linarith)] at hnearest
    linarith

/-- No number of the format is nearer. -/
theorem round_nearest (v s : ℚ) (hs : Representable p least s) : |v - round p least v| ≤ |v - s| := by
  obtain ⟨m, k, hm, hk, rfl⟩ := hs
  rcases le_or_gt (exponent p least v) k with hfine | hcoarse
  · obtain ⟨d, hd⟩ := Int.eq_ofNat_of_zero_le (sub_nonneg.mpr hfine)
    have hmultiple : (m : ℚ) * 2 ^ k = (m * 2 ^ d : ℤ) * 2 ^ exponent p least v := by
      rw [show k = d + exponent p least v by omega, zpow_add₀ two_ne_zero, zpow_natCast]
      push_cast
      ring
    rw [hmultiple]
    exact round_nearest_multiple v _
  · by_cases hzero : v = 0
    · subst hzero
      have hround : round p least 0 = 0 := by simp [round, roundEven]
      rw [hround, sub_self, abs_zero]
      exact abs_nonneg _
    · have hexponent : exponent p least v = Int.log 2 |v| - p := by
        rw [exponent] at hcoarse ⊢
        omega
      have hsmall := abs_le_zpow_log hm (hexponent ▸ hcoarse)
      have hpower := @round_nearest_power p least v hzero hexponent
      have hsub := abs_sub_abs_le_abs_sub v (m * 2 ^ k)
      linarith

theorem round_eq_self (hv : Representable p least v) : round p least v = v := by
  have hnearest := round_nearest v v hv
  rw [sub_self, abs_zero] at hnearest
  exact (sub_eq_zero.mp (abs_nonpos_iff.mp hnearest)).symm

theorem round_mono : Monotone (round p least) := monotone_of_nearest representable_round round_nearest

theorem representable_int {n : ℤ} (hn : |n| ≤ 2 ^ (p + 1)) (hleast : least ≤ 0) : Representable p least n :=
  ⟨n, 0, hn, hleast, by rw [zpow_zero, mul_one]⟩

end BinaryFloat
