import Mathlib.Algebra.Group.Nat.Defs
import Mathlib.Data.Int.Notation
import Mathlib.Data.List.Basic
import Mathlib.Tactic.SplitIfs

/-! Local time as `struct tm` breaks it down, and its text as `chrono` formats it. The text of a civil
second determines the second. -/

namespace Calendar

/-- The digits of a number, filled up with noughts to a width. -/
def padded (width n : ℕ) : List Char := (Nat.toDigits 10 n).leftpad width '0'

theorem padded_injective (width : ℕ) : Function.Injective (padded width) := by
  intro n m h
  have hvalue : ∀ n, Nat.ofDigitChars 10 (padded width n) 0 = n := fun n => by
    rw [padded, List.leftpad, Nat.ofDigitChars_append, Nat.ofDigitChars_replicate_zero, Nat.mul_zero,
      Nat.ofDigitChars_ten_toDigits]
  calc n = Nat.ofDigitChars 10 (padded width n) 0 := (hvalue n).symm
    _ = Nat.ofDigitChars 10 (padded width m) 0 := by rw [h]
    _ = m := hvalue m

theorem length_padded {width n : ℕ} (hwidth : 0 < width) (h : n < 10 ^ width) :
    (padded width n).length = width := by
  have hle : (Nat.toDigits 10 n).length ≤ width :=
    (Nat.length_toDigits_le_iff (by omega) hwidth).mpr h
  rw [padded, List.leftpad, List.length_append, List.length_replicate]
  omega

theorem isDigit_of_mem_padded {width n : ℕ} {c : Char} (h : c ∈ padded width n) : c.isDigit := by
  rcases List.mem_append.mp h with h | h
  · rw [List.eq_of_mem_replicate h]
    rfl
  · exact Nat.isDigit_of_mem_toDigits (by omega) (by omega) h

/-- A civil second. -/
structure Tm where
  year : ℤ
  month : Fin 13
  day : Fin 32
  hour : Fin 24
  minute : Fin 60
  second : Fin 61
  deriving DecidableEq, Repr, Inhabited

/-- A civil second that came twice in the zones that went back by an hour that night. -/
def turnBack : Tm := ⟨2024, 10, 27, 2, 30, 0⟩

/-- The sign of a year that four digits do not hold. -/
def yearSign (year : ℤ) : List Char :=
  if 0 ≤ year ∧ year < 10000 then [] else if 0 ≤ year then ['+'] else ['-']

/-- `%Y`. -/
def yearText (year : ℤ) : List Char := yearSign year ++ padded 4 year.natAbs

/-- `%m%d-%H%M%S`. -/
def Tm.restText (t : Tm) : List Char :=
  padded 2 t.month ++ (padded 2 t.day ++ ('-' :: (padded 2 t.hour ++
    (padded 2 t.minute ++ padded 2 t.second))))

/-- `%Y%m%d-%H%M%S`. -/
def Tm.stamp (t : Tm) : List Char := yearText t.year ++ t.restText

theorem filter_isDigit_padded (width n : ℕ) : (padded width n).filter Char.isDigit = padded width n :=
  List.filter_eq_self.mpr fun _ hc => isDigit_of_mem_padded hc

theorem filter_isDigit_yearSign (year : ℤ) : (yearSign year).filter Char.isDigit = [] := by
  unfold yearSign
  split_ifs <;> rfl

theorem minus_mem_yearText (year : ℤ) : '-' ∈ yearText year ↔ year < 0 := by
  have hdigits : '-' ∉ padded 4 year.natAbs := fun h => by
    have := isDigit_of_mem_padded h
    cases this
  rw [yearText, List.mem_append, or_iff_left hdigits, yearSign]
  split_ifs with hplain hpositive
  · exact iff_of_false List.not_mem_nil (by omega)
  · exact iff_of_false (by decide) (by omega)
  · exact iff_of_true (by decide) (by omega)

theorem yearText_injective : Function.Injective yearText := by
  intro y z h
  have habs : y.natAbs = z.natAbs := by
    have := congrArg (List.filter Char.isDigit) h
    simp only [yearText, List.filter_append, filter_isDigit_yearSign, filter_isDigit_padded,
      List.nil_append] at this
    exact padded_injective 4 this
  have hsign : y < 0 ↔ z < 0 := by rw [← minus_mem_yearText, h, minus_mem_yearText]
  omega

theorem Tm.length_restText (t : Tm) : t.restText.length = 11 := by
  have htwo : ∀ {n : ℕ}, n < 100 → (padded 2 n).length = 2 := fun h => length_padded (by omega) h
  simp only [Tm.restText, List.length_append, List.length_cons]
  rw [htwo (by omega), htwo (by omega), htwo (by omega), htwo (by omega), htwo (by omega)]

theorem Tm.restText_injective {t u : Tm} (h : t.restText = u.restText) :
    t.month = u.month ∧ t.day = u.day ∧ t.hour = u.hour ∧ t.minute = u.minute ∧
      t.second = u.second := by
  have hlength : ∀ {n m : ℕ}, n < 100 → m < 100 → (padded 2 n).length = (padded 2 m).length :=
    fun hn hm => (length_padded (by omega) hn).trans (length_padded (by omega) hm).symm
  obtain ⟨hmonth, h⟩ := List.append_inj h (hlength (by omega) (by omega))
  obtain ⟨hday, h⟩ := List.append_inj h (hlength (by omega) (by omega))
  obtain ⟨hhour, h⟩ := List.append_inj (List.cons_inj_right '-' |>.mp h) (hlength (by omega) (by omega))
  obtain ⟨hminute, hsecond⟩ := List.append_inj h (hlength (by omega) (by omega))
  exact ⟨Fin.ext (padded_injective 2 hmonth), Fin.ext (padded_injective 2 hday),
    Fin.ext (padded_injective 2 hhour), Fin.ext (padded_injective 2 hminute),
    Fin.ext (padded_injective 2 hsecond)⟩

/-- Two civil seconds with one text are one. -/
theorem Tm.stamp_injective : Function.Injective Tm.stamp := by
  intro t u h
  obtain ⟨hyear, hrest⟩ :=
    List.append_inj' h (t.length_restText.trans u.length_restText.symm)
  obtain ⟨hmonth, hday, hhour, hminute, hsecond⟩ := Tm.restText_injective hrest
  cases t
  cases u
  simp only [Tm.mk.injEq]
  exact ⟨yearText_injective hyear, hmonth, hday, hhour, hminute, hsecond⟩

/-- The text is made of digits and signs. -/
theorem Tm.mem_stamp {t : Tm} {c : Char} (h : c ∈ t.stamp) : c.isDigit ∨ c = '+' ∨ c = '-' := by
  have hsign : ∀ {year : ℤ}, c ∈ yearSign year → c = '+' ∨ c = '-' := by
    intro year hc
    unfold yearSign at hc
    split_ifs at hc
    · cases hc
    · exact .inl (List.mem_singleton.mp hc)
    · exact .inr (List.mem_singleton.mp hc)
  simp only [Tm.stamp, yearText, Tm.restText, List.mem_append, List.mem_cons] at h
  rcases h with (h | h) | h | h | rfl | h | h | h
  · exact .inr (hsign h)
  all_goals first
    | exact .inl (isDigit_of_mem_padded h)
    | exact .inr (.inr rfl)

end Calendar
