import HstongApi.Clock
import Mathlib.Tactic.NormNum

/-!
# Durations of 64 bits

The numbers of nanoseconds that fit an `int64`. Doubling wraps around from `2 ^ 62` on, and then the
result is negative; half of a duration that is not negative is rounded down.
-/

namespace HstongApi.Durations

variable {d : Int64}

theorem toInt_le_iff {e : Int64} : d.toInt ≤ e.toInt ↔ d ≤ e := Int64.le_iff_toInt_le.symm

theorem pos_iff : 0 < d ↔ 0 < d.toInt := Int64.lt_iff_toInt_lt

theorem nonpos_iff : d ≤ 0 ↔ d.toInt ≤ 0 := Int64.le_iff_toInt_le

theorem bmod_of_fits {n : ℤ} (hmin : -2 ^ 63 ≤ n) (hmax : n < 2 ^ 63) : n.bmod (2 ^ 64) = n :=
  Int.bmod_eq_of_le (by norm_num; omega) (by norm_num; omega)

@[simp] theorem toInt_two : (2 : Int64).toInt = 2 := by decide

/-- Doubling a small duration. -/
theorem toInt_double (hpos : 0 ≤ d.toInt) (hlt : d.toInt < 2 ^ 62) :
    (d * 2).toInt = d.toInt * 2 := by
  rw [Int64.toInt_mul, toInt_two]
  exact bmod_of_fits (by omega) (by omega)

/-- Doubling a large duration wraps around. -/
theorem toInt_double_of_le (hle : 2 ^ 62 ≤ d.toInt) : (d * 2).toInt = d.toInt * 2 - 2 ^ 64 := by
  have hmax := d.toInt_lt
  have hwrap : (d.toInt * 2).bmod (2 ^ 64) = (d.toInt * 2 - 2 ^ 64).bmod (2 ^ 64) := by
    rw [← Int.add_bmod_right (d.toInt * 2 - 2 ^ 64)]
    norm_num
  rw [Int64.toInt_mul, toInt_two, hwrap]
  exact bmod_of_fits (by omega) (by omega)

/-- **The double of a positive duration is not positive exactly if it does not fit.** -/
theorem double_nonpos_iff (hpos : 0 < d.toInt) : d * 2 ≤ 0 ↔ 2 ^ 62 ≤ d.toInt := by
  rw [nonpos_iff]
  have hmax := d.toInt_lt
  by_cases hle : 2 ^ 62 ≤ d.toInt
  · rw [toInt_double_of_le hle]
    exact iff_of_true (by omega) hle
  · rw [toInt_double hpos.le (not_le.mp hle)]
    exact iff_of_false (by omega) hle

theorem toInt_half (hpos : 0 ≤ d.toInt) : (d / 2).toInt = d.toInt / 2 := by
  have hmax := d.toInt_lt
  rw [Int64.toInt_div, toInt_two, Int.tdiv_eq_ediv_of_nonneg hpos]
  exact bmod_of_fits (by omega) (by omega)

/-- A sum that fits. -/
theorem toInt_sum {e : Int64} (hd : 0 ≤ d.toInt) (he : 0 ≤ e.toInt)
    (hfits : d.toInt + e.toInt < 2 ^ 63) : (d + e).toInt = d.toInt + e.toInt := by
  rw [Int64.toInt_add]
  exact bmod_of_fits (by omega) hfits

theorem toInt_half_add {r : Int64} (hd : 0 ≤ d.toInt) (hr : 0 ≤ r.toInt)
    (hle : r.toInt ≤ d.toInt / 2) : (d / 2 + r).toInt = d.toInt / 2 + r.toInt := by
  have hmax := d.toInt_lt
  have hhalf := toInt_half hd
  rw [toInt_sum (by omega) hr (by omega), hhalf]

end HstongApi.Durations
