import Mathlib.Algebra.Order.Ring.Int
import Mathlib.Order.MinMax

/-!
# Points in time

A time is the number of nanoseconds since the zero time, and a duration is a number of nanoseconds
that fits 64 bits. The difference of two times is the nearest duration, so it may be compared
with a duration as if it were exact.
-/

namespace HstongApi.Clock

def minDuration : ℤ := -9223372036854775808

def maxDuration : ℤ := 9223372036854775807

/-- `Time.Sub` -/
def sub (t u : ℤ) : ℤ := max minDuration (min maxDuration (t - u))

theorem le_sub_iff {t u : ℤ} {d : ℤ} (hmin : minDuration < d) (hmax : d ≤ maxDuration) :
    d ≤ sub t u ↔ u + d ≤ t := by
  rw [sub, le_max_iff, le_min_iff]
  omega

theorem sub_pos_iff {t u : ℤ} : 0 < sub t u ↔ u < t := by
  rw [sub, lt_max_iff, lt_min_iff]
  have hmin : ¬0 < minDuration := by decide
  have hmax : 0 < maxDuration := by decide
  omega

theorem sub_le {t u : ℤ} (h : u < t) : sub t u ≤ t - u := by
  rw [sub, max_le_iff]
  have hmin : minDuration < 0 := by decide
  exact ⟨by omega, min_le_right ..⟩

/-- The difference is exact if it fits. -/
theorem sub_eq {t u : ℤ} (hfits : t - u ≤ maxDuration) (hle : u ≤ t) : sub t u = t - u := by
  have hmin : minDuration < 0 := by decide
  rw [sub, min_eq_right hfits, max_eq_right (by omega)]

end HstongApi.Clock
