import Mathlib.Data.List.MinMax
import Mathlib.Data.List.ReduceOption

/-!
# High-water marks

The elements of a sequence may carry a stamp. The high-water mark of a sequence is the
greatest of its stamps, and an element is behind if its stamp is less than the mark of
the elements before it. `disorder` is the number of these elements, position by
position. A program that sees one element after the other keeps the mark and the count
up to date with two equations: `highWater_concat` and `disorder_concat`.
-/

namespace HstongApi.HighWater

universe u

variable {α : Type u} [LinearOrder α]

/-- The greatest stamp, if there is one. -/
def highWater (stamps : List (Option α)) : WithBot α := stamps.reduceOption.maximum

/-- There is a stamp, and it is less than the mark. -/
def isBehind (mark : WithBot α) : Option α → Bool
  | some t => decide (↑t < mark)
  | none => false

/-- The number of elements with a stamp that is less than the greatest one before them. -/
def disorder (stamps : List (Option α)) : ℕ :=
  (List.range stamps.length).countP fun i => isBehind (highWater (stamps.take i)) stamps[i]?.join

/-- An element without a stamp leaves the mark where it is. -/
theorem highWater_concat_none (stamps : List (Option α)) :
    highWater (stamps ++ [none]) = highWater stamps := by
  rw [highWater, List.reduceOption_append, List.reduceOption_singleton, Option.toList_none,
    List.append_nil, highWater]

/-- **The mark** moves to a stamp that is not behind. -/
theorem highWater_concat_some (stamps : List (Option α)) (t : α) :
    highWater (stamps ++ [some t]) =
      if isBehind (highWater stamps) (some t) then highWater stamps else ↑t := by
  have hmax : highWater (stamps ++ [some t]) = max (highWater stamps) ↑t := by
    rw [highWater, List.reduceOption_append, List.reduceOption_singleton, Option.toList_some,
      List.maximum_concat, highWater]
  rw [hmax, isBehind]
  by_cases hbehind : ↑t < highWater stamps
  · rw [if_pos (decide_eq_true hbehind), max_eq_left hbehind.le]
  · rw [if_neg (by simpa using hbehind), max_eq_right (not_lt.mp hbehind)]

/-- **The count** grows by one with every element that is behind. -/
theorem disorder_concat (stamps : List (Option α)) (x : Option α) :
    disorder (stamps ++ [x]) = disorder stamps + (isBehind (highWater stamps) x).toNat := by
  rw [disorder, List.length_append, List.length_singleton, List.range_succ, List.countP_append,
    disorder]
  congr 1
  · apply List.countP_congr
    intro i hi
    have hlt := List.mem_range.mp hi
    rw [List.take_append_of_le_length hlt.le, List.getElem?_append_left hlt]
  · rw [List.countP_singleton]
    have htoNat : ∀ b : Bool, b.toNat = if b then 1 else 0 := by decide
    simp [htoNat]

end HstongApi.HighWater
