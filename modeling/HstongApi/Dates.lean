import HstongApi.NumeralText
import Mathlib.Data.List.Induction

/-!
# Dates

A date is a day of the Gregorian calendar with a year of four digits. Its text is eight digits, and
`parse` is Go's `time.Parse` for the layout `20060102`. A text is read as a date exactly if it is the
text of that date: `parse_eq_some`.
-/

namespace HstongApi.Dates

open Numeral (isDigit natOfText_append)

/-! ## Numbers of a fixed width -/

/-- The text of a number with so many digits. -/
def padded : ℕ → ℕ → Bytes
  | 0, _ => []
  | width + 1, n => padded width (n / 10) ++ [UInt8.ofNat (48 + n % 10)]

@[simp] theorem length_padded (width n : ℕ) : (padded width n).length = width := by
  induction width generalizing n with
  | zero => rfl
  | succ width ih => rw [padded, List.length_append, ih, List.length_singleton]

theorem natOfText_snoc (t : Bytes) (c : UInt8) :
    natOfText (t ++ [c]) = natOfText t * 10 + (c.toNat - 48) := by
  rw [natOfText_append, List.length_singleton, pow_one]
  simp [natOfText]

theorem toNat_digit (n : ℕ) : (UInt8.ofNat (48 + n % 10)).toNat = 48 + n % 10 := by
  rw [UInt8.toNat_ofNat']
  omega

theorem isDigit_iff {c : UInt8} : isDigit c = true ↔ 48 ≤ c.toNat ∧ c.toNat ≤ 57 := by
  simp only [isDigit, Bool.and_eq_true, decide_eq_true_eq, UInt8.le_iff_toNat_le]
  exact Iff.rfl

theorem isDigit_of_mem_padded {width n : ℕ} {c : UInt8} (h : c ∈ padded width n) :
    isDigit c = true := by
  induction width generalizing n with
  | zero => cases h
  | succ width ih =>
    rcases List.mem_append.mp h with h | h
    · exact ih h
    · rw [List.mem_singleton.mp h, isDigit_iff, toNat_digit]
      omega

/-- The number is read back. -/
theorem natOfText_padded {width n : ℕ} (h : n < 10 ^ width) : natOfText (padded width n) = n := by
  induction width generalizing n with
  | zero =>
    obtain rfl : n = 0 := by omega
    rfl
  | succ width ih =>
    have hdiv : n / 10 < 10 ^ width := by
      rw [pow_succ] at h
      omega
    rw [padded, natOfText_snoc, ih hdiv, toNat_digit]
    omega

/-- **Digits are the text of their number.** -/
theorem padded_natOfText {t : Bytes} (h : ∀ c ∈ t, isDigit c = true) :
    padded t.length (natOfText t) = t := by
  induction t using List.reverseRecOn with
  | nil => rfl
  | append_singleton t c ih =>
    have hc := isDigit_iff.mp (h c (by simp))
    have hdiv : (natOfText t * 10 + (c.toNat - 48)) / 10 = natOfText t := by omega
    have hmod : 48 + (natOfText t * 10 + (c.toNat - 48)) % 10 = c.toNat := by omega
    rw [List.length_append, List.length_singleton, padded, natOfText_snoc, hdiv, hmod,
      ih fun d hd => h d (List.mem_append_left _ hd), UInt8.ofNat_toNat]

theorem natOfText_lt {t : Bytes} (h : ∀ c ∈ t, isDigit c = true) :
    natOfText t < 10 ^ t.length := by
  induction t using List.reverseRecOn with
  | nil => exact Nat.one_pos
  | append_singleton t c ih =>
    have hc := isDigit_iff.mp (h c (by simp))
    have hrest := ih fun d hd => h d (List.mem_append_left _ hd)
    rw [natOfText_snoc, List.length_append, List.length_singleton, pow_succ]
    omega

/-- A number of so many digits. -/
def number (width : ℕ) (t : Bytes) : Option ℕ :=
  if t.length = width ∧ t.all isDigit = true then some (natOfText t) else none

/-- **A number of a fixed width** and its text. -/
theorem number_eq_some {width n : ℕ} {t : Bytes} :
    number width t = some n ↔ n < 10 ^ width ∧ padded width n = t := by
  rw [number, Option.ite_none_right_eq_some, List.all_eq_true, Option.some.injEq]
  constructor
  · rintro ⟨⟨rfl, hdigits⟩, rfl⟩
    exact ⟨natOfText_lt hdigits, padded_natOfText hdigits⟩
  · rintro ⟨hn, rfl⟩
    exact ⟨⟨length_padded width n, fun c hc => isDigit_of_mem_padded hc⟩, natOfText_padded hn⟩

/-! ## The calendar -/

/-- The years with a 29th of February. -/
def isLeap (year : ℕ) : Bool := year % 4 == 0 && (year % 100 != 0 || year % 400 == 0)

/-- `daysIn` -/
def daysIn (year month : ℕ) : ℕ :=
  if month = 2 then if isLeap year then 29 else 28
  else if month = 4 ∨ month = 6 ∨ month = 9 ∨ month = 11 then 30
  else 31

/-- **A day of the calendar.** -/
@[ext] structure Date where
  year : ℕ
  month : ℕ
  day : ℕ
  year_lt : year < 10000
  month_range : 1 ≤ month ∧ month ≤ 12
  day_range : 1 ≤ day ∧ day ≤ daysIn year month

theorem daysIn_le (year month : ℕ) : daysIn year month ≤ 31 := by
  unfold daysIn
  split_ifs <;> omega

namespace Date

/-- The text of the layout `20060102`. -/
def text (d : Date) : Bytes := padded 4 d.year ++ padded 2 d.month ++ padded 2 d.day

/-- `time.Parse("20060102", s)` -/
def parse (s : Bytes) : Option Date := do
  let year ← number 4 (s.take 4)
  let month ← number 2 ((s.drop 4).take 2)
  -- there must be no text after the day
  let day ← number 2 (s.drop 6)
  if h : year < 10000 ∧ (1 ≤ month ∧ month ≤ 12) ∧ 1 ≤ day ∧ day ≤ daysIn year month then
    some ⟨year, month, day, h.1, h.2.1, h.2.2⟩
  else none

@[simp] theorem length_text (d : Date) : d.text.length = 8 := by
  simp [text]

theorem text_ne_nil (d : Date) : d.text ≠ [] :=
  List.ne_nil_of_length_pos (d.length_text ▸ Nat.succ_pos 7)

/-- **A text is read as a date** exactly if it is the text of the date. -/
theorem parse_eq_some {s : Bytes} {d : Date} : parse s = some d ↔ d.text = s := by
  simp only [parse, Option.bind_eq_bind, Option.bind_eq_some_iff, number_eq_some,
    Option.dite_none_right_eq_some, Option.some.injEq]
  constructor
  · rintro ⟨year, ⟨-, hyear⟩, month, ⟨-, hmonth⟩, day, ⟨-, hday⟩, -, rfl⟩
    have hrest : (s.drop 4).drop 2 = s.drop 6 := by rw [List.drop_drop]
    change padded 4 year ++ padded 2 month ++ padded 2 day = s
    rw [hyear, hmonth, hday, List.append_assoc, ← hrest, List.take_append_drop,
      List.take_append_drop]
  · rintro rfl
    have hday := (d.day_range.2.trans (daysIn_le d.year d.month)).trans_lt (by omega : 31 < 10 ^ 2)
    have hmonth := d.month_range.2.trans_lt (by omega : 12 < 10 ^ 2)
    have htake : d.text.take 4 = padded 4 d.year := by
      rw [text, List.append_assoc, List.take_left' (length_padded _ _)]
    have hdrop : d.text.drop 4 = padded 2 d.month ++ padded 2 d.day := by
      rw [text, List.append_assoc, List.drop_left' (length_padded _ _)]
    have hrest : d.text.drop 6 = padded 2 d.day := by
      rw [text, List.drop_left' (by simp)]
    refine ⟨d.year, ⟨d.year_lt, htake.symm⟩, d.month, ⟨hmonth, ?_⟩, d.day, ⟨hday, hrest.symm⟩,
      ⟨d.year_lt, d.month_range, d.day_range⟩, rfl⟩
    rw [hdrop, List.take_left' (length_padded _ _)]

end Date

end HstongApi.Dates
