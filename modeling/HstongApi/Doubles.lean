import HstongApi.DecimalPackage

/-!
# Doubles and their text

A `float64` is its 64 bits. `FloatText` is what is assumed of
`strconv.FormatFloat(x, 'f', -1, 64)`: a number that is not finite is written `NaN`, `+Inf` or
`-Inf`, and a finite one as a plain numeral with or without a sign. It has no more digits after the
point than the exact value of the double, which are 1074 at most. Which digits it writes does not
matter to any result.

So a lawful reader of decimals accepts the text of a double exactly if the double is finite
(`readable_formatFloat`). `exactText` writes the exact value, and is a writer that keeps to all this.
-/

namespace HstongApi

open Numeral DecimalPackage

/-- The bits of a `float64`. -/
structure Double where
  /-- sign, exponent and fraction, as IEEE 754 lays them out -/
  bits : UInt64
  deriving DecidableEq

namespace Double

def negative (x : Double) : Bool := 9223372036854775808 ≤ x.bits

/-- The exponent field. -/
def exponent (x : Double) : ℕ := x.bits.toNat / 2 ^ 52 % 2 ^ 11

/-- The fraction field. -/
def fraction (x : Double) : ℕ := x.bits.toNat % 2 ^ 52

/-- A number, not an infinity and not `NaN`. -/
def Finite (x : Double) : Prop := x.exponent ≠ 2047

instance (x : Double) : Decidable x.Finite := inferInstanceAs (Decidable (_ ≠ _))

def isNaN (x : Double) : Bool := x.exponent == 2047 && x.fraction != 0

end Double

/-- The text of the numbers that are not finite. -/
def infText (x : Double) : Bytes :=
  if x.isNaN then bytes "NaN" else if x.negative then bytes "-Inf" else bytes "+Inf"

/-- `strconv.FormatFloat(x, 'f', -1, 64)` -/
class FloatText where
  formatFloat : Double → Bytes
  infinite : ∀ x, ¬ x.Finite → formatFloat x = infText x
  /-- a plain numeral, perhaps with a sign -/
  finite : ∀ x, x.Finite → ∃ t k, (formatFloat x = t ∨ formatFloat x = 45 :: t) ∧
    places t = some k ∧ k ≤ 1074

export FloatText (formatFloat)

theorem parse_infText (x : Double) : parse (infText x) = none := by
  unfold infText
  split
  · decide +kernel
  · split <;> decide +kernel

/-- **The text of a double is read as a decimal exactly if the double is finite.** -/
theorem readable_formatFloat [DecimalPackage] [LawfulReading] [FloatText] (x : Double) :
    Readable (formatFloat x) ↔ x.Finite := by
  constructor
  · intro h
    by_contra hinf
    rw [FloatText.infinite x hinf] at h
    exact not_readable (parse_infText x) h
  · intro h
    obtain ⟨t, k, htext, hplaces, hk⟩ := FloatText.finite x h
    exact readable_of_places htext hplaces hk

/-! ## A writer -/

namespace Double

/-- A finite double is `mantissa * 2 ^ (scale - 1075)`. -/
def mantissa (x : Double) : ℕ :=
  if x.exponent = 0 then x.fraction else x.fraction + 2 ^ 52

def scale (x : Double) : ℕ := max 1 x.exponent

end Double

/-- Digits, with zeros in front up to a length. -/
def padText (k n : ℕ) : Bytes := List.replicate (k + 1 - (natText n).length) 48 ++ natText n

/-- Digits with a point before the last `k` of them. -/
def pointText (k : ℕ) (digits : Bytes) : Bytes :=
  digits.take (digits.length - k) ++ 46 :: digits.drop (digits.length - k)

def signText (negative : Bool) : Bytes := if negative then [45] else []

/-- The exact value of a finite double: `2 ^ (-k)` is `5 ^ k * 10 ^ (-k)`. -/
def exactText (x : Double) : Bytes :=
  signText x.negative ++
    if 1075 ≤ x.scale then natText (x.mantissa * 2 ^ (x.scale - 1075))
    else pointText (1075 - x.scale) (padText (1075 - x.scale) (x.mantissa * 5 ^ (1075 - x.scale)))

theorem isDigits_padText (k n : ℕ) : IsDigits (padText k n) := by
  refine ⟨fun hnil => ?_, fun c hc => ?_⟩
  · exact (isDigits_natText n).1 (List.append_eq_nil_iff.mp hnil).2
  · rcases List.mem_append.mp hc with hzero | hdigit
    · rw [List.eq_of_mem_replicate hzero]
      decide
    · exact (isDigits_natText n).2 c hdigit

theorem lt_length_padText (k n : ℕ) : k < (padText k n).length := by
  rw [padText, List.length_append, List.length_replicate]
  omega

/-- There are digits on both sides of the point. -/
theorem places_pointText {k : ℕ} {digits : Bytes} (h : IsDigits digits) (hpos : 0 < k)
    (hk : k < digits.length) : places (pointText k digits) = some k := by
  have hlength : (digits.drop (digits.length - k)).length = k := by
    rw [List.length_drop]
    omega
  have hleft : IsDigits (digits.take (digits.length - k)) := by
    refine ⟨List.ne_nil_of_length_pos ?_, fun c hc => h.2 c (List.mem_of_mem_take hc)⟩
    rw [List.length_take]
    omega
  have hright : IsDigits (digits.drop (digits.length - k)) :=
    ⟨List.ne_nil_of_length_pos (by omega), fun c hc => h.2 c (List.mem_of_mem_drop hc)⟩
  rw [pointText, places_point hleft hright, hlength]

theorem places_exactText (x : Double) :
    ∃ t k, (exactText x = t ∨ exactText x = 45 :: t) ∧ places t = some k ∧ k ≤ 1074 := by
  have hsign : ∀ t, signText x.negative ++ t = t ∨ signText x.negative ++ t = 45 :: t := by
    cases x.negative with
    | true => exact fun t => .inr rfl
    | false => exact fun t => .inl rfl
  have hscale : 1 ≤ x.scale := le_max_left _ _
  unfold exactText
  split
  · exact ⟨_, 0, hsign _, places_digits (isDigits_natText _), Nat.zero_le _⟩
  · exact ⟨_, 1075 - x.scale, hsign _,
      places_pointText (isDigits_padText _ _) (by omega) (lt_length_padText _ _), by omega⟩

/-- The writer of exact values. -/
@[reducible] def exactTexts : FloatText where
  formatFloat x := if x.Finite then exactText x else infText x
  infinite x h := if_neg h
  finite x h := by
    rw [if_pos h]
    exact places_exactText x

end HstongApi
