import HstongApi.CashOrders
import HstongApi.DomainJson
import Mathlib.Data.Nat.Digits.Lemmas

/-!
# Checks of algo orders

`algoValidateQtyPercent` looks at the text of a percentage and never at the number: a percentage is
refused unless its text is one or two digits that are not all zero. This is right because the text
of a whole number has no leading zeros and no point, whatever exponent the decimal has.

That the text of a decimal is its plain rendering is an assumption about the decimal package
(`PlainRendering`), and so are the two questions about its sign. Nothing is assumed about which
coefficients and exponents there are; `percent_accepted` is for all of them.
-/

namespace HstongApi

open Checked

open DecimalPackage

open Numeral (isDigit trimZeros)

namespace AlgoService

/-! ## The check -/

/-- `algoDigitsShaped` -/
def algoDigitsShaped (code : Bytes) : Bool := if code = [] then false else code.all isDigit

/-- `algoQtyPercentMaxDigits` -/
def algoQtyPercentMaxDigits : ℕ := 2

/-- `strings.Trim(s, "0")` -/
def trimBothZeros (s : Bytes) : Bytes := trimZeros (s.dropWhile (· == 48))

/-- `algoValidateQtyPercent` -/
def algoValidateQtyPercent [DecimalPackage] (op : Bytes) (percent : Rate) : Checked Unit :=
  if isZero percent.dec then pure ()
  else do
    reject (isNegative percent.dec) (.new GoError.statusInvalidParam op
      (bytes "strategyParam.qtyPercent must be between 1 and 99"))
    let digits := string percent.dec
    reject (¬algoDigitsShaped digits) (.new GoError.statusInvalidParam op
      (bytes "strategyParam.qtyPercent must be a whole number"))
    reject (algoQtyPercentMaxDigits < digits.length ∨ trimBothZeros digits = [])
      (.new GoError.statusInvalidParam op
        (bytes "strategyParam.qtyPercent must be between 1 and 99"))

/-! ## What it accepts -/

theorem trimBothZeros_ne_nil_iff {s : Bytes} :
    trimBothZeros s ≠ [] ↔ s.any (· != 48) = true := by
  rw [← not_iff_not, not_not, List.any_eq_true, trimBothZeros, trimZeros, List.reverse_eq_nil_iff,
    List.dropWhile_eq_nil_iff]
  constructor
  · rintro hall ⟨c, hc, hne⟩
    -- the first byte that is no zero would stay
    have hdrop : s.dropWhile (· == 48) = [] := by
      by_contra hne
      have hhead := List.head_dropWhile_not (· == 48) hne
      rw [hall _ (List.mem_reverse.mpr (List.head_mem hne))] at hhead
      cases hhead
    rw [List.dropWhile_eq_nil_iff] at hdrop
    simp [bne, hdrop c hc] at hne
  · intro hno c hc
    by_contra hne
    have hmem := (List.dropWhile_sublist _).subset (List.mem_reverse.mp hc)
    exact hno ⟨c, hmem, by simpa [bne] using hne⟩

/-- A text of digits denotes a whole number. -/
theorem eq_natOfText_of_digits {t : Bytes} {n : ℤ} {k : ℕ} (h : Numeral.PointText t n k)
    (ht : ∀ c ∈ t, isDigit c = true) : k = 0 ∧ n = natOfText t := by
  cases h with
  | whole hint =>
    cases hint with
    | unsigned => exact ⟨rfl, rfl⟩
    | plus => cases ht 43 List.mem_cons_self
    | minus => cases ht 45 List.mem_cons_self
  | point => cases ht 46 (by simp)

/-- **The check of a percentage** accepts zero, for which the strategy chooses, and the whole numbers
from 1 to 99. -/
theorem yields_algoValidateQtyPercent [DecimalPackage] [PlainRendering] [ExactArithmetic]
    {op : Bytes} {percent : Rate} :
    Yields (algoValidateQtyPercent op percent) () ↔
      percent.dec.toRat = 0 ∨ ∃ n : ℕ, 1 ≤ n ∧ n ≤ 99 ∧ percent.dec.toRat = n := by
  unfold algoValidateQtyPercent
  split
  · rename_i hzero
    exact iff_of_true (yields_pure.mpr rfl) (.inl ((ExactArithmetic.isZero_iff _).mp hzero))
  · rename_i hzero
    rw [ExactArithmetic.isZero_iff] at hzero
    simp only [yields_then, yields_reject, not_not, not_or, not_lt, ← ne_eq,
      trimBothZeros_ne_nil_iff, or_iff_right hzero]
    rw [Ne, ExactArithmetic.isNegative_iff, not_lt, PlainRendering.string_eq]
    change 0 ≤ percent.dec.toRat ∧ _ ↔ _
    have hmax : 10 ^ algoQtyPercentMaxDigits = 100 := rfl
    constructor
    · rintro ⟨-, hshaped, hlength, hany⟩
      have hdigits := hshaped
      rw [algoDigitsShaped] at hdigits
      split at hdigits
      · cases hdigits
      · rw [List.all_eq_true] at hdigits
        obtain ⟨n, k, htext, -, hnumber⟩ :=
          Numeral.exists_denotes (coefficient percent.dec) (exponent percent.dec)
        obtain ⟨rfl, rfl⟩ := eq_natOfText_of_digits htext hdigits
        refine ⟨_, (natOfText_pos_iff hdigits).mpr hany, ?_, ?_⟩
        · have hlt := Dates.natOfText_lt hdigits
          have hpow := Nat.pow_le_pow_right (n := 10) (by decide) hlength
          omega
        · rw [Decimal.toRat, ← hnumber]
          simp
    · rintro ⟨n, hpos, hle, hn⟩
      have hdigits := Numeral.isDigits_natText n
      rw [hn, Numeral.plainText_eq_natText hpos hn]
      refine ⟨Nat.cast_nonneg n, ?_, ?_, ?_⟩
      · rw [algoDigitsShaped, if_neg hdigits.1]
        exact List.all_eq_true.mpr hdigits.2
      · rw [natText, if_neg (by omega), List.length_reverse, List.length_map,
          Nat.digits_length_le_iff (by decide)]
        omega
      · rw [← natOfText_pos_iff hdigits.2, natOfText_natText]
        exact hpos

section

attribute [local instance] ScaledInt.scaledInts

/-- The percentage 5.0 is accepted; and the same for every coefficient and every exponent. -/
theorem percent_accepted : Yields (algoValidateQtyPercent [] ⟨⟨50, -1⟩⟩) () ∧
    ∀ (op : Bytes) (value exp : ℤ), Yields (algoValidateQtyPercent op ⟨⟨value, exp⟩⟩) () ↔
      (value : ℚ) * 10 ^ exp = 0 ∨ ∃ n : ℕ, 1 ≤ n ∧ n ≤ 99 ∧ (value : ℚ) * 10 ^ exp = n :=
  ⟨by decide +kernel, fun _ _ _ => yields_algoValidateQtyPercent⟩

end

end AlgoService

end HstongApi
