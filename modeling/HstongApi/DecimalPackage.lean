import HstongApi.NumeralText
import HstongApi.DomainPanics
import Mathlib.Algebra.Order.Floor.Ring
import Mathlib.Algebra.Order.Round
import Mathlib.Data.Rat.Floor

/-!
# The decimal package

Prices, quantities and amounts are decimals of the `shopspring/decimal` package. The package is not a
part of the program, so it is a parameter: `DecimalPackage` has the operations that the program calls,
and nothing is known about them.

What a result needs to know of the package is a law that the result takes as an assumption:

* `LawfulReading`: what `NewFromString` accepts is a decimal numeral and is stored as the number that
  it denotes, and plain numerals with not too many digits after the point are accepted;
* `PlainRendering`: `String` is the plain text of coefficient and exponent;
* `ReadsOwnText`: `NewFromString` accepts what `String` has written;
* `ExactArithmetic`: comparisons, remainder, floor and product are those of the numbers;
* `RoundedDivision`: `Div` gives one of the nearest numbers with sixteen digits after the point. Which
  of two it takes is left open.

All of them are about the number `toRat` for which a decimal stands. `ScaledInt` is a whole number and
a power of ten, and `scaledInts` is a package of such numbers that keeps all the laws, for the cases
where a result is applied to numbers.
-/

namespace HstongApi

open Numeral

/-! ## Operations -/

/-- The operations of `shopspring/decimal` that the program calls. -/
class DecimalPackage where
  /-- `decimal.Decimal` -/
  Decimal : Type
  /-- values of the type can be compared -/
  decEq : DecidableEq Decimal
  /-- `Coefficient` -/
  coefficient : Decimal → ℤ
  /-- `Exponent` -/
  exponent : Decimal → ℤ
  /-- the zero value of the type -/
  zero : Decimal
  /-- `NewFromInt` -/
  newFromInt : ℤ → Decimal
  /-- `NewFromString`, without the text of its error -/
  newFromString : Bytes → Option Decimal
  /-- `String` -/
  string : Decimal → Bytes
  /-- `IsZero` -/
  isZero : Decimal → Bool
  /-- `IsNegative` -/
  isNegative : Decimal → Bool
  /-- `IsPositive` -/
  isPositive : Decimal → Bool
  /-- `IsInteger` -/
  isInteger : Decimal → Bool
  /-- `LessThanOrEqual` -/
  lessThanOrEqual : Decimal → Decimal → Bool
  /-- `Mod` -/
  mod : Decimal → Decimal → Except Panic Decimal
  /-- `Div` -/
  div : Decimal → Decimal → Except Panic Decimal
  /-- `Floor` -/
  floor : Decimal → Decimal
  /-- `Mul` -/
  mul : Decimal → Decimal → Except Panic Decimal

export DecimalPackage (Decimal)

instance [DecimalPackage] : DecidableEq Decimal := DecimalPackage.decEq

variable {t : Bytes}

namespace DecimalPackage

/-- The number of a plain numeral that every lawful reader accepts. -/
def plainNumber (t : Bytes) : Option ℚ :=
  match places t with
  | some k => if k ≤ 1074 then (parse t).map fun (n, e) => (n : ℚ) * 10 ^ e else none
  | none => none

variable [DecimalPackage]

/-- **The number of a decimal.** -/
def Decimal.toRat (d : Decimal) : ℚ := coefficient d * 10 ^ exponent d

/-- `NewFromString` accepts the text. -/
def Readable (t : Bytes) : Prop := (newFromString t).isSome = true

instance (t : Bytes) : Decidable (Readable t) := inferInstanceAs (Decidable (_ = _))

theorem readable_iff : Readable t ↔ ∃ d, newFromString t = some d :=
  Option.isSome_iff_exists

/-- The plain numerals with at most `limit` digits after the point are accepted, with and without a
sign. -/
def ReadsPlaces (limit : ℕ) : Prop :=
  ∀ t k, places t = some k → k ≤ limit → Readable t ∧ Readable (45 :: t)

/-! ## Laws -/

/-- Reading: only numerals are accepted, and their number is stored. -/
class LawfulReading : Prop where
  /-- what is stored is what the text denotes -/
  denotes : ∀ t d, newFromString t = some d → ∃ n e : ℤ, Denotes t n e ∧ d.toRat = n * 10 ^ e
  /-- as many digits after the point as the numbers of a `float64` can have -/
  reads : ReadsPlaces 1074

/-- Writing: the plain text, without zeros at the end of the fraction. -/
class PlainRendering : Prop where
  string_eq : ∀ d, string d = plainText (coefficient d) (exponent d)

/-- What is written can be read. -/
class ReadsOwnText : Prop where
  readable_string : ∀ d, Readable (string d)

/-- Comparisons, remainder, floor and product are exact. -/
class ExactArithmetic : Prop where
  isZero_iff : ∀ d, isZero d = true ↔ d.toRat = 0
  isNegative_iff : ∀ d, isNegative d = true ↔ d.toRat < 0
  isInteger_iff : ∀ d, isInteger d = true ↔ ∃ k : ℤ, d.toRat = k
  lessThanOrEqual_iff : ∀ d d2, lessThanOrEqual d d2 = true ↔ d.toRat ≤ d2.toRat
  toRat_newFromInt : ∀ n, (newFromInt n).toRat = n
  /-- the remainder of a division by anything but zero -/
  exists_mod : ∀ d d2, d2.toRat ≠ 0 → ∃ r, mod d d2 = .ok r ∧
    ∃ k : ℤ, d.toRat = k * d2.toRat + r.toRat ∧ |r.toRat| < |d2.toRat|
  toRat_floor : ∀ d, (floor d).toRat = ⌊d.toRat⌋
  exists_mul : ∀ d d2, ∃ p, mul d d2 = .ok p ∧ p.toRat = d.toRat * d2.toRat

/-- Division rounds to sixteen digits after the point. -/
class RoundedDivision : Prop where
  exists_div : ∀ d d2, d2.toRat ≠ 0 → ∃ q, div d d2 = .ok q ∧
    (∃ m : ℤ, q.toRat * 10 ^ 16 = m) ∧ |q.toRat - d.toRat / d2.toRat| ≤ 1 / (2 * 10 ^ 16)

/-! ## Reading -/

variable {d : Decimal}

section

variable [LawfulReading]

theorem Readable.denotes (h : Readable t) : ∃ n e, Denotes t n e := by
  obtain ⟨d, hd⟩ := readable_iff.mp h
  obtain ⟨n, e, hdenotes, -⟩ := LawfulReading.denotes t d hd
  exact ⟨n, e, hdenotes⟩

/-- Only numerals are accepted. -/
theorem not_readable (h : parse t = none) : ¬Readable t := by
  intro hread
  obtain ⟨n, e, hdenotes⟩ := hread.denotes
  cases h.symm.trans (parse_eq_some.mpr hdenotes)

/-- What is stored of a text whose number is known. -/
theorem toRat_of_denotes {n e : ℤ} (h : newFromString t = some d) (hdenotes : Denotes t n e) :
    d.toRat = n * 10 ^ e := by
  obtain ⟨n', e', hdenotes', hrat⟩ := LawfulReading.denotes t d h
  obtain ⟨rfl, rfl⟩ := hdenotes.unique hdenotes'
  exact hrat

/-- **A plain numeral is read** as its number. -/
theorem exists_read {x : ℚ} (h : plainNumber t = some x) :
    ∃ d, newFromString t = some d ∧ d.toRat = x := by
  unfold plainNumber at h
  split at h
  · rename_i k hplaces
    obtain ⟨hk, h⟩ := Option.ite_none_right_eq_some.mp h
    obtain ⟨⟨n, e⟩, hparse, rfl⟩ := Option.map_eq_some_iff.mp h
    obtain ⟨d, hd⟩ := readable_iff.mp (LawfulReading.reads t k hplaces hk).1
    exact ⟨d, hd, toRat_of_denotes hd (parse_eq_some.mp hparse)⟩
  · cases h

/-- A plain numeral with or without a sign. -/
theorem readable_of_places {s : Bytes} {k : ℕ} (h : s = t ∨ s = 45 :: t)
    (hplaces : places t = some k) (hk : k ≤ 1074) : Readable s := by
  obtain ⟨hplain, hminus⟩ := LawfulReading.reads t k hplaces hk
  rcases h with rfl | rfl
  · exact hplain
  · exact hminus

/-- Whole numbers are read. -/
theorem readable_itoa (n : ℤ) : Readable (itoa n) := by
  obtain ⟨t, htext, hplaces⟩ := exists_places_itoa n
  exact readable_of_places htext hplaces (Nat.zero_le _)

/-- The text of a decimal is read back as the same number. -/
theorem exists_read_string [PlainRendering] [ReadsOwnText] (d : Decimal) :
    ∃ d', newFromString (string d) = some d' ∧ d'.toRat = d.toRat := by
  obtain ⟨d', hd'⟩ := readable_iff.mp (ReadsOwnText.readable_string d)
  obtain ⟨n, e, hdenotes, hrat⟩ := LawfulReading.denotes _ d' hd'
  rw [PlainRendering.string_eq] at hdenotes
  exact ⟨d', hd', hrat.trans (eq_of_denotes_plainText hdenotes)⟩

end

/-! ## Writing -/

section

variable [PlainRendering]

/-- Decimals with one text are one number. -/
theorem toRat_eq_of_string_eq {d2 : Decimal} (h : string d = string d2) : d.toRat = d2.toRat := by
  rw [PlainRendering.string_eq, PlainRendering.string_eq] at h
  exact eq_of_plainText_eq h

/-- The text of a decimal is ASCII. -/
theorem string_ascii (d : Decimal) {c : UInt8} (hc : c ∈ string d) : c < 0x80 := by
  rw [PlainRendering.string_eq] at hc
  exact plainText_ascii hc

end

/-! ## Remainders -/

/-- **The remainder is zero for multiples only.** -/
theorem isZero_mod [ExactArithmetic] {d2 : Decimal} (h : d2.toRat ≠ 0) :
    ∃ r, mod d d2 = .ok r ∧ (isZero r = true ↔ ∃ k : ℤ, d.toRat = k * d2.toRat) := by
  obtain ⟨r, hr, k, hdiv, hlt⟩ := ExactArithmetic.exists_mod d d2 h
  refine ⟨r, hr, ?_⟩
  rw [ExactArithmetic.isZero_iff]
  constructor
  · intro hzero
    exact ⟨k, by rw [hdiv, hzero, add_zero]⟩
  · rintro ⟨m, hm⟩
    -- the remainder is a multiple of the divisor and smaller than it
    have hrest : r.toRat = ((m - k : ℤ) : ℚ) * d2.toRat := by
      push_cast
      linarith
    rw [hrest, abs_mul, mul_lt_iff_lt_one_left (abs_pos.mpr h), ← Int.cast_abs] at hlt
    have hsmall : |m - k| < 1 := by exact_mod_cast hlt
    rw [hrest, Int.abs_lt_one_iff.mp hsmall, Int.cast_zero, zero_mul]

end DecimalPackage

/-! ## Scaled whole numbers -/

/-- The number `value * 10 ^ exp`. -/
structure ScaledInt where
  value : ℤ
  exp : ℤ
  deriving DecidableEq

namespace ScaledInt

def toRat (d : ScaledInt) : ℚ := d.value * 10 ^ d.exp

/-- The whole number that belongs to a smaller power of ten. -/
def scaled (d : ScaledInt) (e : ℤ) : ℤ := d.value * 10 ^ (d.exp - e).toNat

/-- The remainder at the smaller of the two powers of ten. -/
def mod (d d2 : ScaledInt) : ScaledInt :=
  ⟨(d.scaled (min d.exp d2.exp)).tmod (d2.scaled (min d.exp d2.exp)), min d.exp d2.exp⟩

/-- Decimals that are whole numbers with a power of ten. -/
@[reducible] def scaledInts : DecimalPackage where
  Decimal := ScaledInt
  decEq := inferInstance
  coefficient := value
  exponent := exp
  zero := ⟨0, 0⟩
  newFromInt n := ⟨n, 0⟩
  newFromString t := (parse t).map fun (n, e) => ⟨n, e⟩
  string d := plainText d.value d.exp
  isZero d := d.value == 0
  isNegative d := d.value < 0
  isPositive d := 0 < d.value
  isInteger d := d.toRat == ⌊d.toRat⌋
  lessThanOrEqual d d2 := d.toRat ≤ d2.toRat
  mod d d2 := if d2.value = 0 then .error .decimal else .ok (d.mod d2)
  div d d2 :=
    if d2.value = 0 then .error .decimal else .ok ⟨round (d.toRat / d2.toRat * 10 ^ 16), -16⟩
  floor d := ⟨⌊d.toRat⌋, 0⟩
  mul d d2 := .ok ⟨d.value * d2.value, d.exp + d2.exp⟩

attribute [local instance] scaledInts

open DecimalPackage

/-! ## Their laws -/

variable {d d2 : ScaledInt}

theorem readable_of_denotes {n e : ℤ} (h : Denotes t n e) : Readable t :=
  readable_iff.mpr ⟨⟨n, e⟩, Option.map_eq_some_iff.mpr ⟨(n, e), parse_eq_some.mpr h, rfl⟩⟩

theorem toRat_eq_zero_iff : d.toRat = 0 ↔ d.value = 0 := by
  rw [toRat, mul_eq_zero, or_iff_left (pow_ten_pos _).ne', Int.cast_eq_zero]

theorem toRat_neg_iff : d.toRat < 0 ↔ d.value < 0 := by
  rw [← not_le, ← not_le, toRat, mul_nonneg_iff_of_pos_right (pow_ten_pos d.exp),
    Int.cast_nonneg_iff]

theorem toRat_whole (n : ℤ) : toRat ⟨n, 0⟩ = n := by simp [toRat]

/-- The number does not change with its power of ten. -/
theorem scaled_mul {e : ℤ} (h : e ≤ d.exp) : (d.scaled e : ℚ) * 10 ^ e = d.toRat := by
  obtain ⟨n, hn⟩ := Int.eq_ofNat_of_zero_le (Int.sub_nonneg_of_le h)
  have hexp : d.exp = n + e := by omega
  rw [scaled, hn, toRat, hexp, zpow_add₀ (by norm_num), zpow_natCast, Int.toNat_natCast]
  push_cast
  ring

theorem toRat_mul (d d2 : ScaledInt) :
    toRat ⟨d.value * d2.value, d.exp + d2.exp⟩ = d.toRat * d2.toRat := by
  simp only [toRat, Int.cast_mul, zpow_add₀ (by norm_num : (10 : ℚ) ≠ 0)]
  ring

/-- A number rounded to sixteen digits after the point. -/
theorem rounded_spec (x : ℚ) :
    (∃ m : ℤ, toRat ⟨round (x * 10 ^ 16), -16⟩ * 10 ^ 16 = m) ∧
      |toRat ⟨round (x * 10 ^ 16), -16⟩ - x| ≤ 1 / (2 * 10 ^ 16) := by
  have hround := abs_le.mp (abs_sub_round (x * 10 ^ 16))
  refine ⟨⟨round (x * 10 ^ 16), by simp [toRat]⟩, abs_le.mpr ⟨?_, ?_⟩⟩
  · norm_num [toRat] at hround ⊢
    linarith
  · norm_num [toRat] at hround ⊢
    linarith

theorem mod_spec (h : d2.value ≠ 0) :
    ∃ k : ℤ, d.toRat = k * d2.toRat + (d.mod d2).toRat ∧ |(d.mod d2).toRat| < |d2.toRat| := by
  have hdivisor := scaled_mul (min_le_right d.exp d2.exp)
  have hne : d2.scaled (min d.exp d2.exp) ≠ 0 := mul_ne_zero h (by positivity)
  rw [← scaled_mul (min_le_left d.exp d2.exp), ← hdivisor, mod]
  generalize d.scaled (min d.exp d2.exp) = a at *
  generalize d2.scaled (min d.exp d2.exp) = b at *
  refine ⟨a.tdiv b, ?_, ?_⟩
  · have hdiv : (a : ℚ) = a.tdiv b * b + a.tmod b := by
      exact_mod_cast (Int.tdiv_mul_add_tmod a b).symm
    rw [toRat, hdiv]
    ring
  · have hlt : |a.tmod b| < |b| := by
      rw [Int.abs_eq_natAbs, Int.abs_eq_natAbs, Int.natAbs_tmod]
      exact_mod_cast Nat.mod_lt _ (Int.natAbs_pos.mpr hne)
    rw [toRat, abs_mul, abs_mul]
    exact mul_lt_mul_of_pos_right (by exact_mod_cast hlt) (abs_pos.mpr (pow_ten_pos _).ne')

instance : LawfulReading where
  denotes t d h := by
    obtain ⟨⟨n, e⟩, hparse, rfl⟩ := Option.map_eq_some_iff.mp h
    exact ⟨n, e, parse_eq_some.mp hparse, rfl⟩
  reads t k hplaces _ := by
    obtain ⟨n, hplain, hminus⟩ := pointText_of_places hplaces
    exact ⟨readable_of_denotes (.plain hplain), readable_of_denotes (.plain hminus)⟩

instance : PlainRendering where
  string_eq _ := rfl

instance : ReadsOwnText where
  readable_string d := by
    obtain ⟨n, k, htext, -⟩ := exists_denotes d.value d.exp
    exact readable_of_denotes (.plain htext)

instance : ExactArithmetic where
  isZero_iff d := beq_iff_eq.trans toRat_eq_zero_iff.symm
  isNegative_iff d := decide_eq_true_iff.trans toRat_neg_iff.symm
  isInteger_iff d := by
    refine beq_iff_eq.trans ⟨fun h => ⟨_, h⟩, ?_⟩
    rintro ⟨k, hk⟩
    change ScaledInt.toRat d = k at hk
    rw [hk, Int.floor_intCast]
  lessThanOrEqual_iff d d2 := decide_eq_true_iff
  toRat_newFromInt := toRat_whole
  exists_mod d d2 h := by
    have hne : d2.value ≠ 0 := mt toRat_eq_zero_iff.mpr h
    exact ⟨_, if_neg hne, mod_spec hne⟩
  toRat_floor d := toRat_whole _
  exists_mul d d2 := ⟨_, rfl, toRat_mul d d2⟩

instance : RoundedDivision where
  exists_div d d2 h := by
    have hne : d2.value ≠ 0 := mt toRat_eq_zero_iff.mpr h
    exact ⟨_, if_neg hne, rounded_spec _⟩

end ScaledInt

end HstongApi
