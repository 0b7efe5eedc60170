import HstongApi.Numerals
import Mathlib.Algebra.Order.Field.Basic
import Mathlib.Algebra.Order.Field.Rat
import Mathlib.Tactic.FieldSimp
import Mathlib.Tactic.Linarith
import Mathlib.Tactic.Ring

/-!
# Plain text of decimal numbers

`plainText` is the plain rendering of `value * 10 ^ exp`: a sign, the digits before the point, and
after a point the digits of the fraction without the zeros at its end.

The text denotes the number, and it has no more digits after its point than the number needs
(`exists_denotes`). Three facts follow that do not depend on how the number is split into `value`
and `exp`:

* two numbers with one text are equal (`eq_of_plainText_eq`);
* there are at most `n` digits after the point exactly if the number is a multiple of `10 ^ -n`
  (`fractionDigits_le_iff`);
* the text of a positive whole number is its digits, without leading zeros and without a point
  (`plainText_eq_natText`).
-/

namespace HstongApi.Numeral

/-! ## Rendering -/

/-- Without the zeros at the end. -/
def trimZeros (t : Bytes) : Bytes := (t.reverse.dropWhile (· == 48)).reverse

/-- The digits before and after the point, if there are `k` of them after the point. -/
def splitDigits (str : Bytes) (k : ℕ) : Bytes × Bytes :=
  if k < str.length then (str.take (str.length - k), str.drop (str.length - k))
  else ([48], List.replicate (k - str.length) 48 ++ str)

/-- The digits with a point between them, if there are digits after the point. -/
def joinDigits (intPart fractionalPart : Bytes) : Bytes :=
  if fractionalPart = [] then intPart else intPart ++ 46 :: fractionalPart

/-- **The plain text** of `value * 10 ^ exp`. -/
def plainText (value exp : ℤ) : Bytes :=
  if 0 ≤ exp then itoa (value * 10 ^ exp.toNat)
  else
    let (intPart, fractionalPart) := splitDigits (natText value.natAbs) exp.natAbs
    let number := joinDigits intPart (trimZeros fractionalPart)
    if value < 0 then 45 :: number else number

/-! ## Digits -/

theorem natOfText_append (a b : Bytes) :
    natOfText (a ++ b) = natOfText a * 10 ^ b.length + natOfText b := by
  rw [natOfText, List.reverse_append, List.map_append, Nat.ofDigits_append, List.length_map,
    List.length_reverse, natOfText, natOfText]
  ring

theorem natOfText_zeros (n : ℕ) : natOfText (List.replicate n 48) = 0 := by
  induction n with
  | zero => rfl
  | succ n ih =>
    rw [List.replicate_succ', natOfText_append, ih]
    rfl

/-- A text is its trimmed text and zeros. -/
theorem exists_trimZeros (t : Bytes) : ∃ j, t = trimZeros t ++ List.replicate j 48 := by
  have hzeros : ∀ c ∈ t.reverse.takeWhile (· == 48), c = 48 := fun c hc =>
    beq_iff_eq.mp (List.mem_takeWhile_imp (p := (· == 48)) hc)
  refine ⟨(t.reverse.takeWhile (· == 48)).length, ?_⟩
  calc t = (t.reverse.takeWhile (· == 48) ++ t.reverse.dropWhile (· == 48)).reverse := by
        rw [List.takeWhile_append_dropWhile, List.reverse_reverse]
    _ = trimZeros t ++ (t.reverse.takeWhile (· == 48)).reverse := List.reverse_append
    _ = trimZeros t ++ List.replicate (t.reverse.takeWhile (· == 48)).length 48 := by
        rw [List.eq_replicate_iff.mpr ⟨rfl, hzeros⟩, List.reverse_replicate, List.length_replicate]

variable {t : Bytes} {c : UInt8}

theorem mem_of_mem_trimZeros (h : c ∈ trimZeros t) : c ∈ t := by
  obtain ⟨j, hj⟩ := exists_trimZeros t
  rw [hj]
  exact List.mem_append_left _ h

/-- What is left ends in another digit. -/
theorem not_dvd_natOfText_trimZeros {a : Bytes} (ht : ∀ c ∈ t, isDigit c = true)
    (hne : trimZeros t ≠ []) : ¬10 ∣ natOfText (a ++ trimZeros t) := by
  have hmem := fun c hc => ht c (mem_of_mem_trimZeros (c := c) hc)
  unfold trimZeros at *
  cases hdrop : t.reverse.dropWhile (· == 48) with
  | nil => simp [hdrop] at hne
  | cons c rest =>
    have hcons : t.reverse.dropWhile (· == 48) ≠ [] := hdrop ▸ List.cons_ne_nil c rest
    have hlast := List.head_dropWhile_not (· == 48) hcons
    simp only [hdrop, List.head_cons, beq_eq_false_iff_ne, ne_eq, ← UInt8.toNat_inj] at hlast
    have hdigit := hmem c (by simp [hdrop])
    simp only [isDigit, Bool.and_eq_true, decide_eq_true_eq, UInt8.le_iff_toNat_le] at hdigit
    have hc : natOfText [c] = c.toNat - 48 := by simp [natOfText]
    rw [List.reverse_cons, ← List.append_assoc, natOfText_append, hc, List.length_singleton]
    change ¬c.toNat = 48 at hlast
    change 48 ≤ c.toNat ∧ c.toNat ≤ 57 at hdigit
    omega

/-- The two parts are the digits, with zeros in front of them where there are too few. -/
theorem splitDigits_spec {str : Bytes} (hstr : IsDigits str) (k : ℕ) :
    IsDigits (splitDigits str k).1 ∧ (∀ c ∈ (splitDigits str k).2, isDigit c = true) ∧
      (splitDigits str k).2.length = k ∧
      natOfText ((splitDigits str k).1 ++ (splitDigits str k).2) = natOfText str := by
  unfold splitDigits
  split
  · rename_i hlt
    refine ⟨⟨?_, fun c hc => hstr.2 c (List.mem_of_mem_take hc)⟩,
      fun c hc => hstr.2 c (List.mem_of_mem_drop hc), ?_, ?_⟩
    · refine List.ne_nil_of_length_pos ?_
      rw [List.length_take]
      omega
    · rw [List.length_drop]
      omega
    · rw [List.take_append_drop]
  · rename_i hle
    refine ⟨⟨List.cons_ne_nil _ _, ?_⟩, ?_, ?_, ?_⟩
    · intro c hc
      rw [List.mem_singleton.mp hc]
      decide
    · intro c hc
      rcases List.mem_append.mp hc with hc | hc
      · rw [List.eq_of_mem_replicate hc]
        decide
      · exact hstr.2 c hc
    · rw [List.length_append, List.length_replicate]
      omega
    · have hzeros : [48] ++ List.replicate (k - str.length) (48 : UInt8) =
        List.replicate (k - str.length + 1) 48 := rfl
      rw [← List.append_assoc, hzeros, natOfText_append, natOfText_zeros]
      omega

/-! ## The text denotes the number -/

/-- Digits and digits after a point, with or without a sign. -/
theorem pointText_joinDigits {a b : Bytes} (ha : IsDigits a) (hb : ∀ c ∈ b, isDigit c = true) :
    PointText (joinDigits a b) (natOfText (a ++ b)) b.length ∧
      PointText (45 :: joinDigits a b) (-(natOfText (a ++ b) : ℤ)) b.length := by
  have hdigits : IsDigits (a ++ b) := by
    refine ⟨fun hnil => ha.1 (List.append_eq_nil_iff.mp hnil).1, fun c hc => ?_⟩
    rcases List.mem_append.mp hc with hc | hc
    · exact ha.2 c hc
    · exact hb c hc
  unfold joinDigits
  split
  · rename_i hnil
    rw [hnil, List.append_nil] at hdigits ⊢
    exact ⟨.whole (.unsigned hdigits), .whole (.minus hdigits)⟩
  · exact ⟨.point (.unsigned hdigits), .point (a := 45 :: a) (.minus hdigits)⟩

theorem pow_ten_pos (e : ℤ) : (0 : ℚ) < 10 ^ e := zpow_pos (by norm_num) e

variable {value exp : ℤ}

/-- A number with a negative exponent. -/
theorem exists_denotes_of_neg (h : exp < 0) :
    ∃ n : ℤ, ∃ k : ℕ, PointText (plainText value exp) n k ∧ (k = 0 ∨ ¬10 ∣ n) ∧
      (n : ℚ) * 10 ^ (-(k : ℤ)) = value * 10 ^ exp := by
  obtain ⟨hint, hfrac, hlength, hnat⟩ :=
    splitDigits_spec (isDigits_natText value.natAbs) exp.natAbs
  rw [natOfText_natText] at hnat
  unfold plainText
  rw [if_neg (not_le.mpr h)]
  generalize splitDigits (natText value.natAbs) exp.natAbs = parts at *
  obtain ⟨intPart, fractionalPart⟩ := parts
  dsimp only at hint hfrac hlength hnat
  obtain ⟨j, hj⟩ := exists_trimZeros fractionalPart
  obtain ⟨hplain, hminus⟩ := pointText_joinDigits hint
    fun c hc => hfrac c (mem_of_mem_trimZeros hc)
  have hk : (trimZeros fractionalPart).length + j = exp.natAbs := by
    rw [← hlength, hj, List.length_append, List.length_replicate, ← hj]
  have hvalue : value.natAbs = natOfText (intPart ++ trimZeros fractionalPart) * 10 ^ j := by
    rw [← hnat, hj, ← List.append_assoc, natOfText_append, natOfText_zeros, List.length_replicate,
      ← hj]
    rfl
  have hpow : (10 : ℚ) ^ (-((trimZeros fractionalPart).length : ℤ)) = 10 ^ j * 10 ^ exp := by
    have hexp : -((trimZeros fractionalPart).length : ℤ) = j + exp := by omega
    rw [hexp, zpow_add₀ (by norm_num), zpow_natCast]
  have hlast : (trimZeros fractionalPart).length = 0 ∨
      ¬(10 : ℤ) ∣ natOfText (intPart ++ trimZeros fractionalPart) := by
    rw [List.length_eq_zero_iff, or_iff_not_imp_left]
    exact_mod_cast not_dvd_natOfText_trimZeros hfrac
  have hcast : (natOfText (intPart ++ trimZeros fractionalPart) : ℚ) * 10 ^ j =
    value.natAbs := by
    rw [hvalue]
    push_cast
    rfl
  -- the sign of the text is the sign of the whole number
  by_cases hneg : value < 0
  · simp only [if_pos hneg]
    refine ⟨_, _, hminus, by rwa [Int.dvd_neg], ?_⟩
    have habs : value = -(value.natAbs : ℤ) := by omega
    rw [hpow, ← mul_assoc, habs, Int.cast_neg, Int.cast_neg, neg_mul, Int.cast_natCast,
      Int.cast_natCast, hcast]
  · simp only [if_neg hneg]
    refine ⟨_, _, hplain, hlast, ?_⟩
    have habs : value = (value.natAbs : ℤ) := by omega
    rw [hpow, ← mul_assoc, habs, Int.cast_natCast, Int.cast_natCast, hcast]

/-- With an exponent that is not negative the number is whole. -/
theorem mul_pow_toNat (value : ℤ) (h : 0 ≤ exp) :
    ((value * 10 ^ exp.toNat : ℤ) : ℚ) = value * 10 ^ exp := by
  obtain ⟨n, rfl⟩ := Int.eq_ofNat_of_zero_le h
  rw [Int.toNat_natCast, zpow_natCast]
  push_cast
  rfl

/-- **What the plain text denotes**: the number, with no more digits than it needs. -/
theorem exists_denotes (value exp : ℤ) :
    ∃ n : ℤ, ∃ k : ℕ, PointText (plainText value exp) n k ∧ (k = 0 ∨ ¬10 ∣ n) ∧
      (n : ℚ) * 10 ^ (-(k : ℤ)) = value * 10 ^ exp := by
  by_cases h : 0 ≤ exp
  · refine ⟨value * 10 ^ exp.toNat, 0, ?_, .inl rfl, ?_⟩
    · rw [plainText, if_pos h]
      exact .whole (intText_itoa _)
    · rw [mul_pow_toNat value h, Nat.cast_zero, neg_zero, zpow_zero, mul_one]
  · exact exists_denotes_of_neg (not_le.mp h)

variable {n : ℤ}

/-- Whoever reads the plain text reads the number. -/
theorem eq_of_denotes_plainText {e : ℤ} (h : Denotes (plainText value exp) n e) :
    (n : ℚ) * 10 ^ e = value * 10 ^ exp := by
  obtain ⟨m, k, htext, -, hnumber⟩ := exists_denotes value exp
  obtain ⟨rfl, rfl⟩ := h.unique (.plain htext)
  exact hnumber

/-- Numbers with one text are equal. -/
theorem eq_of_plainText_eq {value' exp' : ℤ} (h : plainText value exp = plainText value' exp') :
    (value : ℚ) * 10 ^ exp = value' * 10 ^ exp' := by
  obtain ⟨n, k, htext, -, hnumber⟩ := exists_denotes value exp
  rw [h] at htext
  rw [← hnumber, ← eq_of_denotes_plainText (.plain htext)]

theorem IntText.ascii (h : IntText t n) (hc : c ∈ t) : c < 0x80 := by
  rcases h.bytes c hc with hdigit | rfl | rfl
  · rw [isDigit, Bool.and_eq_true, decide_eq_true_eq, decide_eq_true_eq] at hdigit
    grind
  · decide
  · decide

theorem PointText.ascii {k : ℕ} (h : PointText t n k) (hc : c ∈ t) : c < 0x80 := by
  cases h with
  | whole h => exact h.ascii hc
  | point h =>
    rw [List.mem_append, List.mem_cons, or_left_comm] at hc
    rcases hc with rfl | hc
    · decide
    · exact h.ascii (List.mem_append.mpr hc)

/-- The plain text is ASCII. -/
theorem plainText_ascii (hc : c ∈ plainText value exp) : c < 0x80 := by
  obtain ⟨n, k, htext, -⟩ := exists_denotes value exp
  exact htext.ascii hc

example : plainText (-12500) (-4) = bytes "-1.25" := by decide +kernel

/-! ## Digits after the point -/

/-- The number of bytes after the point, if there is one. -/
def fractionDigits (t : Bytes) : ℕ := ((cut isPoint t).map fun parts => parts.2.length).getD 0

theorem PointText.fractionDigits_eq {k : ℕ} (h : PointText t n k) : fractionDigits t = k := by
  cases h with
  | whole hint =>
    rw [fractionDigits, cut_eq_none.mpr fun c hc => not_point_of_isDigit (hint.bytes c hc)]
    rfl
  | @point a b _ hint =>
    rw [fractionDigits, cut_append (fun c hc => ?_) rfl]
    · rfl
    · exact not_point_of_isDigit (hint.bytes c (List.mem_append_left b hc))

/-- **How many digits a number needs** after the point: so many that it is a multiple of the power. -/
theorem fractionDigits_le_iff {n : ℕ} : fractionDigits (plainText value exp) ≤ n ↔
    ∃ k : ℤ, (value : ℚ) * 10 ^ exp = k * 10 ^ (-(n : ℤ)) := by
  obtain ⟨m, j, htext, hlast, hnumber⟩ := exists_denotes value exp
  rw [htext.fractionDigits_eq, ← hnumber]
  have hpow : ∀ {a b : ℕ}, a ≤ b → (10 : ℚ) ^ (-(a : ℤ)) = 10 ^ (b - a) * 10 ^ (-(b : ℤ)) := by
    intro a b hab
    rw [← zpow_natCast, ← zpow_add₀ (by norm_num), Nat.cast_sub hab]
    congr 1
    ring
  constructor
  · intro hle
    refine ⟨m * 10 ^ (n - j), ?_⟩
    rw [hpow hle]
    push_cast
    ring
  · rintro ⟨k, hk⟩
    by_contra hlt
    -- with fewer digits the last one would be a zero
    rw [hpow (not_le.mp hlt).le, ← mul_assoc] at hk
    have hm : (m : ℚ) = k * 10 ^ (j - n) := mul_right_cancel₀ (pow_ten_pos _).ne' hk
    have hm : m = k * 10 ^ (j - n) := by exact_mod_cast hm
    rcases hlast with hzero | hlast
    · omega
    · exact hlast (hm ▸ Dvd.dvd.mul_left (dvd_pow_self 10 (by omega)) k)

/-- **The text of a whole number** above zero has no leading zeros, whatever the exponent is. -/
theorem plainText_eq_natText {n : ℕ} (hn : 0 < n) (h : (value : ℚ) * 10 ^ exp = n) :
    plainText value exp = natText n := by
  unfold plainText
  split
  · rename_i hexp
    rw [← mul_pow_toNat value hexp] at h
    obtain hwhole : value * 10 ^ exp.toNat = n := by exact_mod_cast h
    rw [hwhole, itoa, if_neg (by omega), Int.natAbs_natCast]
  · rename_i hexp
    obtain ⟨k, hk⟩ := Int.eq_ofNat_of_zero_le (neg_nonneg.mpr (not_le.mp hexp).le)
    have hexp : exp = -(k : ℤ) := by omega
    have hvalue : value = ((10 ^ k * n : ℕ) : ℤ) := by
      rw [hexp, zpow_neg, zpow_natCast, mul_inv_eq_iff_eq_mul₀ (by positivity)] at h
      have h : (value : ℚ) = ((10 ^ k * n : ℕ) : ℚ) := by
        rw [h]
        push_cast
        ring
      exact_mod_cast h
    have hdigits : natText (10 ^ k * n) = natText n ++ List.replicate k 48 := by
      rw [natText, if_neg (by positivity), natText, if_neg hn.ne',
        Nat.digits_base_pow_mul (by decide) hn]
      simp
    have hsplit : splitDigits (natText n ++ List.replicate k 48) k =
        (natText n, List.replicate k 48) := by
      have hlength := List.length_pos_iff.mpr (natText_ne_nil n)
      rw [splitDigits, if_pos (by simpa using hlength)]
      simp
    rw [hvalue, hexp, Int.natAbs_natCast, Int.natAbs_neg, Int.natAbs_natCast, hdigits, hsplit]
    simp only [if_neg (not_lt.mpr (Int.natCast_nonneg _))]
    simp [trimZeros, joinDigits]

end HstongApi.Numeral
