import HstongApi.Durations
import HstongApi.Retry
import Mathlib.Algebra.Order.Ring.Pow
import Mathlib.Tactic.Positivity

/-!
# The delay between two attempts

`Delay` doubles the base backoff round after round. Up to the cap this is the geometric sequence
`base * 2 ^ (n - 1)`. Where doubling overflows, the loop ends with the cap in place of the duration,
and if there is no cap this is a number that is not positive. So the delay is the capped geometric
sequence exactly where there is a cap or no overflow (`delay_geometric_iff`).
-/

namespace HstongApi.Retry

open Durations

/-! ## The delay before the jitter -/

/-- What `Delay` has computed when it comes to the jitter. -/
def Policy.level (p : Policy) (n : ℤ) : Int64 :=
  let d := p.grow (n - 1).toNat p.baseBackoff
  if 0 < p.maxBackoff ∧ p.maxBackoff < d then p.maxBackoff else d

section

variable {σ ε : Type}

theorem Policy.delay_steady {p : Policy} (hbase : 0 < p.baseBackoff) (hjitter : p.jitter = false)
    (env : Env σ ε) {n : ℤ} (hn : 1 ≤ n) (w : σ) : p.delay env n w = (w, p.level n) := by
  have hgo : ¬(p.baseBackoff ≤ 0 ∨ n < 1) := not_or.mpr ⟨Int64.not_le.mpr hbase, not_lt.mpr hn⟩
  have hoff : ∀ c : Prop, ¬((p.jitter : Prop) ∧ c) := fun c h => nomatch hjitter.symm.trans h.1
  rw [delay, if_neg hgo]
  simp only [hoff, if_false]
  rfl

theorem Policy.delay_jitter {p : Policy} (hbase : 0 < p.baseBackoff) (hjitter : p.jitter = true)
    (env : Env σ ε) {n : ℤ} (hn : 1 ≤ n) (w : σ) :
    (p.delay env n w).2 = if 0 < p.level n ∧ 0 < p.level n / 2 then
      p.level n / 2 + (env.int63n (p.level n / 2 + 1) w).2 else p.level n := by
  have hgo : ¬(p.baseBackoff ≤ 0 ∨ n < 1) := not_or.mpr ⟨Int64.not_le.mpr hbase, not_lt.mpr hn⟩
  rw [delay, if_neg hgo]
  simp only [hjitter, true_and]
  change (if 0 < p.level n ∧ 0 < p.level n / 2 then _ else _ : σ × Int64).2 = _
  split <;> rfl

/-- `rand.Int63n` draws a number below its bound. -/
def Env.Draws (env : Env σ ε) : Prop :=
  ∀ k w, 0 < k → 0 ≤ (env.int63n k w).2 ∧ (env.int63n k w).2 < k

end

/-! ## The closed form -/

/-- The cap, or the largest duration where there is none. -/
def Policy.ceiling (p : Policy) : ℤ :=
  if 0 < p.maxBackoff then p.maxBackoff.toInt else Clock.maxDuration

/-- **The capped geometric sequence.** -/
def Policy.geometric (p : Policy) (n : ℤ) : ℤ :=
  min (p.baseBackoff.toInt * 2 ^ (n - 1).toNat) p.ceiling

theorem Policy.ceiling_pos (p : Policy) : 0 < p.ceiling := by
  unfold ceiling
  split
  · exact pos_iff.mp ‹_›
  · decide

variable {p : Policy} {n : ℤ}

theorem Policy.geometric_pos (hbase : 0 < p.baseBackoff) (n : ℤ) : 0 < p.geometric n :=
  lt_min (mul_pos (pos_iff.mp hbase) (by positivity)) p.ceiling_pos

theorem Policy.geometric_mono (hbase : 0 < p.baseBackoff) {m : ℤ} (h : m ≤ n) :
    p.geometric m ≤ p.geometric n := by
  have hpow : (2 : ℤ) ^ (m - 1).toNat ≤ 2 ^ (n - 1).toNat :=
    pow_le_pow_right₀ one_le_two (by omega)
  exact min_le_min_right _ (mul_le_mul_of_nonneg_left hpow (pos_iff.mp hbase).le)

theorem double_pow (d : ℤ) (rounds : ℕ) : d * 2 ^ (rounds + 1) = d * 2 * 2 ^ rounds := by
  rw [pow_succ', mul_assoc]

theorem double_le_pow {d : ℤ} (hd : 0 < d) (rounds : ℕ) : d * 2 ≤ d * 2 ^ (rounds + 1) := by
  rw [double_pow]
  exact le_mul_of_one_le_right (by omega) (one_le_pow₀ one_le_two)

/-- The loop comes to the geometric sequence, as far as the cap shows it. -/
theorem Policy.min_grow (p : Policy) (rounds : ℕ) {d : Int64} (hd : 0 < d.toInt) :
    min (p.grow rounds d).toInt p.maxBackoff.toInt =
      min (d.toInt * 2 ^ rounds) p.maxBackoff.toInt := by
  induction rounds generalizing d with
  | zero => rw [grow, pow_zero, mul_one]
  | succ rounds ih =>
    have hgrowth := double_le_pow hd rounds
    rw [grow]
    split
    · rename_i hreached
      have hle := toInt_le_iff.mpr hreached.2
      rw [min_eq_right hle, min_eq_right (by omega)]
    · split
      · -- the double does not fit, and so it is above the cap
        rename_i hover
        have hlarge := (double_nonpos_iff hd).mp hover
        have hmax := p.maxBackoff.toInt_lt
        rw [min_self, min_eq_right (by omega)]
      · rename_i hfits
        have hdouble := toInt_double hd.le (not_le.mp (mt (double_nonpos_iff hd).mpr hfits))
        rw [ih (by omega), hdouble, double_pow]

/-- Without a cap the loop comes to the geometric sequence if that fits, and otherwise to what is
in the place of the cap. -/
theorem Policy.grow_uncapped (hcap : ¬0 < p.maxBackoff) (rounds : ℕ) {d : Int64} (hd : 0 < d.toInt) :
    (p.grow rounds d).toInt =
      if d.toInt * 2 ^ rounds < 2 ^ 63 then d.toInt * 2 ^ rounds else p.maxBackoff.toInt := by
  induction rounds generalizing d with
  | zero => rw [grow, pow_zero, mul_one, if_pos d.toInt_lt]
  | succ rounds ih =>
    have hgrowth := double_le_pow hd rounds
    rw [grow, if_neg (fun h => hcap h.1)]
    split
    · rename_i hover
      have hlarge := (double_nonpos_iff hd).mp hover
      rw [if_neg (by omega)]
    · rename_i hfits
      have hdouble := toInt_double hd.le (not_le.mp (mt (double_nonpos_iff hd).mpr hfits))
      rw [ih (by omega), hdouble, double_pow]

/-- There is a cap, or the sequence has not come to where doubling overflows. -/
def Policy.Growing (p : Policy) (n : ℤ) : Prop :=
  0 < p.maxBackoff ∨ p.baseBackoff.toInt * 2 ^ (n - 1).toNat < 2 ^ 63

instance (p : Policy) (n : ℤ) : Decidable (p.Growing n) := inferInstanceAs (Decidable (_ ∨ _))

theorem Policy.Growing.mono (hbase : 0 < p.baseBackoff) {m : ℤ} (h : p.Growing n) (hle : m ≤ n) :
    p.Growing m := by
  have hpow : (2 : ℤ) ^ (m - 1).toNat ≤ 2 ^ (n - 1).toNat :=
    pow_le_pow_right₀ one_le_two (by omega)
  exact h.imp_right (mul_le_mul_of_nonneg_left hpow (pos_iff.mp hbase).le).trans_lt

/-- **The delay before the jitter.** -/
theorem Policy.toInt_level (hbase : 0 < p.baseBackoff) (n : ℤ) :
    (p.level n).toInt = if p.Growing n then p.geometric n else p.maxBackoff.toInt := by
  have hpos := pos_iff.mp hbase
  simp only [level]
  by_cases hcap : 0 < p.maxBackoff
  · have hgrowing : p.Growing n := .inl hcap
    have hmin := p.min_grow (n - 1).toNat hpos
    rw [if_pos hgrowing, geometric, ceiling, if_pos hcap, ← hmin]
    split
    · rename_i hover
      exact (min_eq_right (Int64.lt_iff_toInt_lt.mp hover.2).le).symm
    · rename_i hle
      exact (min_eq_left (toInt_le_iff.mpr (Int64.not_lt.mp fun h => hle ⟨hcap, h⟩))).symm
  · have hgrowing : p.Growing n ↔ p.baseBackoff.toInt * 2 ^ (n - 1).toNat < 2 ^ 63 :=
      or_iff_right hcap
    rw [if_neg (fun h => hcap h.1), grow_uncapped hcap _ hpos, geometric, ceiling, if_neg hcap]
    simp only [hgrowing]
    split
    · rename_i hfits
      have hle : p.baseBackoff.toInt * 2 ^ (n - 1).toNat ≤ Clock.maxDuration := by
        unfold Clock.maxDuration
        omega
      rw [min_eq_left hle]
    · rfl

/-! ## The delay -/

/-- **The delay after the attempt `n` is that of the capped geometric sequence.** Without jitter it
is the sequence itself, which is positive and does not decrease; with jitter it is between half of
it, as a duration, and the whole. -/
structure Policy.Geometric (p : Policy) (n : ℤ) : Prop where
  steady : p.jitter = false → ∀ (σ ε : Type) (env : Env σ ε) (w : σ),
    (p.delay env n w).2.toInt = p.geometric n ∧ 0 < (p.delay env n w).2 ∧
      ∀ m, 1 ≤ m → m ≤ n → (p.delay env m w).2 ≤ (p.delay env n w).2
  jitter : p.jitter = true → ∀ (σ ε : Type) (env : Env σ ε) (w : σ), env.Draws →
    p.geometric n / 2 ≤ (p.delay env n w).2.toInt ∧ (p.delay env n w).2.toInt ≤ p.geometric n

/-- Half of a delay and a number up to the other half. -/
theorem Policy.delay_jitter_mem (hbase : 0 < p.baseBackoff) (hjitter : p.jitter = true) {σ ε : Type}
    {env : Env σ ε} (hdraws : env.Draws) (hn : 1 ≤ n) (w : σ) (hpos : 0 < (p.level n).toInt) :
    (p.level n).toInt / 2 ≤ (p.delay env n w).2.toInt ∧
      (p.delay env n w).2.toInt ≤ (p.level n).toInt := by
  have hhalf := toInt_half hpos.le
  rw [delay_jitter hbase hjitter env hn w]
  split
  · rename_i hcond
    have hhalfpos := pos_iff.mp hcond.2
    have hone : (p.level n / 2 + 1).toInt = (p.level n).toInt / 2 + 1 := by
      have hmax := (p.level n).toInt_lt
      rw [toInt_sum hhalfpos.le (by decide) (by rw [hhalf]; have : (1 : Int64).toInt = 1 := rfl; omega),
        hhalf]
      rfl
    obtain ⟨hmin, hmax⟩ := hdraws (p.level n / 2 + 1) w (pos_iff.mpr (by omega))
    have hmin := toInt_le_iff.mpr hmin
    have hmax := Int64.lt_iff_toInt_lt.mp hmax
    change (0 : ℤ) ≤ _ at hmin
    rw [toInt_half_add hpos.le hmin (by omega)]
    omega
  · omega

/-- A world in which nothing happens, and every number that is drawn is the smallest. -/
def quiet : Env Unit Unit := ⟨fun w => (w, none), fun _ w => (w, true), fun _ w => (w, 0)⟩

theorem draws_quiet : quiet.Draws := fun _ _ hk => ⟨Int64.le_refl 0, hk⟩

theorem Policy.delay_quiet_nonpos (hbase : 0 < p.baseBackoff) (hn : 1 ≤ n) (hover : ¬p.Growing n) :
    (p.delay quiet n ()).2.toInt ≤ 0 := by
  have hcap : p.maxBackoff.toInt ≤ 0 := nonpos_iff.mp (Int64.not_lt.mp (not_or.mp hover).1)
  have hlevel := p.toInt_level hbase n
  rw [if_neg hover] at hlevel
  have hnot : ¬(0 < p.level n ∧ 0 < p.level n / 2) := fun h => by
    have hpos := pos_iff.mp h.1
    omega
  cases hjitter : p.jitter with
  | false => rwa [p.delay_steady hbase hjitter quiet hn, hlevel]
  | true => rwa [p.delay_jitter hbase hjitter quiet hn, if_neg hnot, hlevel]

theorem Policy.geometric_of_overflow (hover : ¬p.Growing n) :
    p.geometric n = Clock.maxDuration := by
  obtain ⟨hcap, hlarge⟩ := not_or.mp hover
  rw [geometric, ceiling, if_neg hcap, min_eq_right]
  unfold Clock.maxDuration
  omega

/-- **The delay is the capped geometric sequence exactly where there is a cap or no overflow.** -/
theorem delay_geometric_iff (p : Policy) (hbase : 0 < p.baseBackoff) (n : ℤ) (hn : 1 ≤ n) :
    p.Geometric n ↔ 0 < p.maxBackoff ∨ p.baseBackoff.toInt * 2 ^ (n - 1).toNat < 2 ^ 63 := by
  change _ ↔ p.Growing n
  constructor
  · intro h
    by_contra hover
    have hnonpos := p.delay_quiet_nonpos hbase hn hover
    cases hjitter : p.jitter with
    | false => exact absurd (pos_iff.mp (h.steady hjitter Unit Unit quiet ()).2.1) (not_lt.mpr hnonpos)
    | true =>
      have hhalf := (h.jitter hjitter Unit Unit quiet () draws_quiet).1
      rw [p.geometric_of_overflow hover] at hhalf
      exact absurd (hhalf.trans hnonpos) (by decide)
  · intro hgrowing
    have hlevel : ∀ m, m ≤ n → (p.level m).toInt = p.geometric m := fun m hm => by
      rw [p.toInt_level hbase m, if_pos (hgrowing.mono hbase hm)]
    have hpos : 0 < (p.level n).toInt := hlevel n le_rfl ▸ p.geometric_pos hbase n
    refine ⟨fun hjitter σ ε env w => ?_, fun hjitter σ ε env w hdraws => ?_⟩
    · rw [p.delay_steady hbase hjitter env hn]
      refine ⟨hlevel n le_rfl, pos_iff.mpr hpos, fun m hm hmn => ?_⟩
      rw [p.delay_steady hbase hjitter env hm, ← toInt_le_iff, hlevel m hmn, hlevel n le_rfl]
      exact p.geometric_mono hbase hmn
    · rw [← hlevel n le_rfl]
      exact p.delay_jitter_mem hbase hjitter hdraws hn w hpos

/-- `DefaultPolicy` -/
def defaultPolicy : Policy :=
  { maxAttempts := 3, baseBackoff := 100000000, maxBackoff := 2000000000, jitter := true }

theorem delay_geometric_default : 0 < defaultPolicy.baseBackoff ∧ defaultPolicy.Geometric 6 :=
  ⟨by decide, (delay_geometric_iff defaultPolicy (by decide) 6 (by decide)).mpr (.inl (by decide))⟩

/-- One second, doubled without a cap. -/
def everySecond : Policy := { baseBackoff := 1000000000 }

/-- After 35 attempts the delay is zero. -/
theorem delay_everySecond :
    (everySecond.delay quiet 34 ()).2 = 8589934592000000000 ∧
      (everySecond.delay quiet 35 ()).2 = 0 ∧
      everySecond.geometric 35 = Clock.maxDuration := by
  decide +kernel

end HstongApi.Retry
