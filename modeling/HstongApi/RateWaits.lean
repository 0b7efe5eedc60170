import HstongApi.RateLimit
import Mathlib.Algebra.Order.Floor.Ring
import Mathlib.Algebra.Order.Floor.Defs
import Mathlib.Data.Rat.Floor
import Mathlib.Tactic.FieldSimp

/-!
# How long a waiter waits

A waiter that finds no token sleeps until there should be one: the time that the rate needs for what is
missing, as a `time.Duration`, and at least a millisecond. The number of nanoseconds is rounded down,
so after the first sleep a part of a token may still be missing, but less than the rate gives in a
nanosecond, and the second sleep is long enough for it.

This is so as long as the time fits a duration and the clock is where the bucket expects it
(`admitted_within_two`).
-/

namespace HstongApi.RateLimit

open Clock

/-! ## Waiting -/

/-- The conversion of a number to a `time.Duration`. It rounds towards zero if the result fits; what
it gives otherwise depends on the machine. -/
structure Conversion where
  convert : ℚ → ℤ
  convert_eq : ∀ x : ℚ, 0 ≤ x → x < maxDuration + 1 → convert x = ⌊x⌋
  convert_le : ∀ x : ℚ, convert x ≤ maxDuration

/-- How many nanoseconds it takes until the bucket has a token. -/
def Bucket.need (b : Bucket) : ℚ := 1000000000 * (1 - b.tokens) / b.limit.tokensPerSecond

/-- The duration for which a waiter sleeps. -/
def Bucket.pause (b : Bucket) (c : Conversion) : ℤ :=
  if c.convert b.need < 1000000 then 1000000 else c.convert b.need

/-- What ends a sleep: the timer fires, and then the clock shows this time; or the context is done. -/
inductive Select (ε : Type)
  | timer (now : ℤ)
  | done (err : ε)

/-- How far a call of `wait` came. -/
inductive Outcome (ε : Type)
  | admitted
  | refused (err : ε)
  | sleeping (pause : ℤ)
  deriving DecidableEq

/-- `wait`, by a waiter that is alone, for the ends of its sleeps. -/
def Bucket.wait {ε : Type} (c : Conversion) (b : Bucket) (now : ℤ) (selects : List (Select ε)) :
    Bucket × Outcome ε :=
  match (b.refill now).take, selects with
  | (b, true), _ => (b, .admitted)
  | (b, false), [] => (b, .sleeping (b.pause c))
  | (b, false), .timer later :: selects => b.wait c later selects
  | (b, false), .done err :: _ => (b, .refused err)

/-- The timers do not fire early. -/
def Punctual (c : Conversion) (b : Bucket) (now : ℤ) : List ℤ → Prop
  | [] => True
  | later :: rest =>
    (b.refill now).tokens < 1 →
      now + (b.refill now).pause c ≤ later ∧ Punctual c (b.refill now) later rest

def decidePunctual (c : Conversion) (b : Bucket) (now : ℤ) :
    (times : List ℤ) → Decidable (Punctual c b now times)
  | [] => .isTrue trivial
  | later :: rest =>
    have := decidePunctual c (b.refill now) later rest
    inferInstanceAs (Decidable ((b.refill now).tokens < 1 →
      now + (b.refill now).pause c ≤ later ∧ Punctual c (b.refill now) later rest))

instance (c : Conversion) (b : Bucket) (now : ℤ) : DecidablePred (Punctual c b now) :=
  decidePunctual c b now

section

variable {ε : Type} {c : Conversion} {b : Bucket} {now : ℤ}

theorem Bucket.take_of_token (h : 1 ≤ b.tokens) :
    b.take = ({ b with tokens := b.tokens - 1 }, true) := if_pos h

theorem Bucket.take_of_empty (h : b.tokens < 1) : b.take = (b, false) := if_neg (not_le.mpr h)

theorem Bucket.wait_of_token (h : 1 ≤ (b.refill now).tokens) (selects : List (Select ε)) :
    (b.wait c now selects).2 = .admitted := by
  unfold wait
  rw [take_of_token h]

theorem Bucket.wait_of_empty (h : (b.refill now).tokens < 1) (later : ℤ) (selects : List (Select ε)) :
    b.wait c now (.timer later :: selects) = (b.refill now).wait c later selects := by
  rw [wait.eq_def, take_of_empty h]

/-- **A waiter is admitted at once exactly if there is a token after the refill.** -/
theorem Bucket.wait_nil_iff :
    (b.wait c now ([] : List (Select ε))).2 = .admitted ↔ 1 ≤ (b.refill now).tokens := by
  refine ⟨fun h => ?_, fun h => wait_of_token h []⟩
  by_contra hnot
  rw [wait.eq_def, take_of_empty (not_le.mp hnot)] at h
  cases h

/-! ## What a sleep brings -/

/-- After a refill at this time, the last refill is at this time. -/
theorem Bucket.last_refill (h : b.last ≤ now) : (b.refill now).last = now := by
  simp only [refill]
  split
  · rfl
  · split
    · rename_i hnot
      exact le_antisymm h (not_lt.mp fun hlt => absurd (sub_pos_iff.mpr hlt) (not_lt.mpr hnot))
    · rfl

/-- What a refill adds for the time that has passed, up to a whole token. -/
theorem Bucket.refill_gain (henabled : b.limit.enabled = true) (hlast : b.last ≠ 0) {d later : ℤ}
    (hpos : 0 < d) (hmax : d ≤ maxDuration) (hlater : b.last + d ≤ later) :
    1 ≤ (b.refill later).tokens ∨
      b.tokens + seconds d * b.limit.tokensPerSecond ≤ (b.refill later).tokens := by
  have hmin : minDuration < d := lt_trans (by decide) hpos
  have helapsed : d ≤ sub later b.last := (le_sub_iff hmin hmax).mpr hlater
  have hgain := mul_le_mul_of_nonneg_right (seconds_mono helapsed) (Limit.rate_pos henabled).le
  simp only [refill]
  rw [if_neg hlast, if_neg (by omega)]
  simp only
  split
  · have hburst : (1 : ℚ) ≤ b.limit.burst := by exact_mod_cast Limit.burst_pos henabled
    exact .inl hburst
  · exact .inr (by linarith)

/-- The sleep falls short by less than a nanosecond. -/
theorem Bucket.need_lt_pause (hneed : 0 ≤ b.need) (hfits : b.need < maxDuration + 1) :
    b.need < b.pause c + 1 ∧ 1000000 ≤ b.pause c ∧ b.pause c ≤ maxDuration := by
  have hfloor := c.convert_eq b.need hneed hfits
  have hlt := Int.lt_floor_add_one b.need
  unfold pause
  split
  · rename_i hsmall
    rw [hfloor] at hsmall
    have hcast : ((⌊b.need⌋ : ℤ) : ℚ) < 1000000 := by exact_mod_cast hsmall
    exact ⟨by push_cast; linarith, le_rfl, by decide⟩
  · rename_i hlarge
    rw [hfloor] at hlarge ⊢
    exact ⟨hlt, not_lt.mp hlarge, hfloor ▸ c.convert_le _⟩

theorem Bucket.need_mul_rate (henabled : b.limit.enabled = true) :
    b.need * b.limit.tokensPerSecond = 1000000000 * (1 - b.tokens) :=
  div_mul_cancel₀ _ (Limit.rate_pos henabled).ne'

theorem Bucket.need_nonneg (henabled : b.limit.enabled = true) (h : b.tokens < 1) : 0 ≤ b.need := by
  have hrate := Limit.rate_pos henabled
  exact div_nonneg (by linarith) hrate.le

/-- After a sleep a token is there, or it takes less than a nanosecond until it is. -/
theorem Bucket.after_pause (henabled : b.limit.enabled = true) (hlast : b.last ≠ 0)
    (hempty : b.tokens < 1) (hfits : b.need < maxDuration + 1) {later : ℤ}
    (hlater : b.last + b.pause c ≤ later) :
    1 ≤ (b.refill later).tokens ∨ (b.refill later).need < 1 := by
  have hrate := Limit.rate_pos henabled
  obtain ⟨hshort, hmin, hmax⟩ := need_lt_pause (c := c) (need_nonneg henabled hempty) hfits
  refine (refill_gain henabled hlast (by omega) hmax hlater).imp_right fun hgain => ?_
  have hneed := need_mul_rate henabled
  rw [need, refill_limit, div_lt_one hrate]
  unfold seconds at hgain
  nlinarith

/-- If it takes less than a nanosecond, a sleep is long enough. -/
theorem Bucket.after_short_pause (henabled : b.limit.enabled = true) (hlast : b.last ≠ 0)
    (hempty : b.tokens < 1) (hneed : b.need < 1) {later : ℤ} (hlater : b.last + b.pause c ≤ later) :
    1 ≤ (b.refill later).tokens := by
  have hrate := Limit.rate_pos henabled
  have hfits : b.need < maxDuration + 1 := hneed.trans (by norm_num [maxDuration])
  obtain ⟨-, hmin, hmax⟩ := need_lt_pause (c := c) (need_nonneg henabled hempty) hfits
  refine (refill_gain henabled hlast (by omega) hmax hlater).elim id fun hgain => ?_
  have hscale := need_mul_rate henabled
  have hpause : (1000000 : ℚ) ≤ b.pause c := by exact_mod_cast hmin
  unfold seconds at hgain
  nlinarith

end

/-- **A waiter that is alone is admitted after at most two sleeps**, and without a sleep exactly if a
whole token is there after the refill. The time until then has to fit a duration, and the clock is
past the zero time and not behind the last refill. -/
theorem admitted_within_two {ε : Type} (c : Conversion) (b : Bucket) (now : ℤ)
    (henabled : b.limit.enabled = true) (hclock : 0 < now) (hlast : b.last ≤ now)
    (hfits : (b.refill now).need < maxDuration + 1) (first second : ℤ)
    (hpunctual : Punctual c b now [first, second]) :
    (b.wait c now [.timer first, .timer second]).2 = (.admitted : Outcome ε) ∧
      ((b.wait c now []).2 = (.admitted : Outcome ε) ↔ 1 ≤ (b.refill now).tokens) := by
  refine ⟨?_, Bucket.wait_nil_iff⟩
  have henabled' : (b.refill now).limit.enabled = true := by rwa [Bucket.refill_limit]
  have hnow := Bucket.last_refill hlast
  by_cases htoken : 1 ≤ (b.refill now).tokens
  · exact Bucket.wait_of_token htoken _
  rw [not_le] at htoken
  rw [Bucket.wait_of_empty htoken]
  obtain ⟨hfirst, hrest⟩ := hpunctual htoken
  generalize b.refill now = b' at *
  subst hnow
  by_cases htoken' : 1 ≤ (b'.refill first).tokens
  · exact Bucket.wait_of_token htoken' _
  -- less than a nanosecond is missing
  have hshort := (Bucket.after_pause henabled' hclock.ne' htoken hfits hfirst).resolve_left htoken'
  rw [not_le] at htoken'
  rw [Bucket.wait_of_empty htoken']
  obtain ⟨hsecond, -⟩ := hrest htoken'
  have hpause : 1000000 ≤ b'.pause c :=
    (Bucket.need_lt_pause (Bucket.need_nonneg henabled' htoken) hfits).2.1
  have hlast' : (b'.refill first).last = first := Bucket.last_refill (by omega)
  refine Bucket.wait_of_token (Bucket.after_short_pause (c := c) ?_ ?_ htoken' hshort ?_) _
  · rwa [Bucket.refill_limit]
  · omega
  · rwa [hlast']

/-- The conversion of a machine that gives the largest duration for what does not fit. -/
def saturating : Conversion where
  convert x := min maxDuration ⌊x⌋
  convert_eq x _ h := min_eq_right (Int.floor_le_iff.mpr (by exact_mod_cast h))
  convert_le x := min_le_left ..

/-- Three tokens for each second, and one of them at a time. -/
def threePerSecond : Bucket := ⟨⟨3, 1⟩, 0, 1⟩

theorem admitted_within_two_three :
    Punctual saturating threePerSecond 1 [333333334, 334333334] ∧
      (threePerSecond.wait saturating 1 [.timer 333333334, .timer 334333334]).2 =
        (.admitted : Outcome Unit) ∧
      ((threePerSecond.wait saturating 1 []).2 = (.admitted : Outcome Unit) ↔
        1 ≤ (threePerSecond.refill 1).tokens) :=
  ⟨by decide +kernel, admitted_within_two saturating threePerSecond 1 (by decide +kernel)
    (by decide) (by decide) (by decide +kernel) 333333334 334333334 (by decide +kernel)⟩

/-- A third sleep is needed if a token takes longer than the longest duration, at the zero time, and
if the clock is behind the last refill. -/
theorem sleeps_again :
    (let b : Bucket := ⟨⟨1 / 100000000000, 1⟩, 0, 1⟩;
      Punctual saturating b 1 [100000000000000000000, 200000000000000000000] ∧
        (b.wait saturating 1 [.timer 100000000000000000000, .timer 200000000000000000000]).2 ≠
          (.admitted : Outcome Unit)) ∧
    (let b : Bucket := { threePerSecond with last := 0 };
      Punctual saturating b 0 [333333333, 666666666] ∧
        (b.wait saturating 0 [.timer 333333333, .timer 666666666]).2 ≠ (.admitted : Outcome Unit)) ∧
    (let b : Bucket := { threePerSecond with last := 2000000000 };
      Punctual saturating b 1 [333333334, 666666667] ∧
        (b.wait saturating 1 [.timer 333333334, .timer 666666667]).2 ≠ (.admitted : Outcome Unit)) := by
  decide +kernel

end HstongApi.RateLimit
