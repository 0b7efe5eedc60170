import HstongApi.Clock
import HstongApi.Transition
import Mathlib.Algebra.Order.Field.Rat
import Mathlib.Data.Rat.Defs
import Mathlib.Logic.Function.Basic
import Mathlib.Tactic.Linarith
import Mathlib.Tactic.Positivity

/-!
# Token buckets

A bucket holds tokens up to its burst. A waiter locks it, refills it up to the time that the clock
shows, and takes a token if there is one; otherwise it sleeps and tries again, or its context ends.
The numbers are exact rationals and the clock may jump.

The tokens that were taken and those that are there do not grow faster than the last refill time
advances (`potential_step`), which bounds how many calls are admitted between any two refills. A
bucket whose last refill is at the zero time takes this for a bucket that was never refilled, and
so a clock that goes back behind the zero time is an exception.
-/

namespace HstongApi.RateLimit

open Clock

/-! ## Buckets -/

/-- `Limit` -/
structure Limit where
  tokensPerSecond : ℚ
  burst : ℤ
  deriving DecidableEq

/-- `Limit.enabled` -/
def Limit.enabled (l : Limit) : Bool := 0 < l.tokensPerSecond && 0 < l.burst

/-- `bucket` -/
structure Bucket where
  limit : Limit
  tokens : ℚ
  last : ℤ
  deriving DecidableEq

/-- `newBucket` -/
def newBucket (limit : Limit) (now : ℤ) : Bucket := ⟨limit, limit.burst, now⟩

/-- `Duration.Seconds` -/
def seconds (d : ℤ) : ℚ := d / 1000000000

/-- `refill` -/
def Bucket.refill (b : Bucket) (now : ℤ) : Bucket :=
  if b.last = 0 then { b with last := now }
  else
    let elapsed := sub now b.last
    if elapsed ≤ 0 then b
    else
      let tokens := b.tokens + seconds elapsed * b.limit.tokensPerSecond
      { b with last := now, tokens := if b.limit.burst < tokens then b.limit.burst else tokens }

/-- The part of `wait` after the refill: a token is taken, or there is none. -/
def Bucket.take (b : Bucket) : Bucket × Bool :=
  if 1 ≤ b.tokens then ({ b with tokens := b.tokens - 1 }, true) else (b, false)

/-! ## Waiters -/

/-- Where a call of `wait` is. -/
inductive Phase
  /-- before it locks the bucket -/
  | ready
  | sleeping
  | admitted
  | refused
  deriving DecidableEq

/-- A bucket and the calls that wait for it. -/
structure Waiters where
  bucket : Bucket
  /-- who holds the lock of the bucket, and has refilled it -/
  holder : Option ℕ := none
  phase : ℕ → Option Phase := fun _ => none
  /-- how many calls were admitted -/
  admitted : ℕ := 0

/-- What the waiters do. -/
inductive Action
  | arrive (i : ℕ)
  | refill (i : ℕ) (now : ℤ)
  | take (i : ℕ)
  /-- the timer fires -/
  | wake (i : ℕ)
  /-- the context is done -/
  | cancel (i : ℕ)

/-- A waiter goes on. -/
def Waiters.move (s : Waiters) (i : ℕ) (phase : Phase) : Waiters :=
  { s with phase := Function.update s.phase i (some phase) }

/-- A step of a waiter. -/
def step (s : Waiters) : Action → Option Waiters
  | .arrive i => if s.phase i = none then some (s.move i .ready) else none
  | .refill i now =>
    if s.phase i = some .ready ∧ s.holder = none then
      some { s with bucket := s.bucket.refill now, holder := some i }
    else none
  | .take i =>
    if s.holder = some i then
      match s.bucket.take with
      | (b, true) =>
        some ({ s with bucket := b, holder := none, admitted := s.admitted + 1 }.move i .admitted)
      | (b, false) => some ({ s with bucket := b, holder := none }.move i .sleeping)
    else none
  | .wake i => if s.phase i = some .sleeping then some (s.move i .ready) else none
  | .cancel i => if s.phase i = some .sleeping then some (s.move i .refused) else none

/-- A new bucket for which nobody waits. -/
def init (limit : Limit) (now : ℤ) : Waiters := { bucket := newBucket limit now }

/-! ## What a step does to the bucket -/

/-- The bucket is within its limit. -/
structure Bucket.Filled (b : Bucket) : Prop where
  enabled : b.limit.enabled = true
  nonneg : 0 ≤ b.tokens
  le_burst : b.tokens ≤ b.limit.burst

theorem Limit.rate_pos {l : Limit} (h : l.enabled = true) : 0 < l.tokensPerSecond :=
  of_decide_eq_true (Bool.and_eq_true_iff.mp h).1

theorem Limit.burst_pos {l : Limit} (h : l.enabled = true) : 0 < l.burst :=
  of_decide_eq_true (Bool.and_eq_true_iff.mp h).2

variable {limit : Limit}

theorem filled_newBucket (h : limit.enabled = true) (now : ℤ) : (newBucket limit now).Filled := by
  have hburst : (0 : ℚ) ≤ limit.burst := by exact_mod_cast (Limit.burst_pos h).le
  exact ⟨h, hburst, le_refl _⟩

theorem seconds_mono {d e : ℤ} (h : d ≤ e) : seconds d ≤ seconds e := by
  have hcast : (d : ℚ) ≤ e := by exact_mod_cast h
  unfold seconds
  linarith

theorem seconds_sub (d e : ℤ) : seconds (d - e) = seconds d - seconds e := by
  unfold seconds
  push_cast
  exact sub_div ..

theorem seconds_nonneg {d : ℤ} (h : 0 ≤ d) : 0 ≤ seconds d := by
  have hcast : (0 : ℚ) ≤ d := by exact_mod_cast h
  unfold seconds
  positivity

@[simp] theorem Bucket.refill_limit (b : Bucket) (now : ℤ) : (b.refill now).limit = b.limit := by
  simp only [Bucket.refill]
  split
  · rfl
  · split <;> rfl

@[simp] theorem Bucket.take_limit (b : Bucket) : b.take.1.limit = b.limit := by
  unfold Bucket.take
  split <;> rfl

theorem Bucket.Filled.refill {b : Bucket} (h : b.Filled) (now : ℤ) : (b.refill now).Filled := by
  refine ⟨by rw [b.refill_limit]; exact h.enabled, ?_, ?_⟩
  · simp only [Bucket.refill]
    split
    · exact h.nonneg
    · split
      · exact h.nonneg
      · have hgain := mul_nonneg (seconds_nonneg (not_le.mp ‹_›).le) (Limit.rate_pos h.enabled).le
        simp only
        split
        · exact h.nonneg.trans h.le_burst
        · exact add_nonneg h.nonneg hgain
  · simp only [Bucket.refill]
    split
    · exact h.le_burst
    · split
      · exact h.le_burst
      · simp only
        split
        · exact le_refl _
        · exact not_lt.mp ‹_›

theorem Bucket.Filled.take {b : Bucket} (h : b.Filled) : b.take.1.Filled := by
  unfold Bucket.take
  split
  · have hone : 1 ≤ b.tokens := ‹_›
    exact ⟨h.enabled, sub_nonneg.mpr hone, (sub_le_self _ zero_le_one).trans h.le_burst⟩
  · exact h

/-- What the bucket has, in advance of its last refill time. -/
def Bucket.advance (b : Bucket) : ℚ := b.tokens - b.limit.tokensPerSecond * seconds b.last

/-- A refill does not gain more than the time that has passed. -/
theorem Bucket.Filled.advance_refill_le {b : Bucket} (h : b.Filled) {now : ℤ}
    (hzero : b.last = 0 → 0 ≤ now) : (b.refill now).advance ≤ b.advance := by
  have hrate := (Limit.rate_pos h.enabled).le
  simp only [Bucket.refill]
  split
  · rename_i hlast
    have hmono := mul_le_mul_of_nonneg_left (seconds_mono (hlast ▸ hzero hlast)) hrate
    exact sub_le_sub_left hmono b.tokens
  · split
    · exact le_refl _
    · rename_i hpos
      have hlt := sub_pos_iff.mp (not_le.mp hpos)
      have hgain := mul_le_mul_of_nonneg_left (seconds_mono (sub_le hlt)) hrate
      rw [seconds_sub] at hgain
      simp only [Bucket.advance]
      split
      · have hcap := le_of_lt ‹(b.limit.burst : ℚ) < _›
        linarith
      · linarith

/-! ## How many calls are admitted -/

/-- The clock does not go back behind the zero time when the last refill is at the zero time. -/
def NotBeforeZero (s : Waiters) : Action → Prop
  | .refill _ now => s.bucket.last = 0 → 0 ≤ now
  | _ => True

instance (s : Waiters) : DecidablePred (NotBeforeZero s)
  | .refill _ now => inferInstanceAs (Decidable (s.bucket.last = 0 → 0 ≤ now))
  | .arrive _ | .take _ | .wake _ | .cancel _ => .isTrue trivial

/-- What can happen to the bucket in a step. -/
inductive Changes (s : Waiters) : Action → Waiters → Prop
  | none {a : Action} {s' : Waiters} (hbucket : s'.bucket = s.bucket)
      (hadmitted : s'.admitted = s.admitted) : Changes s a s'
  | refill {i : ℕ} {now : ℤ} {s' : Waiters} (hbucket : s'.bucket = s.bucket.refill now)
      (hadmitted : s'.admitted = s.admitted) : Changes s (.refill i now) s'
  | take {i : ℕ} {s' : Waiters} (htoken : 1 ≤ s.bucket.tokens)
      (hbucket : s'.bucket = { s.bucket with tokens := s.bucket.tokens - 1 })
      (hadmitted : s'.admitted = s.admitted + 1) : Changes s (.take i) s'

variable {s' s : Waiters}

theorem step_changes {a : Action} (hstep : step s a = some s') : Changes s a s' := by
  cases a with
  | arrive i | wake i | cancel i =>
    simp only [step] at hstep
    split at hstep <;> cases hstep
    exact .none rfl rfl
  | refill i now =>
    simp only [step] at hstep
    split at hstep <;> cases hstep
    exact .refill rfl rfl
  | take i =>
    simp only [step, Bucket.take] at hstep
    split at hstep
    · split at hstep
      · rename_i b heq
        split at heq <;> cases heq
        cases hstep
        exact .take ‹_› rfl rfl
      · rename_i b heq
        split at heq <;> cases heq
        cases hstep
        exact .none rfl rfl
    · cases hstep

/-- The tokens that were taken and those that are there, in advance of the last refill time. -/
def potential (s : Waiters) : ℚ := s.admitted + s.bucket.advance

/-- The bucket is within a limit that does not change. -/
structure Within (limit : Limit) (s : Waiters) : Prop where
  limit : s.bucket.limit = limit
  filled : s.bucket.Filled

theorem within_init (h : limit.enabled = true) (start : ℤ) : Within limit (init limit start) :=
  ⟨rfl, filled_newBucket h start⟩

theorem Within.step {a : Action} (h : Within limit s) (hstep : RateLimit.step s a = some s') :
    Within limit s' := by
  cases step_changes hstep with
  | none hbucket hadmitted => exact ⟨hbucket ▸ h.limit, hbucket ▸ h.filled⟩
  | @refill i now _ hbucket hadmitted =>
    exact ⟨hbucket ▸ (s.bucket.refill_limit now).trans h.limit, hbucket ▸ h.filled.refill now⟩
  | take htoken hbucket hadmitted =>
    have htake : s.bucket.take.1 = s'.bucket := by rw [Bucket.take, if_pos htoken, hbucket]
    exact ⟨htake ▸ s.bucket.take_limit.trans h.limit, htake ▸ h.filled.take⟩

theorem potential_step {a : Action} (h : Within limit s) (hzero : NotBeforeZero s a)
    (hstep : RateLimit.step s a = some s') : potential s' ≤ potential s := by
  unfold potential
  cases step_changes hstep with
  | none hbucket hadmitted => rw [hbucket, hadmitted]
  | refill hbucket hadmitted =>
    rw [hbucket, hadmitted]
    exact add_le_add_right (h.filled.advance_refill_le hzero) _
  | take htoken hbucket hadmitted =>
    rw [hbucket, hadmitted]
    simp only [Bucket.advance]
    push_cast
    linarith

/-- **The bound of a bucket.** Between any two points of a run, so between any two refills, no
more calls are admitted than the burst and what the rate gives for the time by which the last
refill has advanced; and the tokens are always within the burst. -/
theorem admitted_le {limit : Limit} (henabled : limit.enabled = true) (start : ℤ)
    (before run : List Action) (s s' : Waiters)
    (hbefore : exec step (init limit start) before = some s) (hrun : exec step s run = some s')
    (hzero : EachStep step NotBeforeZero s run) :
    (s'.admitted : ℚ) - s.admitted ≤
        limit.burst + limit.tokensPerSecond * seconds (s'.bucket.last - s.bucket.last) ∧
      0 ≤ s'.bucket.tokens ∧ s'.bucket.tokens ≤ limit.burst := by
  have hall : ∀ {s₀ s₁ : Waiters} {run : List Action}, Within limit s₀ →
      exec step s₀ run = some s₁ → Within limit s₁ := fun hs hrun =>
    (always_of_step (fun _ _ _ h hstep => h.step hstep) hs _).last hrun
  have hs := hall (within_init henabled start) hbefore
  have hs' := hall hs hrun
  have hpotential : potential s' ≤ potential s :=
    hzero.exec_le (fun _ _ _ h hcond hstep => ⟨h.step hstep, potential_step h hcond hstep⟩) hs hrun
  simp only [potential, Bucket.advance, hs.limit, hs'.limit] at hpotential
  have hburst := hs.limit ▸ hs.filled.le_burst
  rw [seconds_sub]
  refine ⟨?_, hs'.filled.nonneg, hs'.limit ▸ hs'.filled.le_burst⟩
  have hnonneg := hs'.filled.nonneg
  linarith

/-- A limit of one token and one more for each second. -/
def oneToken : Limit := ⟨1, 1⟩

/-- The first waiter has refilled the bucket. -/
def firstWaiter : Waiters := { init oneToken 1 with holder := some 0 }.move 0 .ready

/-- It takes the token, and a second one waits for another second. -/
def secondWaiter : List Action :=
  [.take 0, .arrive 1, .refill 1 2, .take 1, .wake 1, .refill 1 1000000001, .take 1]

theorem admitted_le_secondWaiter :
    ∃ s', exec step firstWaiter secondWaiter = some s' ∧ s'.admitted = 2 ∧
      (s'.admitted : ℚ) - firstWaiter.admitted ≤ oneToken.burst +
        oneToken.tokensPerSecond * seconds (s'.bucket.last - firstWaiter.bucket.last) ∧
      0 ≤ s'.bucket.tokens ∧ s'.bucket.tokens ≤ oneToken.burst := by
  have hfirst : exec step (init oneToken 1) [.arrive 0, .refill 0 1] = some firstWaiter := rfl
  have hzero : EachStep step NotBeforeZero firstWaiter secondWaiter := by decide +kernel
  obtain ⟨s', hrun, htwo⟩ : ∃ s', exec step firstWaiter secondWaiter = some s' ∧ s'.admitted = 2 :=
    exec_exists (by decide +kernel)
  exact ⟨s', hrun, htwo, admitted_le (by decide +kernel) 1 _ _ _ _ hfirst hrun hzero⟩

/-- A bucket that was made and refilled at the zero time. -/
def zeroWaiter : Waiters := { init oneToken 0 with holder := some 0 }.move 0 .ready

/-- The clock goes back by two seconds and forth again, twice. -/
def aroundZero : List Action :=
  [.take 0, .arrive 1, .refill 1 (-2000000000), .take 1, .wake 1, .refill 1 0, .take 1,
    .arrive 2, .refill 2 (-2000000000), .take 2, .wake 2, .refill 2 0]

/-- Two calls are admitted between two refills at the zero time, although the burst is one. -/
theorem admitted_aroundZero :
    exec step (init oneToken 0) [.arrive 0, .refill 0 0] = some zeroWaiter ∧
    ∃ s', exec step zeroWaiter aroundZero = some s' ∧
      s'.bucket.last = zeroWaiter.bucket.last ∧ s'.admitted = zeroWaiter.admitted + 2 ∧
      oneToken.burst = 1 :=
  ⟨rfl, exec_exists (by decide +kernel)⟩

end HstongApi.RateLimit
