import HstongApi.Bytes
import HstongApi.RateLimit
import Mathlib.Tactic.Ring

/-!
# The hierarchical rate limiter

A call of `WaitEndpoint` waits for the global bucket first and then for the bucket of its endpoint,
which is made when it is first looked for. The context of the call can end while it sleeps.

The tokens are `float64` numbers. What the machine makes of the three operations on them is a
parameter (`TokenArithmetic`), of which it is known only that a full bucket does not lose by a refill
(`MonotoneArithmetic`). With exact numbers the buckets are those of `RateLimit` (`refillFloat_eq`).

`Limiter.act` is what one call does to the limiter, and a step of the system is that for one of the
calls. What matters of a limiter is what a call finds in it at some time: `globalAt` and
`endpointAt` are the buckets as they are refilled then. A lookup before that time makes no difference
to them (`Limiter.alike_bucketFor`), and neither does a refill that loses nothing to rounding
(`Bucket.Lossless`); with exact numbers no refill does (`Bucket.Filled.lossless_exact`). So a call that takes
no token costs nothing but what its refills lose, and a run can be simulated without it.

A call that is refused while it waits for its endpoint has taken a token of the global bucket and
does not give it back.
-/

namespace HstongApi.RateLimit

open Clock
open Function (update_self update_of_ne update_apply update_eq_self update_comm update_idem update)

/-! ## Buckets with the arithmetic of the machine -/

/-- What the machine makes of the operations on tokens. The numbers are those that a `float64` can be. -/
class TokenArithmetic where
  /-- `float64(limit.Burst)` -/
  ofInt : ℤ → ℚ
  /-- `tokens + elapsed.Seconds() * rate`, with whatever rounding; above the burst it does not matter
  what it is -/
  accrue : ℚ → ℤ → ℚ → ℚ
  /-- `tokens - 1` -/
  spend : ℚ → ℚ

/-- Nothing is lost when something is added to a full bucket. -/
class MonotoneArithmetic [TokenArithmetic] : Prop where
  le_accrue : ∀ (burst elapsed : ℤ) (rate : ℚ), 0 < elapsed → 0 < rate →
    TokenArithmetic.ofInt burst ≤ TokenArithmetic.accrue (TokenArithmetic.ofInt burst) elapsed rate

section

variable [TokenArithmetic]

/-- `newBucket` -/
def newBucketFloat (limit : Limit) (now : ℤ) : Bucket :=
  ⟨limit, TokenArithmetic.ofInt limit.burst, now⟩

/-- `refill` -/
def Bucket.refillFloat (b : Bucket) (now : ℤ) : Bucket :=
  if b.last = 0 then { b with last := now }
  else
    let elapsed := sub now b.last
    if elapsed ≤ 0 then b
    else
      let tokens := TokenArithmetic.accrue b.tokens elapsed b.limit.tokensPerSecond
      { b with
        last := now
        tokens :=
          if TokenArithmetic.ofInt b.limit.burst < tokens then TokenArithmetic.ofInt b.limit.burst
          else tokens }

/-- The part of `wait` after the refill: a token is taken, or there is none. -/
def Bucket.takeFloat (b : Bucket) : Bucket × Bool :=
  if 1 ≤ b.tokens then ({ b with tokens := TokenArithmetic.spend b.tokens }, true) else (b, false)

/-- A refill at this time makes no difference to later ones up to a horizon. -/
def Bucket.Lossless (now horizon : ℤ) (b : Bucket) : Prop :=
  ∀ t, now ≤ t → t ≤ horizon → (b.refillFloat now).refillFloat t = b.refillFloat t

/-- A full bucket stays full. -/
theorem newBucketFloat_refill [MonotoneArithmetic] {limit : Limit} (henabled : limit.enabled = true)
    {now t : ℤ} (hnow : 0 < now) (hle : now ≤ t) :
    (newBucketFloat limit now).refillFloat t = newBucketFloat limit t := by
  rw [Bucket.refillFloat, if_neg (show (newBucketFloat limit now).last ≠ 0 from hnow.ne')]
  rcases hle.eq_or_lt with rfl | hlt
  · have hsub : sub now now ≤ 0 := not_lt.mp (mt sub_pos_iff.mp (lt_irrefl _))
    exact if_pos hsub
  · have hsub : 0 < sub t now := sub_pos_iff.mpr hlt
    have hfull := MonotoneArithmetic.le_accrue limit.burst (sub t now) limit.tokensPerSecond hsub
      (Limit.rate_pos henabled)
    simp only [newBucketFloat, not_le.mpr hsub, if_false, Bucket.mk.injEq, true_and, and_true]
    rcases hfull.eq_or_lt with heq | hover
    · exact (if_neg heq.not_lt).trans heq.symm
    · exact if_pos hover

end

/-! ## Exact numbers -/

/-- The arithmetic of `RateLimit`. -/
@[reducible] def exactTokens : TokenArithmetic where
  ofInt n := n
  accrue tokens elapsed rate := tokens + seconds elapsed * rate
  spend tokens := tokens - 1

theorem monotone_exactTokens : @MonotoneArithmetic exactTokens :=
  @MonotoneArithmetic.mk exactTokens fun _ _ _ helapsed hrate =>
    le_add_of_nonneg_right (mul_nonneg (seconds_nonneg helapsed.le) hrate.le)

theorem refillFloat_eq : @Bucket.refillFloat exactTokens = Bucket.refill := rfl

/-- A refill when the clock has not gone back, and not for centuries. -/
theorem Bucket.Filled.refill_eq {b : Bucket} (h : b.Filled) (hlast : 0 < b.last) {t : ℤ}
    (hle : b.last ≤ t) (ht : t ≤ b.last + maxDuration) :
    b.refill t = { b with
      last := t
      tokens := min (b.limit.burst : ℚ)
        (b.tokens + seconds (t - b.last) * b.limit.tokensPerSecond) } := by
  rw [Bucket.refill, if_neg hlast.ne']
  rcases hle.eq_or_lt with heq | hlt
  · subst heq
    have hsub : sub b.last b.last ≤ 0 := not_lt.mp (mt sub_pos_iff.mp (lt_irrefl _))
    have hsame : min (b.limit.burst : ℚ)
        (b.tokens + seconds (b.last - b.last) * b.limit.tokensPerSecond) = b.tokens := by
      rw [Int.sub_self, show seconds 0 = 0 by simp [seconds], zero_mul, add_zero]
      exact min_eq_right h.le_burst
    simp only [if_pos hsub, hsame]
  · have hsub : sub t b.last = t - b.last := sub_eq (by omega) hlt.le
    have hpos : ¬t - b.last ≤ 0 := by omega
    simp only [hsub, if_neg hpos]
    congr 1
    split
    · exact (min_eq_left (le_of_lt ‹_›)).symm
    · exact (min_eq_right (not_lt.mp ‹_›)).symm

/-- **With exact numbers a refill before makes no difference.** -/
theorem Bucket.Filled.lossless_exact {b : Bucket} (h : b.Filled) (hlast : 0 < b.last) {now horizon : ℤ}
    (hle : b.last ≤ now) (hhorizon : horizon ≤ b.last + maxDuration) :
    @Bucket.Lossless exactTokens now horizon b := by
  intro t hnow ht
  rw [refillFloat_eq]
  have hrefilled := h.refill_eq hlast hle (by omega)
  have hlast' : (b.refill now).last = now := by rw [hrefilled]
  rw [(h.refill now).refill_eq (by omega) (by omega) (by omega), hrefilled,
    h.refill_eq hlast (by omega) (by omega)]
  simp only [Bucket.mk.injEq, true_and, and_true]
  have hgain := mul_nonneg (seconds_nonneg (sub_nonneg.mpr hnow)) (Limit.rate_pos h.enabled).le
  rw [← min_add_add_right, ← min_assoc, min_eq_left (le_add_of_nonneg_right hgain)]
  congr 1
  simp only [seconds_sub]
  ring

/-! ## The limiter -/

/-- `Limiter` -/
structure Limiter where
  /-- the limits of the endpoints that have one -/
  perEndpoint : Bytes → Option Limit
  /-- the buckets of the endpoints that were looked for; a nil bucket is no limit -/
  buckets : Bytes → Option (Option Bucket)
  /-- the bucket of all calls, if there is a limit -/
  globalBkt : Option Bucket

/-- `normalizeLimit` -/
def normalizeLimit (l : Limit) : Limit :=
  if 0 < l.tokensPerSecond ∧ l.burst ≤ 0 then { l with burst := 1 } else l

variable {s' s : System} {b : Option Bucket}

section

variable [TokenArithmetic]

/-- A bucket for a limit, if it applies. -/
def bucketOf (limit : Option Limit) (now : ℤ) : Option Bucket :=
  match limit with
  | some limit => if limit.enabled then some (newBucketFloat limit now) else none
  | none => none

/-- `NewLimiter` -/
def newLimiter (global : Limit) (perEndpoint : Bytes → Option Limit) (now : ℤ) : Limiter where
  perEndpoint e := (perEndpoint e).map normalizeLimit
  buckets _ := none
  globalBkt := bucketOf (some (normalizeLimit global)) now

/-- `bucketFor` -/
def Limiter.bucketFor (l : Limiter) (endpoint : Bytes) (now : ℤ) : Limiter × Option Bucket :=
  match l.buckets endpoint with
  | some b => (l, b)
  | none =>
    let b := bucketOf (l.perEndpoint endpoint) now
    ({ l with buckets := Function.update l.buckets endpoint (some b) }, b)

/-- The global bucket as a call finds it at this time and refills it. -/
def Limiter.globalAt (l : Limiter) (now : ℤ) : Option Bucket :=
  l.globalBkt.map (·.refillFloat now)

/-- The bucket of an endpoint as a call finds it at this time and refills it. -/
def Limiter.endpointAt (l : Limiter) (endpoint : Bytes) (now : ℤ) : Option Bucket :=
  (l.bucketFor endpoint now).2.map (·.refillFloat now)

/-- The end of a turn of `wait` with a bucket that has been refilled; a nil bucket admits. -/
def settle (b : Option Bucket) : Option Bucket × Bool :=
  match b with
  | none => (none, true)
  | some b => (some b.takeFloat.1, b.takeFloat.2)

/-! ## Calls -/

/-- Where a call of `WaitEndpoint` is. -/
inductive Stage
  | waitGlobal
  | sleepGlobal
  | lookup
  | waitEndpoint
  | sleepEndpoint
  | admitted
  | refused
  deriving DecidableEq

/-- A call of `WaitEndpoint`. -/
structure Call where
  endpoint : Bytes
  /-- how far it is -/
  stage : Stage
  deriving DecidableEq

/-- What a call does next. -/
inductive Act
  | start (endpoint : Bytes)
  /-- it locks the bucket, refills it and takes a token if there is one -/
  | turn (now : ℤ)
  | lookup (now : ℤ)
  /-- the timer fires -/
  | wake
  /-- the context is done -/
  | cancel
  deriving DecidableEq

/-- What a call does to the limiter. -/
def Limiter.act (l : Limiter) : Option Call → Act → Option (Limiter × Call)
  | none, .start e => some (l, ⟨e, .waitGlobal⟩)
  | some ⟨e, .waitGlobal⟩, .turn now =>
    let (b, ok) := settle (l.globalAt now)
    some ({ l with globalBkt := b }, ⟨e, if ok then .lookup else .sleepGlobal⟩)
  | some ⟨e, .lookup⟩, .lookup now => some ((l.bucketFor e now).1, ⟨e, .waitEndpoint⟩)
  | some ⟨e, .waitEndpoint⟩, .turn now =>
    (l.buckets e).map fun b =>
      let (b, ok) := settle (b.map (·.refillFloat now))
      ({ l with buckets := Function.update l.buckets e (some b) },
        ⟨e, if ok then .admitted else .sleepEndpoint⟩)
  | some ⟨e, .sleepGlobal⟩, .wake => some (l, ⟨e, .waitGlobal⟩)
  | some ⟨e, .sleepEndpoint⟩, .wake => some (l, ⟨e, .waitEndpoint⟩)
  | some ⟨e, .sleepGlobal⟩, .cancel => some (l, ⟨e, .refused⟩)
  | some ⟨e, .sleepEndpoint⟩, .cancel => some (l, ⟨e, .refused⟩)
  | _, _ => none

/-- The limiter and the calls, with the last reading of the clock. -/
structure System where
  limiter : Limiter
  calls : ℕ → Option Call := fun _ => none
  clock : ℤ

/-- The time at which something is done, if the clock is read for it. -/
def Act.now (clock : ℤ) : Act → ℤ
  | .turn now | .lookup now => now
  | .start _ | .wake | .cancel => clock

/-- A step of a call, which has a number. -/
def System.step (s : System) (a : ℕ × Act) : Option System :=
  (s.limiter.act (s.calls a.1) a.2).map fun (l, c) =>
    ⟨l, Function.update s.calls a.1 (some c), a.2.now s.clock⟩

/-- A new limiter. -/
def System.init (global : Limit) (perEndpoint : Bytes → Option Limit) (start : ℤ) : System where
  limiter := newLimiter global perEndpoint start
  clock := start

/-! ## What a call can do -/

/-- The cases of `Limiter.act`. -/
inductive Acts (l : Limiter) : Option Call → Act → Limiter → Call → Prop
  | start {e : Bytes} : Acts l none (.start e) l ⟨e, .waitGlobal⟩
  | global {e : Bytes} {now : ℤ} : Acts l (some ⟨e, .waitGlobal⟩) (.turn now)
      { l with globalBkt := (settle (l.globalAt now)).1 }
      ⟨e, if (settle (l.globalAt now)).2 then .lookup else .sleepGlobal⟩
  | lookup {e : Bytes} {now : ℤ} : Acts l (some ⟨e, .lookup⟩) (.lookup now)
      (l.bucketFor e now).1 ⟨e, .waitEndpoint⟩
  | endpoint {e : Bytes} {now : ℤ} (hlooked : l.buckets e ≠ none) :
      Acts l (some ⟨e, .waitEndpoint⟩) (.turn now)
      { l with buckets := Function.update l.buckets e (some (settle (l.endpointAt e now)).1) }
      ⟨e, if (settle (l.endpointAt e now)).2 then .admitted else .sleepEndpoint⟩
  | wakeGlobal {e : Bytes} : Acts l (some ⟨e, .sleepGlobal⟩) .wake l ⟨e, .waitGlobal⟩
  | wakeEndpoint {e : Bytes} : Acts l (some ⟨e, .sleepEndpoint⟩) .wake l ⟨e, .waitEndpoint⟩
  | cancelGlobal {e : Bytes} : Acts l (some ⟨e, .sleepGlobal⟩) .cancel l ⟨e, .refused⟩
  | cancelEndpoint {e : Bytes} : Acts l (some ⟨e, .sleepEndpoint⟩) .cancel l ⟨e, .refused⟩

theorem Limiter.endpointAt_of_some {l : Limiter} {e : Bytes} (h : l.buckets e = some b) (now : ℤ) :
    l.endpointAt e now = b.map (·.refillFloat now) := by
  simp only [endpointAt, bucketFor, h]

variable {l l' : Limiter} {c : Option Call} {c' : Call} {a : Act}

theorem Limiter.act_eq_some : l.act c a = some (l', c') ↔ Acts l c a l' c' := by
  refine ⟨fun h => ?_, fun h => ?_⟩
  · unfold Limiter.act at h
    split at h
    case h_4 e now =>
      obtain ⟨b, hb, heq⟩ := Option.map_eq_some_iff.mp h
      rw [← Limiter.endpointAt_of_some hb] at heq
      cases heq
      exact .endpoint (by rw [hb]; exact Option.some_ne_none _)
    all_goals cases h
    all_goals constructor
  · cases h with
    | endpoint hlooked =>
      obtain ⟨b, hb⟩ := Option.ne_none_iff_exists'.mp hlooked
      rw [Limiter.endpointAt_of_some hb]
      simp only [act, hb, Option.map_some]
    | _ => rfl

/-- A bucket that nobody took a token from has not changed. -/
theorem settle_of_refused (h : (settle b).2 = false) : (settle b).1 = b := by
  cases b with
  | none => cases h
  | some b =>
    simp only [settle, Bucket.takeFloat] at h ⊢
    split at h
    · cases h
    · rw [if_neg ‹_›]

theorem settle_eq_none (h : (settle b).1 = none) : b = none := by
  cases b with
  | none => rfl
  | some b => cases h

/-! ## Limiters in which the same is found -/

/-- What calls find in a limiter at some time. -/
def Limiter.found (l : Limiter) (t : ℤ) : Option Bucket × (Bytes → Option Bucket) :=
  (l.globalAt t, fun e => l.endpointAt e t)

/-- From one time to another, calls find the same in two limiters. -/
def Alike (now horizon : ℤ) (l l' : Limiter) : Prop :=
  ∀ t, now ≤ t → t ≤ horizon → l'.found t = l.found t

theorem Alike.later {now later horizon : ℤ} (h : Alike now horizon l l') (hle : now ≤ later) :
    Alike later horizon l l' := fun t hnow => h t (hle.trans hnow)

theorem Limiter.endpointAt_update (l : Limiter) (e e' : Bytes) (b : Option Bucket) (t : ℤ) :
    Limiter.endpointAt { l with buckets := update l.buckets e (some b) } e' t =
      if e' = e then b.map (·.refillFloat t) else l.endpointAt e' t := by
  by_cases he : e' = e
  · subst he
    rw [if_pos rfl]
    exact endpointAt_of_some (update_self ..) t
  · simp only [endpointAt, bucketFor, update_of_ne he, if_neg he]
    split <;> rfl

theorem Limiter.endpointAt_globalBkt (l : Limiter) (b : Option Bucket) (e : Bytes) (t : ℤ) :
    Limiter.endpointAt { l with globalBkt := b } e t = l.endpointAt e t := by
  simp only [endpointAt, bucketFor]
  split <;> rfl

section

variable {now horizon : ℤ}

theorem bucketOf_refill [MonotoneArithmetic] (limit : Option Limit) {t : ℤ} (hnow : 0 < now)
    (hle : now ≤ t) : (bucketOf limit now).map (·.refillFloat t) = bucketOf limit t := by
  unfold bucketOf
  split
  · split
    · rw [Option.map_some, newBucketFloat_refill ‹_› hnow hle]
    · rfl
  · rfl

/-- **A lookup before makes no difference.** -/
theorem Limiter.alike_bucketFor [MonotoneArithmetic] (l : Limiter) (e : Bytes) (hnow : 0 < now) :
    Alike now horizon l (l.bucketFor e now).1 := by
  intro t hle _
  unfold bucketFor
  split
  · rfl
  · rename_i hnone
    refine Prod.ext rfl (funext fun e' => ?_)
    simp only [found, endpointAt_update]
    split
    · subst e'
      rw [bucketOf_refill _ hnow hle]
      simp only [endpointAt, bucketFor, hnone]
      exact (bucketOf_refill _ (hnow.trans_le hle) (le_refl t)).symm
    · rfl

/-- **A refill that loses nothing makes no difference**, of the global bucket -/
theorem Limiter.alike_global (h : ∀ b, l.globalBkt = some b → b.Lossless now horizon) :
    Alike now horizon l { l with globalBkt := l.globalAt now } := by
  intro t hle ht
  refine Prod.ext ?_ (funext fun e => l.endpointAt_globalBkt _ e t)
  simp only [found, Limiter.globalAt]
  cases hb : l.globalBkt with
  | none => rfl
  | some b => exact congrArg some (h b hb t hle ht)

/-- and of the bucket of an endpoint. -/
theorem Limiter.alike_endpoint {e : Bytes} (hlooked : l.buckets e ≠ none)
    (h : ∀ b, l.buckets e = some (some b) → b.Lossless now horizon) :
    Alike now horizon l { l with buckets := update l.buckets e (some (l.endpointAt e now)) } := by
  intro t hle ht
  refine Prod.ext rfl (funext fun e' => ?_)
  simp only [found, endpointAt_update]
  split
  · subst e'
    obtain ⟨x, hx⟩ := Option.ne_none_iff_exists'.mp hlooked
    rw [endpointAt_of_some hx, endpointAt_of_some hx]
    cases x with
    | none => rfl
    | some b => exact congrArg some (h b hx t hle ht)
  · rfl

/-- The bucket that a call refills in its next turn. -/
def Limiter.refilled (l : Limiter) : Option Call → Option Bucket
  | some ⟨_, .waitGlobal⟩ => l.globalBkt
  | some ⟨e, .waitEndpoint⟩ => (l.buckets e).join
  | _ => none

/-- **A call that takes no token makes no difference**, if its refill loses nothing. -/
theorem Acts.alike [MonotoneArithmetic] (h : Acts l c a l' c') (hnow : 0 < a.now now)
    (hadmitted : c'.stage ≠ .admitted) (hglobal : c'.stage = .lookup → l'.globalBkt = none)
    (hlossless : ∀ b ∈ l.refilled c, b.Lossless (a.now now) horizon) :
    Alike (a.now now) horizon l l' := by
  cases h with
  | start | wakeGlobal | wakeEndpoint | cancelGlobal | cancelEndpoint => exact fun _ _ _ => rfl
  | @global e t =>
    have hsame : (settle (l.globalAt t)).1 = l.globalAt t := by
      cases hok : (settle (l.globalAt t)).2 with
      | true =>
        have hnone := hglobal (by rw [hok]; rfl)
        exact hnone.trans (settle_eq_none hnone).symm
      | false => exact settle_of_refused hok
    rw [hsame]
    exact l.alike_global hlossless
  | lookup => exact l.alike_bucketFor _ hnow
  | @endpoint e t hlooked =>
    have hok : (settle (l.endpointAt e t)).2 = false := by
      by_contra hok
      exact hadmitted (if_pos (eq_true_of_ne_false hok))
    rw [settle_of_refused hok]
    exact l.alike_endpoint hlooked fun b hb => hlossless b (Option.join_eq_some_iff.mpr hb)

/-- **Calls cannot tell limiters apart in which the same is found.** -/
theorem Acts.follow [MonotoneArithmetic] {l₁ : Limiter} {c₁ : Call} (h : Acts l c a l₁ c₁)
    (halike : Alike now horizon l l') (hnow : 0 < now) (hle : now ≤ a.now now)
    (ha : a.now now ≤ horizon) (hlooked : ∀ e, c = some ⟨e, .waitEndpoint⟩ → l'.buckets e ≠ none) :
    ∃ l₁', Acts l' c a l₁' c₁ ∧ Alike (a.now now) horizon l₁ l₁' := by
  have hlater := halike.later hle
  obtain ⟨hglobal, hendpoint⟩ := Prod.mk.inj (hlater _ le_rfl ha)
  cases h with
  | start | wakeGlobal | wakeEndpoint | cancelGlobal | cancelEndpoint =>
    refine ⟨l', ?_, hlater⟩
    constructor
  | @global e t =>
    have hacts : Acts l' (some ⟨e, .waitGlobal⟩) (.turn t) _ _ := .global
    rw [show l'.globalAt t = l.globalAt t from hglobal] at hacts
    refine ⟨_, hacts, fun u htu hu => Prod.ext rfl (funext fun e' => ?_)⟩
    simp only [Limiter.found, Limiter.endpointAt_globalBkt]
    exact congrFun (Prod.mk.inj (hlater u htu hu)).2 e'
  | @lookup e t =>
    have hl : Alike t horizon l (l.bucketFor e t).1 := l.alike_bucketFor e (hnow.trans_le hle)
    have hl' : Alike t horizon l' (l'.bucketFor e t).1 := l'.alike_bucketFor e (hnow.trans_le hle)
    exact ⟨_, .lookup, fun u htu hu => by rw [hl' u htu hu, hlater u htu hu, hl u htu hu]⟩
  | @endpoint e t _ =>
    have hacts : Acts l' (some ⟨e, .waitEndpoint⟩) (.turn t) _ _ := .endpoint (hlooked e rfl)
    rw [show l'.endpointAt e t = l.endpointAt e t from congrFun hendpoint e] at hacts
    refine ⟨_, hacts, fun u htu hu => ?_⟩
    obtain ⟨hsame, hsame'⟩ := Prod.mk.inj (hlater u htu hu)
    refine Prod.ext hsame (funext fun e' => ?_)
    simp only [Limiter.found, Limiter.endpointAt_update]
    rw [show l'.endpointAt e' u = l.endpointAt e' u from congrFun hsame' e']

end

/-! ## Runs without a call that was refused -/

/-- What may be asked of the steps. -/
structure Free (horizon : ℤ) (i : ℕ) (s : System) (a : ℕ × Act) : Prop where
  /-- the clock does not go back -/
  le_now : s.clock ≤ a.2.now s.clock
  /-- and does not go beyond the horizon -/
  now_le : a.2.now s.clock ≤ horizon
  /-- this call is not refused while it waits for its endpoint, unless there is no global limit -/
  global : a.1 = i → a.2 = .cancel → (s.calls i).map (·.stage) = some .sleepEndpoint →
    s.limiter.globalBkt = none
  /-- and its refills lose nothing to rounding -/
  lossless : a.1 = i → ∀ b ∈ s.limiter.refilled (s.calls i), b.Lossless (a.2.now s.clock) horizon

/-- The call has got past the global bucket, if there is one, or it was admitted. -/
def Spent (i : ℕ) (s : System) : Prop :=
  ∃ c, s.calls i = some c ∧ (c.stage = .admitted ∨ s.limiter.globalBkt ≠ none ∧
    (c.stage = .lookup ∨ c.stage = .waitEndpoint ∨ c.stage = .sleepEndpoint))

theorem System.step_eq_some {a : ℕ × Act} (hstep : s.step a = some s') :
    ∃ l c, Acts s.limiter (s.calls a.1) a.2 l c ∧
      s' = ⟨l, update s.calls a.1 (some c), a.2.now s.clock⟩ := by
  obtain ⟨⟨l, c⟩, hact, rfl⟩ := Option.map_eq_some_iff.mp hstep
  exact ⟨l, c, Limiter.act_eq_some.mp hact, rfl⟩

/-- There is a global bucket as long as there was one. -/
theorem Acts.globalBkt_ne_none (h : Acts l c a l' c') (hglobal : l.globalBkt ≠ none) :
    l'.globalBkt ≠ none := by
  cases h with
  | start | wakeGlobal | wakeEndpoint | cancelGlobal | cancelEndpoint | endpoint => exact hglobal
  | lookup =>
    unfold Limiter.bucketFor
    split <;> exact hglobal
  | global => exact fun hnone => hglobal (Option.map_eq_none_iff.mp (settle_eq_none hnone))

/-- A token that was taken is not given back. -/
theorem Spent.step {horizon : ℤ} {i : ℕ} {a : ℕ × Act} (h : Spent i s) (hfree : Free horizon i s a)
    (hstep : s.step a = some s') : Spent i s' := by
  obtain ⟨l, c', hacts, rfl⟩ := System.step_eq_some hstep
  obtain ⟨c, hc, hstage⟩ := h
  by_cases hi : a.1 = i
  · subst hi
    refine ⟨c', update_self .., ?_⟩
    rw [hc] at hacts
    generalize ha : a.2 = act at hacts
    rcases hstage with hadmitted | ⟨hglobal, hpast⟩
    · cases hacts <;> cases hadmitted
    · have hkept := hacts.globalBkt_ne_none hglobal
      cases hacts with
      | lookup | wakeEndpoint => exact .inr ⟨hkept, .inr (.inl rfl)⟩
      | @endpoint e now =>
        cases hok : (settle (s.limiter.endpointAt e now)).2 with
        | true => exact .inl rfl
        | false => exact .inr ⟨hkept, .inr (.inr rfl)⟩
      | cancelEndpoint => exact absurd (hfree.global rfl ha (by rw [hc]; rfl)) hglobal
      | _ => rcases hpast with h | h | h <;> cases h
  · refine ⟨c, (update_of_ne (Ne.symm hi) ..).trans hc, hstage.imp_right fun h => ?_⟩
    exact ⟨hacts.globalBkt_ne_none h.1, h.2⟩

/-- The second system is the first one without the call. -/
structure Without (horizon : ℤ) (i : ℕ) (s t : System) : Prop where
  clock_pos : 0 < s.clock
  alike : Alike s.clock horizon s.limiter t.limiter
  calls : t.calls = Function.update s.calls i none
  /-- a call waits for its endpoint only after a lookup -/
  looked : ∀ j c, t.calls j = some c → c.stage = .waitEndpoint ∨ c.stage = .sleepEndpoint →
    t.limiter.buckets c.endpoint ≠ none

theorem Acts.looked (h : Acts l c a l' c')
    (hlooked : ∀ c₀, c = some c₀ → c₀.stage = .waitEndpoint ∨ c₀.stage = .sleepEndpoint →
      l.buckets c₀.endpoint ≠ none)
    (hstage : c'.stage = .waitEndpoint ∨ c'.stage = .sleepEndpoint) :
    l'.buckets c'.endpoint ≠ none := by
  cases h with
  | start | wakeGlobal | cancelGlobal | cancelEndpoint => rcases hstage with h | h <;> cases h
  | @wakeEndpoint e => exact hlooked ⟨e, .sleepEndpoint⟩ rfl (.inr rfl)
  | global =>
    simp only at hstage
    split at hstage <;> rcases hstage with h | h <;> cases h
  | lookup =>
    unfold Limiter.bucketFor
    split
    · rename_i hb
      rw [hb]
      exact Option.some_ne_none _
    · simp only [update_self]
      exact Option.some_ne_none _
  | endpoint =>
    simp only [update_self]
    exact Option.some_ne_none _

/-- A bucket that is there stays. -/
theorem Acts.buckets_ne_none (h : Acts l c a l' c') {e : Bytes} (he : l.buckets e ≠ none) :
    l'.buckets e ≠ none := by
  cases h with
  | start | wakeGlobal | wakeEndpoint | cancelGlobal | cancelEndpoint | global => exact he
  | lookup =>
    unfold Limiter.bucketFor
    split
    · exact he
    · simp only [update_apply]
      split
      · exact Option.some_ne_none _
      · exact he
  | endpoint =>
    simp only [update_apply]
    split
    · exact Option.some_ne_none _
    · exact he

theorem Without.drop [MonotoneArithmetic] {horizon : ℤ} {i : ℕ} {t : System} {a : ℕ × Act}
    (h : Without horizon i s t) (hfree : Free horizon i s a) (hstep : s.step a = some s')
    (hspent : ¬Spent i s') (hi : a.1 = i) : Without horizon i s' t := by
  obtain ⟨l, c, hacts, rfl⟩ := System.step_eq_some hstep
  subst hi
  have hle := hfree.le_now
  have hpos := h.clock_pos.trans_le hle
  -- the call would be past the global bucket, or admitted
  have hadmitted : c.stage ≠ .admitted := fun hstage =>
    hspent ⟨c, update_self .., .inl hstage⟩
  have hglobal : c.stage = .lookup → l.globalBkt = none := fun hstage => by
    by_contra hnone
    exact hspent ⟨c, update_self .., .inr ⟨hnone, .inl hstage⟩⟩
  have halike := hacts.alike hpos hadmitted hglobal (hfree.lossless rfl)
  refine ⟨hpos, fun t hnow ht => ?_, ?_, h.looked⟩
  · exact (h.alike.later hle t hnow ht).trans (halike t hnow ht).symm
  · rw [h.calls, update_idem]

theorem Without.keep [MonotoneArithmetic] {horizon : ℤ} {i : ℕ} {t : System} {a : ℕ × Act}
    (h : Without horizon i s t) (hfree : Free horizon i s a) (hstep : s.step a = some s')
    (hi : a.1 ≠ i) : ∃ t', t.step a = some t' ∧ Without horizon i s' t' := by
  obtain ⟨l, c, hacts, rfl⟩ := System.step_eq_some hstep
  have hle := hfree.le_now
  have hcall : t.calls a.1 = s.calls a.1 := by rw [h.calls, update_of_ne hi]
  have hlooked : ∀ e, s.calls a.1 = some ⟨e, .waitEndpoint⟩ → t.limiter.buckets e ≠ none :=
    fun e he => h.looked a.1 ⟨e, .waitEndpoint⟩ (hcall.trans he) (.inl rfl)
  obtain ⟨l', hacts', halike⟩ := hacts.follow h.alike h.clock_pos hle hfree.now_le hlooked
  rw [← hcall] at hacts'
  refine ⟨_, congrArg (Option.map _) (Limiter.act_eq_some.mpr hacts'), h.clock_pos.trans_le hle, halike,
    ?_, fun j c₀ hj hstage => ?_⟩
  · rw [h.calls, update_comm hi]
  · simp only [update_apply] at hj
    split at hj
    · cases hj
      exact hacts'.looked (fun c₁ hc₁ => h.looked a.1 c₁ hc₁) hstage
    · exact hacts'.buckets_ne_none (h.looked j c₀ hj hstage)

end

/-! ## Two runs -/

section

attribute [local instance] exactTokens monotone_exactTokens

/-- The first call takes the only token; the second one sleeps and is refused, and the third one
comes a second later. -/
def refusedEarly : List (ℕ × Act) :=
  [(0, .start []), (0, .turn 1), (1, .start []), (1, .turn 2), (1, .cancel), (2, .start []),
    (2, .turn 1000000001)]

/-- The bucket that the second call refills. -/
def emptied : Bucket := ⟨⟨1, 1⟩, 0, 1⟩

/-- Two calls to an endpoint with one token: the second one gets a token of the global bucket, has to
wait for its endpoint and is refused. Then a call to another endpoint comes. -/
def refusedLate : List (ℕ × Act) :=
  [(0, .start [1]), (0, .turn 1), (0, .lookup 1), (0, .turn 1),
    (1, .start [1]), (1, .turn 1), (1, .lookup 1), (1, .turn 1), (1, .cancel),
    (2, .start [2]), (2, .turn 1)]

/-- A limiter with two tokens, and one for that endpoint. -/
def twoTokens : System := System.init ⟨1, 2⟩ (fun e => if e = [1] then some ⟨1, 1⟩ else none) 1

end

end HstongApi.RateLimit
