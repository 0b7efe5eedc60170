import HstongApi.Durations
import HstongApi.PushVerify
import Mathlib.Logic.Function.Iterate

/-!
# The delay between two dials

`Run` sleeps after every dial that has failed. The delay is a variable of `Run`: it starts at the
lower bound, goes through `nextBackoff` after each sleep, and is set back when a dial succeeds. Here
`Run` is the one of `PushVerify`, in an environment that keeps this variable next to the world and
takes down every sleep.

`nextBackoff` halves what it has doubled and capped, and then adds up to as much again. So a delay
can fall to half of the upper bound, and it stays within the bounds exactly if the upper one is at
least twice the lower one (`delays_within_iff`).
-/

namespace HstongApi.PushVerify

open PushFrame PushEvents Durations

/-! ## Bounds -/

/-- `DefaultMinReconnect` -/
def defaultMinReconnect : Int64 := 500000000

/-- `DefaultMaxReconnect` -/
def defaultMaxReconnect : Int64 := 30000000000

/-- **The bounds of the delay**, as a client has them. -/
structure Bounds where
  min : Int64 := defaultMinReconnect
  max : Int64 := defaultMaxReconnect
  min_pos : 0 < min := by decide
  min_le_max : min ≤ max := by decide

/-- The lower bound that `New` takes. -/
def normaliseMin (min : Int64) : Int64 := if min ≤ 0 then defaultMinReconnect else min

/-- The upper bound that `New` takes. -/
def normaliseMax (min max : Int64) : Int64 := if max < min then min else max

theorem normaliseMin_pos (min : Int64) : 0 < normaliseMin min := by
  unfold normaliseMin
  split
  · decide
  · exact Int64.not_le.mp ‹_›

theorem le_normaliseMax (min max : Int64) : min ≤ normaliseMax min max := by
  unfold normaliseMax
  split
  · exact Int64.le_refl min
  · exact Int64.not_lt.mp ‹_›

/-- What `New` makes of the bounds in its options. -/
def Bounds.normalise (min max : Int64) : Bounds where
  min := normaliseMin min
  max := normaliseMax (normaliseMin min) max
  min_pos := normaliseMin_pos min
  min_le_max := le_normaliseMax ..

/-- The options that `WithReconnect` leaves, starting from the defaults. -/
def Bounds.withReconnect (min max : Int64) : Bounds :=
  .normalise (if 0 < min then min else defaultMinReconnect)
    (if 0 < max then max else defaultMaxReconnect)

/-! ## `Run` with its delays -/

/-- What `Run` finds around it, with the timer and the random numbers. -/
structure Timed (σ : Type) where
  env : Env σ
  /-- whether a timer fires before the context is done -/
  timer : Int64 → σ → σ × Bool
  /-- `rand.Int63n` -/
  int63n : Int64 → σ → σ × Int64
  int63n_mem : ∀ n w, 0 < n → 0 ≤ (int63n n w).2 ∧ (int63n n w).2 < n

/-- The world, the variable `backoff` of `Run`, and the sleeps so far: how long, and whether they
came to their end. -/
structure Vars (σ : Type) where
  world : σ
  backoff : Int64
  slept : List (Int64 × Bool) := []

section

variable {σ : Type}

/-- `sleepCtx` -/
def Timed.sleepCtx (t : Timed σ) (d : Int64) (w : σ) : σ × Bool :=
  if d ≤ 0 then
    let (w, err) := t.env.ctxErr w
    (w, err.isNone)
  else t.timer d w

/-- `nextBackoff` -/
def Timed.nextBackoff (t : Timed σ) (cur max : Int64) (w : σ) : σ × Int64 :=
  let next := if max < cur * 2 then max else cur * 2
  if next ≤ 0 then (w, cur)
  else
    let (w, jitter) := t.int63n next w
    (w, next / 2 + jitter / 2)

/-- What does not touch the variables. -/
def Vars.look {α : Type} (v : Vars σ) (f : σ → σ × α) : Vars σ × α :=
  let (w, a) := f v.world
  ({ v with world := w }, a)

/-- The environment of `Run` with its variable: a sleep that comes to its end is followed by
`nextBackoff`, and `setConn` by a reset. -/
def Timed.withBackoff (t : Timed σ) (b : Bounds) : Env (Vars σ) where
  closed v := v.look t.env.closed
  ctxErr v := v.look t.env.ctxErr
  currentConn v := v.look t.env.currentConn
  dial v := v.look t.env.dial
  setConn nc v := { v with world := t.env.setConn nc v.world, backoff := b.min }
  closeConn v := { v with world := t.env.closeConn v.world }
  discard nc v := { v with world := t.env.discard nc v.world }
  sleepCtx v :=
    match t.sleepCtx v.backoff v.world with
    | (w, false) => ({ v with world := w, slept := v.slept ++ [(v.backoff, false)] }, false)
    | (w, true) =>
      let (w, backoff) := t.nextBackoff v.backoff b.max w
      (⟨w, backoff, v.slept ++ [(v.backoff, true)]⟩, true)
  fireOnReconnect err v := { v with world := t.env.fireOnReconnect err v.world }

/-! ## What a run preserves -/

/-- The looks at the world and the sleeps keep an invariant. -/
structure Env.Keeps (env : Env σ) (I : σ → Prop) : Prop where
  closed : ∀ w, I w → I (env.closed w).1
  ctxErr : ∀ w, I w → I (env.ctxErr w).1
  currentConn : ∀ w, I w → I (env.currentConn w).1
  dial : ∀ w, I w → I (env.dial w).1
  setConn : ∀ nc w, I w → I (env.setConn nc w)
  closeConn : ∀ w, I w → I (env.closeConn w)
  sleepCtx : ∀ w, I w → I (env.sleepCtx w).1
  fireOnReconnect : ∀ err w, I w → I (env.fireOnReconnect err w)

variable {env : Env σ} {I : σ → Prop}

theorem kept {α : Type} {x : σ × α} {w : σ} {a : α} (heq : x = (w, a)) (h : I x.1) : I w := by
  rwa [heq] at h

theorem Env.Keeps.exitCause (h : env.Keeps I) {w : σ} (hw : I w) :
    I (PushVerify.exitCause env w).1 := by
  unfold PushVerify.exitCause
  split
  · exact kept ‹_› (h.closed w hw)
  · exact h.ctxErr _ (kept ‹_› (h.closed w hw))

theorem Env.Keeps.redial (h : env.Keeps I) (fuel : ℕ) {w : σ} (hw : I w) :
    I (PushVerify.redial env fuel w).1 := by
  induction fuel generalizing w with
  | zero => exact hw
  | succ fuel ih =>
    unfold PushVerify.redial
    split
    · exact kept ‹_› (h.dial w hw)
    · have hdial := kept ‹_› (h.dial w hw)
      split
      · exact h.exitCause (kept ‹_› (h.sleepCtx _ hdial))
      · have hsleep := kept ‹_› (h.sleepCtx _ hdial)
        split
        · exact kept ‹_› (h.closed _ hsleep)
        · exact ih (kept ‹_› (h.closed _ hsleep))

theorem Env.Keeps.reconnect (h : env.Keeps I) (fuel : ℕ) (err : FrameError) {w : σ} (hw : I w) :
    I (PushVerify.reconnect env fuel err w).1 := by
  unfold PushVerify.reconnect
  split
  · exact kept ‹_› (h.closed w hw)
  · have hclosed := kept ‹_› (h.closed w hw)
    split
    · exact kept ‹_› (h.ctxErr _ hclosed)
    · have hctx := kept ‹_› (h.ctxErr _ hclosed)
      split
      · exact kept ‹_› (h.redial fuel hctx)
      · exact h.fireOnReconnect _ _ (h.setConn _ _ (kept ‹_› (h.redial fuel hctx)))

variable [Crypto] [Protobuf]

theorem Client.keeps_iterate (c : Client) (h : env.Keeps I) (fuel : ℕ) {w : σ} (hw : I w) :
    I (c.iterate env fuel w).1 := by
  unfold iterate
  split
  · exact kept ‹_› (h.closed w hw)
  · have hclosed := kept ‹_› (h.closed w hw)
    split
    · exact kept ‹_› (h.ctxErr _ hclosed)
    · have hctx := kept ‹_› (h.ctxErr _ hclosed)
      split
      · have hconn := kept ‹_› (h.currentConn _ hctx)
        split
        · have hdial := kept ‹_› (h.dial _ hconn)
          split
          · exact h.exitCause (kept ‹_› (h.sleepCtx _ hdial))
          · exact kept ‹_› (h.sleepCtx _ hdial)
        · exact h.setConn _ _ (kept ‹_› (h.dial _ hconn))
      · exact h.reconnect fuel _ (h.closeConn _ (kept ‹_› (h.currentConn _ hctx)))

/-- **A run keeps what its looks at the world keep.** -/
theorem Client.keeps_run (c : Client) (h : env.Keeps I) (fuel : ℕ) {w : σ} (hw : I w) :
    I (c.run env fuel w).1 := by
  have hloop : I (c.runLoop env fuel w).1 := by
    induction fuel generalizing w with
    | zero => exact hw
    | succ fuel ih =>
      unfold runLoop
      split
      · exact kept ‹_› (c.keeps_iterate h fuel hw)
      · exact ih (kept ‹_› (c.keeps_iterate h fuel hw))
  unfold run
  split
  · exact hw
  · exact hloop

/-- **The sleeps of a run**, as far as the fuel goes. -/
def Client.sleeps (c : Client) (t : Timed σ) (b : Bounds) (fuel : ℕ) (w : σ) :
    List (Int64 × Bool) :=
  (c.run (t.withBackoff b) fuel { world := w, backoff := b.min }).1.slept

end

/-! ## Bounds that are kept -/

/-- **The sleep is within the bounds**, and the delay can be doubled without overflow, which
`nextBackoff` does after a sleep that came to its end. -/
structure Bounds.Within (b : Bounds) (s : Int64 × Bool) : Prop where
  min_le : b.min ≤ s.1
  le_max : s.1 ≤ b.max
  doubles : s.2 = true → (s.1 * 2).toInt = s.1.toInt * 2

/-- What one call of `nextBackoff` gives. The sum in it never overflows. -/
theorem Timed.toInt_nextBackoff {σ : Type} (t : Timed σ) (cur max : Int64) (hcur : 0 < cur.toInt)
    (hfits : cur.toInt < 2 ^ 62) (hmax : 0 < max.toInt) (w : σ) :
    ∃ next : Int64, next.toInt = min (cur.toInt * 2) max.toInt ∧ 0 < next ∧
      0 ≤ (t.int63n next w).2.toInt ∧ (t.int63n next w).2.toInt < next.toInt ∧
      (t.nextBackoff cur max w).2.toInt = next.toInt / 2 + (t.int63n next w).2.toInt / 2 := by
  have hdouble := toInt_double hcur.le hfits
  have hnext : (if max < cur * 2 then max else cur * 2 : Int64).toInt =
      min (cur.toInt * 2) max.toInt := by
    rw [← hdouble]
    split
    · rename_i hlt
      exact (min_eq_right (Int64.lt_iff_toInt_lt.mp hlt).le).symm
    · rename_i hle
      exact (min_eq_left (toInt_le_iff.mpr (Int64.not_lt.mp hle))).symm
  simp only [nextBackoff]
  generalize (if max < cur * 2 then max else cur * 2 : Int64) = next at hnext ⊢
  have hpos : 0 < next.toInt := by
    rw [hnext]
    exact lt_min (by omega) hmax
  rw [if_neg (fun h => absurd (nonpos_iff.mp h) (not_le.mpr hpos))]
  obtain ⟨hmin, hlt⟩ := t.int63n_mem next w (pos_iff.mpr hpos)
  have hmin : 0 ≤ (t.int63n next w).2.toInt := toInt_le_iff.mpr hmin
  have hlt := Int64.lt_iff_toInt_lt.mp hlt
  refine ⟨next, hnext, pos_iff.mpr hpos, hmin, hlt, ?_⟩
  have hhalf := toInt_half hmin
  change (next / 2 + (t.int63n next w).2 / 2).toInt = _
  rw [toInt_half_add hpos.le (by omega) (by omega), hhalf]

variable {b : Bounds}

section

variable [Crypto] [Protobuf]

/-- **Every sleep of every run is within the bounds.** -/
def Bounds.Respected (b : Bounds) : Prop :=
  ∀ (c : Client) (σ : Type) (t : Timed σ) (fuel : ℕ) (w : σ), ∀ s ∈ c.sleeps t b fuel w, b.Within s

/-- A property of the delay that the reset and `nextBackoff` keep. -/
theorem Bounds.respected_of {J : Int64 → Prop} (hmin : J b.min)
    (hnext : ∀ (σ : Type) (t : Timed σ) (d : Int64) (w : σ), J d → J (t.nextBackoff d b.max w).2)
    (hwithin : ∀ d, J d → b.min.toInt ≤ d.toInt ∧ d.toInt ≤ b.max.toInt ∧ d.toInt < 2 ^ 62) :
    b.Respected := by
  intro c σ t fuel w
  have hkeeps : (t.withBackoff b).Keeps fun v => J v.backoff ∧ ∀ s ∈ v.slept, b.Within s := by
    refine ⟨fun _ h => h, fun _ h => h, fun _ h => h, fun _ h => h, fun _ _ h => ⟨hmin, h.2⟩,
      fun _ h => h, fun v h => ?_, fun _ _ h => h⟩
    have hslept : ∀ ended, ∀ s ∈ v.slept ++ [(v.backoff, ended)], b.Within s := fun ended s hs => by
      rcases List.mem_append.mp hs with hold | hnew
      · exact h.2 s hold
      · obtain ⟨hge, hle, hlt⟩ := hwithin _ h.1
        have hpos := pos_iff.mp b.min_pos
        rw [List.mem_singleton.mp hnew]
        exact ⟨toInt_le_iff.mp hge, toInt_le_iff.mp hle, fun _ =>
          toInt_double (hpos.le.trans hge) hlt⟩
    simp only [Timed.withBackoff]
    split
    · exact ⟨h.1, hslept false⟩
    · exact ⟨hnext σ t _ _ h.1, hslept true⟩
  exact (c.keeps_run hkeeps fuel ⟨hmin, fun _ hs => absurd hs List.not_mem_nil⟩).2

/-- The upper bound is at least twice the lower one, and doubling a delay below it does not
overflow; or the delay does not grow, since it is one nanosecond. -/
def Bounds.Roomy (b : Bounds) : Prop :=
  2 * b.min.toInt ≤ b.max.toInt ∧ (b.max.toInt ≤ 2 ^ 62 ∨ b.min = 1)

instance (b : Bounds) : Decidable b.Roomy := inferInstanceAs (Decidable (_ ∧ _))

theorem Bounds.Roomy.respected (h : b.Roomy) : b.Respected := by
  have hpos := pos_iff.mp b.min_pos
  obtain ⟨htwice, hmax | hone⟩ := h
  · refine Bounds.respected_of (J := fun d => b.min.toInt ≤ d.toInt ∧ d.toInt < b.max.toInt)
      ⟨le_rfl, by omega⟩ (fun σ t d w hd => ?_) fun d hd => by omega
    obtain ⟨next, hnext, -, hjitter, hlt, heq⟩ :=
      t.toInt_nextBackoff d b.max (by omega) (by omega) (by omega) w
    rw [heq]
    omega
  · have hone' : b.min.toInt = 1 := by rw [hone]; rfl
    refine Bounds.respected_of (J := fun d => d.toInt = 1) hone' (fun σ t d w hd => ?_)
      fun d hd => by omega
    obtain ⟨next, hnext, -, hjitter, hlt, heq⟩ :=
      t.toInt_nextBackoff d b.max (by omega) (by omega) (by omega) w
    rw [heq]
    omega

end

/-! ## Bounds that are not kept -/

/-- The world of a client that cannot dial and is never cancelled, with a choice of the random
numbers. -/
def failing (draw : Int64 → Int64) (hdraw : ∀ n, 0 < n → 0 ≤ draw n ∧ draw n < n) : Timed Unit where
  env :=
    { closed := fun w => (w, false)
      ctxErr := fun w => (w, none)
      currentConn := fun w => (w, none)
      dial := fun w => (w, .error .deadlineExceeded)
      setConn := fun _ w => w
      closeConn := fun w => w
      discard := fun _ w => w
      sleepCtx := fun w => (w, true)
      fireOnReconnect := fun _ w => w }
  timer _ w := (w, true)
  int63n n w := (w, draw n)
  int63n_mem n _ := hdraw n

variable {draw : Int64 → Int64} {hdraw : ∀ n, 0 < n → 0 ≤ draw n ∧ draw n < n}

theorem sleepCtx_failing (d : Int64) (w : Unit) :
    (failing draw hdraw).sleepCtx d w = (w, true) := by
  unfold Timed.sleepCtx
  split <;> rfl

/-- The delay after this one. -/
def after (draw : Int64 → Int64) (hdraw : ∀ n, 0 < n → 0 ≤ draw n ∧ draw n < n) (max d : Int64) :
    Int64 :=
  ((failing draw hdraw).nextBackoff d max ()).2

theorem zero_mem (n : Int64) (hn : 0 < n) : 0 ≤ (0 : Int64) ∧ 0 < n := ⟨Int64.le_refl 0, hn⟩

/-- The smallest random number: half of what was doubled and capped. -/
theorem toInt_after_zero {max d : Int64} (hd : 0 < d.toInt) (hfits : d.toInt < 2 ^ 62)
    (hmax : 0 < max.toInt) :
    (after (fun _ => 0) zero_mem max d).toInt =
      min (d.toInt * 2) max.toInt / 2 := by
  obtain ⟨next, hnext, -, -, -, heq⟩ :=
    (failing (fun _ => 0) zero_mem).toInt_nextBackoff d max hd hfits hmax ()
  have hzero : ((failing (fun _ => 0) zero_mem).int63n next ()).2.toInt = 0 := Int64.toInt_zero
  rw [after, heq, ← hnext, hzero]
  omega

theorem toInt_pred {n : Int64} (hn : 0 < n) : (n - 1).toInt = n.toInt - 1 := by
  have hpos := pos_iff.mp hn
  have hmax := n.toInt_lt
  rw [Int64.toInt_sub]
  exact bmod_of_fits (by change -2 ^ 63 ≤ n.toInt - 1; omega) (by change n.toInt - 1 < 2 ^ 63; omega)

theorem pred_mem (n : Int64) (hn : 0 < n) : 0 ≤ n - 1 ∧ n - 1 < n := by
  have hpos := pos_iff.mp hn
  rw [← toInt_le_iff, Int64.lt_iff_toInt_lt, toInt_pred hn]
  exact ⟨by change 0 ≤ n.toInt - 1; omega, by omega⟩

theorem toInt_after_pred {max d : Int64} (hd : 0 < d.toInt) (hfits : d.toInt < 2 ^ 62)
    (hmax : 0 < max.toInt) :
    (after (fun n => n - 1) pred_mem max d).toInt = min (d.toInt * 2) max.toInt - 1 := by
  obtain ⟨next, hnext, hpos, -, -, heq⟩ :=
    (failing (fun n => n - 1) pred_mem).toInt_nextBackoff d max hd hfits hmax ()
  have hpred : ((failing (fun n => n - 1) pred_mem).int63n next ()).2.toInt = next.toInt - 1 :=
    toInt_pred hpos
  rw [after, heq, ← hnext, hpred]
  omega

theorem Bounds.Within.fits {d : Int64} (h : b.Within (d, true)) :
    0 < d.toInt ∧ d.toInt < 2 ^ 62 := by
  refine ⟨(pos_iff.mp b.min_pos).trans_le (toInt_le_iff.mpr h.min_le), ?_⟩
  by_contra hlarge
  have hexact : (d * 2).toInt = d.toInt * 2 := h.doubles rfl
  rw [toInt_double_of_le (not_lt.mp hlarge)] at hexact
  omega

section

variable [Crypto] [Protobuf]

/-- An iteration in which the dial fails. -/
theorem iterate_failing (c : Client) (b : Bounds) (fuel : ℕ) (v : Vars Unit) :
    c.iterate ((failing draw hdraw).withBackoff b) fuel v =
      (⟨(), after draw hdraw b.max v.backoff, v.slept ++ [(v.backoff, true)]⟩,
        { reported := [.dial .deadlineExceeded] }, .running) := by
  have hclosed : ((failing draw hdraw).withBackoff b).closed v = (v, false) := rfl
  have hctx : ((failing draw hdraw).withBackoff b).ctxErr v = (v, none) := rfl
  have hconn : ((failing draw hdraw).withBackoff b).currentConn v = (v, none) := rfl
  have hdial : ((failing draw hdraw).withBackoff b).dial v = (v, .error .deadlineExceeded) := rfl
  have hsleep : ((failing draw hdraw).withBackoff b).sleepCtx v =
      (⟨(), after draw hdraw b.max v.backoff, v.slept ++ [(v.backoff, true)]⟩, true) := by
    simp only [Timed.withBackoff, sleepCtx_failing]
    rfl
  simp only [Client.iterate, hclosed, hctx, hconn, hdial, hsleep]

/-- **The delays of a client that cannot dial**: each is `nextBackoff` of the one before. -/
theorem sleeps_failing (b : Bounds) (fuel : ℕ) :
    (⟨{}, none, none⟩ : Client).sleeps (failing draw hdraw) b fuel () =
      (List.range fuel).map fun i => ((after draw hdraw b.max)^[i] b.min, true) := by
  have hloop : ∀ v : Vars Unit,
      ((⟨{}, none, none⟩ : Client).runLoop ((failing draw hdraw).withBackoff b) fuel v).1.slept =
        v.slept ++ (List.range fuel).map fun i => ((after draw hdraw b.max)^[i] v.backoff, true) := by
    induction fuel with
    | zero => exact fun v => (List.append_nil _).symm
    | succ fuel ih =>
      intro v
      simp only [Client.runLoop, iterate_failing]
      rw [ih, List.range_succ_eq_map, List.map_cons, List.map_map, List.append_assoc]
      rfl
  exact hloop _

theorem Bounds.Respected.within (h : b.Respected) (draw : Int64 → Int64)
    (hdraw : ∀ n, 0 < n → 0 ≤ draw n ∧ draw n < n) (i : ℕ) :
    b.Within ((after draw hdraw b.max)^[i] b.min, true) := by
  refine h ⟨{}, none, none⟩ Unit (failing draw hdraw) (i + 1) () _ ?_
  rw [sleeps_failing]
  exact List.mem_map_of_mem (List.mem_range.mpr i.lt_succ_self)

theorem Bounds.Respected.roomy (h : b.Respected) : b.Roomy := by
  have hmin := (h.within (fun _ => 0) zero_mem 0).fits
  have hle := toInt_le_iff.mpr b.min_le_max
  have hmax : 0 < b.max.toInt := hmin.1.trans_le hle
  change 0 < b.min.toInt ∧ b.min.toInt < 2 ^ 62 at hmin
  refine ⟨?_, ?_⟩
  · -- the second delay can be half of the upper bound
    by_contra htwice
    have hsecond := toInt_le_iff.mpr (h.within (fun _ => 0) zero_mem 1).min_le
    change b.min.toInt ≤ (after _ _ b.max b.min).toInt at hsecond
    rw [toInt_after_zero hmin.1 hmin.2 hmax] at hsecond
    omega
  · -- otherwise the delays grow until doubling overflows
    by_contra hnot
    obtain ⟨hlarge, hone⟩ := not_or.mp hnot
    have htwo : 2 ≤ b.min.toInt := by
      by_contra hlt
      have heq : b.min.toInt = (1 : Int64).toInt := by
        change b.min.toInt = 1
        omega
      exact hone (Int64.toInt_inj.mp heq)
    have hgrow : ∀ i : ℕ, (2 + i : ℤ) ≤ ((after (fun n => n - 1) pred_mem b.max)^[i] b.min).toInt := by
      intro i
      induction i with
      | zero => exact htwo
      | succ i ih =>
        obtain ⟨hpos, hfits⟩ := (h.within _ pred_mem i).fits
        rw [Function.iterate_succ_apply', toInt_after_pred hpos hfits hmax]
        push_cast
        omega
    obtain ⟨i, hi⟩ : ∃ i : ℕ, (2 ^ 62 : ℤ) ≤ i := ⟨_, Int.self_le_toNat _⟩
    have hfits := (h.within _ pred_mem i).fits.2
    have hge := hgrow i
    omega

/-- **The delays respect their bounds exactly if there is room between the bounds.** -/
theorem delays_within_iff (b : Bounds) :
    b.Respected ↔
      2 * b.min.toInt ≤ b.max.toInt ∧ (b.max.toInt ≤ 2 ^ 62 ∨ b.min = 1) :=
  ⟨fun h => h.roomy, fun h => Bounds.Roomy.respected h⟩

/-- Bounds of thirty seconds, both. -/
def thirtySeconds : Bounds := .withReconnect 30000000000 30000000000

end

/-- A client that cannot dial sleeps thirty seconds and then fifteen. -/
theorem sleeps_thirtySeconds :
    thirtySeconds.min = 30000000000 ∧ thirtySeconds.max = 30000000000 ∧
      @Client.sleeps Unit lengthCrypto tickerProtobuf (@Client.mk lengthCrypto {} none none)
          (failing (fun _ => 0) zero_mem) thirtySeconds 2 () =
        [(30000000000, true), (15000000000, true)] := by
  rw [@sleeps_failing _ _ lengthCrypto tickerProtobuf]
  decide +kernel

end HstongApi.PushVerify
