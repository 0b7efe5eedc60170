import HstongApi.Clock
import HstongApi.Transition

/-!
# The circuit breaker

The breaker is closed, open or half-open. Failures open it, and when the cooldown has passed it
admits a probe and is half-open until some call reports.

`System` is the breaker together with the calls that were admitted and have not reported. It also
keeps the time at which the breaker last opened, and for every call whether it is a probe and how
often the breaker had opened before. The lock makes `Allow`, `OnSuccess` and `OnFailure` the steps,
and `step_cases` says once what a step can do.

The calls that were admitted before the breaker opened report later, and the breaker cannot tell
them from the probe. It is safe nevertheless (`breaker_safe`), but a call of that kind can close it
or make room for a second probe (`only_probes_iff`).
-/

namespace HstongApi.CircuitBreaker

open Clock

/-! ## The breaker -/

/-- `State` -/
inductive State
  | stateClosed
  | stateOpen
  | stateHalfOpen
  deriving DecidableEq

/-- `DefaultFailureThreshold` -/
def defaultFailureThreshold : ℤ := 5

/-- `DefaultCooldown` -/
def defaultCooldown : Int64 := 30000000000

/-- `Breaker` -/
structure Breaker where
  state : State
  threshold : ℤ
  cooldown : Int64
  halfOpenProbes : ℤ
  failures : ℤ := 0
  probes : ℤ := 0
  openedAt : ℤ := 0
  deriving DecidableEq

/-- `NewBreaker` -/
def newBreaker (threshold : ℤ) (cooldown : Int64) : Breaker where
  state := .stateClosed
  threshold := if threshold ≤ 0 then defaultFailureThreshold else threshold
  cooldown := if cooldown ≤ 0 then defaultCooldown else cooldown
  halfOpenProbes := 1

/-- `Allow` -/
def Breaker.allow (b : Breaker) (now : ℤ) : Breaker × Bool :=
  if b.state = .stateOpen ∧ sub now b.openedAt < b.cooldown.toInt then (b, false)
  else
    let b := if b.state = .stateOpen then { b with state := .stateHalfOpen, probes := 0 } else b
    if b.state = .stateHalfOpen then
      if b.halfOpenProbes ≤ b.probes then (b, false) else ({ b with probes := b.probes + 1 }, true)
    else (b, true)

/-- `OnSuccess` -/
def Breaker.onSuccess (b : Breaker) : Breaker :=
  if b.state = .stateOpen then b else { b with state := .stateClosed, failures := 0, probes := 0 }

/-- `OnFailure` -/
def Breaker.onFailure (b : Breaker) (now : ℤ) : Breaker :=
  match b.state with
  | .stateHalfOpen =>
    { b with state := .stateOpen, openedAt := now, probes := 0, failures := b.failures + 1 }
  | .stateClosed =>
    if b.threshold ≤ b.failures + 1 then
      { b with failures := b.failures + 1, state := .stateOpen, openedAt := now }
    else { b with failures := b.failures + 1 }
  | .stateOpen => b

/-! ## The breaker and its calls -/

/-- A call that was admitted and has not reported. -/
structure Call where
  id : ℕ
  /-- it was admitted as a probe -/
  probe : Bool
  /-- how often the breaker had opened before -/
  openings : ℕ
  deriving DecidableEq

/-- The breaker and what happened to it. -/
structure System where
  breaker : Breaker
  /-- the last reading of the clock -/
  clock : ℤ
  calls : List Call := []
  /-- how many calls were admitted -/
  issued : ℕ := 0
  /-- how often the breaker has opened -/
  openings : ℕ := 0
  /-- when the breaker last opened, until it closes -/
  opened : Option ℤ := none
  deriving DecidableEq

/-- What the callers do: `execute` asks the breaker, and reports if it was admitted. -/
inductive Action
  | allow (now : ℤ)
  | report (id : ℕ) (ok : Bool) (now : ℤ)
  deriving DecidableEq

/-- The breaker has changed. -/
def System.observe (s : System) (now : ℤ) (b : Breaker) : System :=
  let opens := s.breaker.state ≠ .stateOpen ∧ b.state = .stateOpen
  { s with
    breaker := b
    clock := now
    openings := if opens then s.openings + 1 else s.openings
    opened := if b.state = .stateClosed then none else if opens then some now else s.opened }

/-- A call is admitted. -/
def System.issue (s : System) : System :=
  { s with
    calls := ⟨s.issued, s.breaker.state = .stateHalfOpen, s.openings⟩ :: s.calls
    issued := s.issued + 1 }

/-- A call is done. -/
def System.remove (s : System) (id : ℕ) : System :=
  { s with calls := s.calls.filter (·.id ≠ id) }

/-- A step, at a time that is not before the last one. -/
def step (s : System) : Action → Option System
  | .allow now =>
    if now < s.clock then none
    else
      let (b, admitted) := s.breaker.allow now
      some (if admitted then (s.observe now b).issue else s.observe now b)
  | .report id ok now =>
    if now < s.clock ∨ s.calls.find? (·.id = id) = none then none
    else
      let b := if ok then s.breaker.onSuccess else s.breaker.onFailure now
      some ((s.observe now b).remove id)

/-- A breaker that is new at this time. -/
def init (threshold : ℤ) (cooldown : Int64) (now : ℤ) : System where
  breaker := newBreaker threshold cooldown
  clock := now

/-! ## What a step can do -/

/-- What holds of a breaker from `NewBreaker` on: there is room for one probe, and when it is
half-open then that one was admitted. -/
structure Breaker.Sound (b : Breaker) : Prop where
  threshold_pos : 0 < b.threshold
  cooldown_pos : 0 < b.cooldown.toInt
  halfOpenProbes : b.halfOpenProbes = 1
  probing : b.state = .stateHalfOpen → b.probes = 1

variable {b : Breaker} {now : ℤ} {s s' : System} {a : Action}

theorem Breaker.Sound.cooldown_le_iff (h : b.Sound) (now : ℤ) :
    b.cooldown.toInt ≤ sub now b.openedAt ↔ b.openedAt + b.cooldown.toInt ≤ now := by
  have hmin : minDuration < 0 := by decide
  exact le_sub_iff (hmin.trans h.cooldown_pos) (Int64.toInt_le b.cooldown)

theorem Breaker.allow_closed (hstate : b.state = .stateClosed) (now : ℤ) :
    b.allow now = (b, true) := by
  simp [Breaker.allow, hstate]

theorem Breaker.Sound.allow_early (h : b.Sound) (hstate : b.state = .stateOpen)
    (hnow : now < b.openedAt + b.cooldown.toInt) : b.allow now = (b, false) := by
  have hsub := not_le.mp (mt (h.cooldown_le_iff now).mp (not_le.mpr hnow))
  rw [Breaker.allow, if_pos ⟨hstate, hsub⟩]

theorem Breaker.Sound.allow_probe (h : b.Sound) (hstate : b.state = .stateOpen)
    (hnow : b.openedAt + b.cooldown.toInt ≤ now) :
    b.allow now = ({ b with state := .stateHalfOpen, probes := 1 }, true) := by
  have hsub := not_lt.mpr ((h.cooldown_le_iff now).mpr hnow)
  simp [Breaker.allow, hstate, hsub, h.halfOpenProbes]

theorem Breaker.Sound.allow_halfOpen (h : b.Sound) (hstate : b.state = .stateHalfOpen) (now : ℤ) :
    b.allow now = (b, false) := by
  simp [Breaker.allow, hstate, h.halfOpenProbes, h.probing hstate]

/-- The steps of the breaker and its calls. -/
inductive Moves (s : System) : Action → System → Prop
  | issue {now : ℤ} (hclock : s.clock ≤ now) (hstate : s.breaker.state = .stateClosed) :
    Moves s (.allow now) { s with
      clock := now, opened := none, issued := s.issued + 1
      calls := ⟨s.issued, false, s.openings⟩ :: s.calls }
  /-- `Allow` refuses: the cooldown has not passed, or the probe has not reported -/
  | refuse {now : ℤ} (hclock : s.clock ≤ now) (hstate : s.breaker.state ≠ .stateClosed) :
    Moves s (.allow now) { s with clock := now }
  | probe {now : ℤ} (hclock : s.clock ≤ now) (hstate : s.breaker.state = .stateOpen)
      (hnow : s.breaker.openedAt + s.breaker.cooldown.toInt ≤ now) :
    Moves s (.allow now) { s with
      breaker := { s.breaker with state := .stateHalfOpen, probes := 1 }
      clock := now, issued := s.issued + 1
      calls := ⟨s.issued, true, s.openings⟩ :: s.calls }
  /-- a report while the breaker is open -/
  | ignore {c : Call} {ok : Bool} {now : ℤ} (hclock : s.clock ≤ now) (hc : c ∈ s.calls)
      (hstate : s.breaker.state = .stateOpen) :
    Moves s (.report c.id ok now) { s with
      clock := now, calls := s.calls.filter (·.id ≠ c.id) }
  | close {c : Call} {now : ℤ} (hclock : s.clock ≤ now) (hc : c ∈ s.calls)
      (hstate : s.breaker.state ≠ .stateOpen) :
    Moves s (.report c.id true now) { s with
      breaker := { s.breaker with state := .stateClosed, failures := 0, probes := 0 }
      clock := now, opened := none, calls := s.calls.filter (·.id ≠ c.id) }
  | count {c : Call} {now : ℤ} (hclock : s.clock ≤ now) (hc : c ∈ s.calls)
      (hstate : s.breaker.state = .stateClosed)
      (hfew : s.breaker.failures + 1 < s.breaker.threshold) :
    Moves s (.report c.id false now) { s with
      breaker := { s.breaker with failures := s.breaker.failures + 1 }
      clock := now, opened := none, calls := s.calls.filter (·.id ≠ c.id) }
  | opens {c : Call} {now p : ℤ} (hclock : s.clock ≤ now) (hc : c ∈ s.calls)
      (hstate : s.breaker.state ≠ .stateOpen)
      (hmany : s.breaker.state = .stateClosed → s.breaker.threshold ≤ s.breaker.failures + 1) :
    Moves s (.report c.id false now) { s with
      breaker := { s.breaker with
        state := .stateOpen, openedAt := now, failures := s.breaker.failures + 1
        probes := p }
      clock := now, openings := s.openings + 1, opened := some now
      calls := s.calls.filter (·.id ≠ c.id) }

theorem step_allow (hsound : s.breaker.Sound) (hstep : step s (.allow now) = some s') :
    Moves s (.allow now) s' := by
  simp only [step] at hstep
  split at hstep
  · cases hstep
  · have hclock := not_lt.mp ‹¬now < s.clock›
    cases hstate : s.breaker.state with
    | stateClosed =>
      rw [Breaker.allow_closed hstate] at hstep
      obtain rfl : (s.observe now s.breaker).issue = s' := Option.some.inj hstep
      have hissue := Moves.issue hclock hstate
      simpa [System.observe, System.issue, hstate] using hissue
    | stateHalfOpen =>
      rw [hsound.allow_halfOpen hstate] at hstep
      obtain rfl : s.observe now s.breaker = s' := Option.some.inj hstep
      have hrefuse := Moves.refuse (s := s) hclock (by rw [hstate]; decide)
      simpa [System.observe, hstate] using hrefuse
    | stateOpen =>
      rcases lt_or_ge now (s.breaker.openedAt + s.breaker.cooldown.toInt) with hnow | hnow
      · rw [hsound.allow_early hstate hnow] at hstep
        obtain rfl : s.observe now s.breaker = s' := Option.some.inj hstep
        have hrefuse := Moves.refuse (s := s) hclock (by rw [hstate]; decide)
        simpa [System.observe, hstate] using hrefuse
      · rw [hsound.allow_probe hstate hnow] at hstep
        cases hstep
        have hprobe := Moves.probe hclock hstate hnow
        simpa [System.observe, System.issue, hstate] using hprobe

theorem step_report {id : ℕ} {ok : Bool} (hstep : step s (.report id ok now) = some s') :
    Moves s (.report id ok now) s' := by
  simp only [step] at hstep
  split at hstep
  · cases hstep
  · obtain ⟨hclock, hfind⟩ := not_or.mp ‹¬(_ ∨ _)›
    replace hclock := not_lt.mp hclock
    obtain ⟨c, hc⟩ := Option.ne_none_iff_exists'.mp hfind
    obtain rfl : c.id = id := by simpa using List.find?_some hc
    have hmem := List.mem_of_find?_eq_some hc
    cases hstep
    cases hstate : s.breaker.state with
    | stateOpen =>
      have hignore : Moves s (.report c.id ok now) _ := .ignore hclock hmem hstate
      cases ok <;>
        simpa [System.observe, System.remove, Breaker.onSuccess, Breaker.onFailure, hstate]
          using hignore
    | stateHalfOpen =>
      have hopen : s.breaker.state ≠ .stateOpen := by rw [hstate]; decide
      cases ok with
      | true =>
        have hclose := Moves.close hclock hmem hopen
        simpa [System.observe, System.remove, Breaker.onSuccess, hstate] using hclose
      | false =>
        have hopens := Moves.opens (p := 0) hclock hmem hopen (by rw [hstate]; nofun)
        simpa [System.observe, System.remove, Breaker.onFailure, hstate] using hopens
    | stateClosed =>
      have hopen : s.breaker.state ≠ .stateOpen := by rw [hstate]; decide
      cases ok with
      | true =>
        have hclose := Moves.close hclock hmem hopen
        simpa [System.observe, System.remove, Breaker.onSuccess, hstate] using hclose
      | false =>
        rcases le_or_gt s.breaker.threshold (s.breaker.failures + 1) with hmany | hfew
        · have hopens := Moves.opens (p := s.breaker.probes) hclock hmem hopen fun _ => hmany
          simpa [System.observe, System.remove, Breaker.onFailure, hstate, hmany] using hopens
        · have hcount := Moves.count hclock hmem hstate hfew
          simpa [System.observe, System.remove, Breaker.onFailure, hstate, hfew.not_ge] using hcount

/-- **All that a step can do.** -/
theorem step_cases (hsound : s.breaker.Sound) (hstep : step s a = some s') : Moves s a s' := by
  cases a with
  | allow now => exact step_allow hsound hstep
  | report id ok now => exact step_report hstep

/-! ## Safety -/

/-- What relates the breaker, its calls and the clock. -/
structure Inv (s : System) : Prop where
  sound : s.breaker.Sound
  closed : s.breaker.state = .stateClosed →
    s.opened = none ∧ s.breaker.failures < s.breaker.threshold
  opened : s.breaker.state ≠ .stateClosed → s.opened = some s.breaker.openedAt
  /-- no report came since the probe was admitted -/
  halfOpen : s.breaker.state = .stateHalfOpen → s.calls ≠ []

theorem sound_newBreaker (threshold : ℤ) (cooldown : Int64) :
    (newBreaker threshold cooldown).Sound := by
  refine ⟨?_, ?_, rfl, nofun⟩
  · simp only [newBreaker]
    split
    · decide
    · exact not_le.mp ‹_›
  · simp only [newBreaker]
    split
    · decide
    · exact Int64.lt_iff_toInt_lt.mp (Int64.not_le.mp ‹_›)

theorem inv_init (threshold : ℤ) (cooldown : Int64) (now : ℤ) :
    Inv (init threshold cooldown now) := by
  have hsound := sound_newBreaker threshold cooldown
  exact ⟨hsound, fun _ => ⟨rfl, hsound.threshold_pos⟩, fun h => absurd rfl h, nofun⟩

theorem Inv.step (h : Inv s) (hstep : step s a = some s') : Inv s' := by
  obtain ⟨hthreshold, hcooldown, hprobes, hprobing⟩ := h.sound
  cases step_cases h.sound hstep with
  | issue hclock hstate =>
    refine ⟨h.sound, fun _ => ⟨rfl, (h.closed hstate).2⟩, fun hne => absurd hstate hne, fun hhalf => ?_⟩
    rw [show s.breaker.state = .stateHalfOpen from hhalf] at hstate
    cases hstate
  | refuse hclock hstate => exact { h with }
  | probe hclock hstate hnow =>
    refine ⟨⟨hthreshold, hcooldown, hprobes, fun _ => rfl⟩, nofun, fun _ => ?_,
      fun _ => List.cons_ne_nil _ _⟩
    exact h.opened (by rw [hstate]; decide)
  | ignore hclock hc hstate =>
    refine { h with halfOpen := fun hhalf => ?_ }
    rw [show s.breaker.state = .stateHalfOpen from hhalf] at hstate
    cases hstate
  | close hclock hc hstate =>
    exact ⟨⟨hthreshold, hcooldown, hprobes, nofun⟩, fun _ => ⟨rfl, hthreshold⟩,
      fun hne => absurd rfl hne, nofun⟩
  | count hclock hc hstate hfew =>
    refine ⟨⟨hthreshold, hcooldown, hprobes, hprobing⟩, fun _ => ⟨rfl, hfew⟩,
      fun hne => absurd hstate hne, fun hhalf => ?_⟩
    rw [show s.breaker.state = .stateHalfOpen from hhalf] at hstate
    cases hstate
  | opens hclock hc hstate hmany =>
    exact ⟨⟨hthreshold, hcooldown, hprobes, nofun⟩, nofun, fun _ => rfl, nofun⟩

/-- Safety of the breaker and its calls, in one state. -/
structure Safe (s : System) : Prop where
  /-- no call is admitted before the cooldown has passed -/
  cooldown : ∀ now ≥ s.clock, (s.breaker.allow now).2 = true → ∀ t, s.opened = some t →
    t + s.breaker.cooldown.toInt ≤ now
  failures : s.breaker.state = .stateClosed → s.breaker.failures < s.breaker.threshold
  /-- a call is refused when half-open only if another one has not reported -/
  outstanding : s.breaker.state = .stateHalfOpen → ∀ now ≥ s.clock,
    (s.breaker.allow now).2 = false → s.calls ≠ []
  /-- once all calls have reported, a call is admitted when the cooldown has passed -/
  recovers : s.calls = [] → ∀ now ≥ s.clock,
    (∀ t, s.opened = some t → t + s.breaker.cooldown.toInt ≤ now) →
      (s.breaker.allow now).2 = true

/-- A breaker that is not half-open admits a call when the cooldown has passed. -/
theorem Inv.admits (h : Inv s) (hstate : s.breaker.state ≠ .stateHalfOpen)
    (hpassed : ∀ t, s.opened = some t → t + s.breaker.cooldown.toInt ≤ now) :
    (s.breaker.allow now).2 = true := by
  cases hs : s.breaker.state with
  | stateClosed => rw [Breaker.allow_closed hs]
  | stateOpen =>
    have hopened := h.opened (by rw [hs]; decide)
    rw [h.sound.allow_probe hs (hpassed _ hopened)]
  | stateHalfOpen => exact absurd hs hstate

theorem Inv.safe (h : Inv s) : Safe s := by
  refine ⟨fun now hnow hadmit t ht => ?_, fun hstate => (h.closed hstate).2,
    fun hstate now _ _ => h.halfOpen hstate, fun hcalls now _ hpassed => ?_⟩
  · cases hstate : s.breaker.state with
    | stateClosed =>
      rw [(h.closed hstate).1] at ht
      cases ht
    | stateOpen =>
      have hopened := h.opened (by rw [hstate]; decide)
      obtain rfl : s.breaker.openedAt = t := Option.some.inj (hopened.symm.trans ht)
      by_contra hearly
      rw [h.sound.allow_early hstate (not_le.mp hearly)] at hadmit
      cases hadmit
    | stateHalfOpen =>
      rw [h.sound.allow_halfOpen hstate] at hadmit
      cases hadmit
  · exact h.admits (fun hstate => h.halfOpen hstate hcalls) hpassed

/-- **The breaker is safe and does not lock up.** In every state of every run, whatever the order
of the admissions and the reports, no call is admitted before the cooldown has passed, the
failures stay below the threshold while it is closed, and it refuses a call when half-open only
while another one has still to report. -/
theorem breaker_safe (threshold : ℤ) (cooldown : Int64) (start : ℤ) (run : List Action) :
    Always step Safe (init threshold cooldown start) run := by
  have hinv : Always step Inv (init threshold cooldown start) run :=
    always_of_step (fun _ _ _ h hstep => h.step hstep) (inv_init threshold cooldown start) run
  exact hinv.mono fun _ h => h.safe

/-! ## Who closes the breaker -/

/-- What a step may do if only the probe counts after the breaker has opened. -/
structure OnlyProbes (s : System) (a : Action) : Prop where
  /-- the breaker closes by the success of a probe that was admitted after it last opened -/
  closes : ∀ s', step s a = some s' → s.breaker.state ≠ .stateClosed →
    s'.breaker.state = .stateClosed →
      ∃ c ∈ s.calls, ∃ now, a = .report c.id true now ∧ c.probe = true ∧ c.openings = s.openings
  /-- there is no second probe -/
  one : ∀ s', step s a = some s' → s'.breaker.state = .stateHalfOpen →
    (s'.calls.filter (·.probe)).length ≤ 1
  /-- the result of a call that was admitted before the breaker last opened changes nothing -/
  stale : ∀ s', step s a = some s' → ∀ c ∈ s.calls, ∀ ok now, a = .report c.id ok now →
    c.openings < s.openings → s'.breaker.state = s.breaker.state

/-- A call that was admitted before the breaker last opened does not report while the breaker is
half-open, and it does not bring the last failure that opens it. -/
def Timely (s : System) : Action → Prop
  | .allow _ => True
  | .report id ok _ => ∀ c ∈ s.calls, c.id = id → c.openings < s.openings →
    s.breaker.state ≠ .stateHalfOpen ∧
      (s.breaker.state = .stateClosed → ok = false → s.breaker.failures + 1 < s.breaker.threshold)

instance (s : System) : DecidablePred (Timely s)
  | .allow _ => .isTrue trivial
  | .report id _ _ => inferInstanceAs (Decidable (∀ c ∈ s.calls, c.id = id → _))

/-- Where the probes are, as long as the reports come in time. -/
structure ProbeInv (s : System) : Prop where
  inv : Inv s
  openings_le : ∀ c ∈ s.calls, c.openings ≤ s.openings
  /-- no call is admitted while the breaker is open -/
  opened : s.breaker.state = .stateOpen → ∀ c ∈ s.calls, c.openings < s.openings
  halfOpen : s.breaker.state = .stateHalfOpen →
    (∃ p, s.calls.filter (·.probe) = [p]) ∧ ∀ c ∈ s.calls, c.openings = s.openings → c.probe = true
  other : s.breaker.state ≠ .stateHalfOpen → ∀ c ∈ s.calls, c.probe = false

theorem probeInv_init (threshold : ℤ) (cooldown : Int64) (start : ℤ) :
    ProbeInv (init threshold cooldown start) :=
  ⟨inv_init threshold cooldown start, nofun, nofun, nofun, fun _ => nofun⟩

/-- A call that reports in time to a half-open breaker is the probe. -/
theorem ProbeInv.probe_of_timely (h : ProbeInv s) {c : Call} (hc : c ∈ s.calls) {ok : Bool}
    (htimely : Timely s (.report c.id ok now)) (hstate : s.breaker.state = .stateHalfOpen) :
    c.probe = true ∧ c.openings = s.openings := by
  have hcurrent : ¬c.openings < s.openings := fun hstale =>
    (htimely c hc rfl hstale).1 hstate
  have hopenings := le_antisymm (h.openings_le c hc) (not_lt.mp hcurrent)
  exact ⟨(h.halfOpen hstate).2 c hc hopenings, hopenings⟩

/-- After a report to a breaker that is not open there is no probe. -/
theorem ProbeInv.probe_of_remaining (h : ProbeInv s) {c : Call} (hc : c ∈ s.calls) {ok : Bool}
    (htimely : Timely s (.report c.id ok now)) {d : Call} (hd : d ∈ s.calls.filter (·.id ≠ c.id)) :
    d.probe = false := by
  obtain ⟨hmem, hid⟩ := List.mem_filter.mp hd
  by_cases hstate : s.breaker.state = .stateHalfOpen
  · -- the call and the remaining one cannot both be the probe
    obtain ⟨⟨p, hp⟩, -⟩ := h.halfOpen hstate
    by_contra hprobe
    have hcp : c ∈ [p] := hp ▸ List.mem_filter.mpr ⟨hc, (h.probe_of_timely hc htimely hstate).1⟩
    have hdp : d ∈ [p] := hp ▸ List.mem_filter.mpr ⟨hmem, eq_true_of_ne_false hprobe⟩
    rw [List.mem_singleton.mp hdp, List.mem_singleton.mp hcp] at hid
    exact of_decide_eq_true hid rfl
  · exact h.other hstate d hmem

theorem ProbeInv.step (h : ProbeInv s) (htimely : Timely s a) (hstep : step s a = some s') :
    ProbeInv s' := by
  have hinv := h.inv.step hstep
  have hkept : ∀ id, ∀ c ∈ s.calls.filter (·.id ≠ id), c ∈ s.calls :=
    fun _ _ hc => (List.mem_filter.mp hc).1
  cases step_cases h.inv.sound hstep with
  | issue hclock hstate =>
    have hnot : s.breaker.state ≠ .stateHalfOpen := by rw [hstate]; decide
    refine ⟨hinv, List.forall_mem_cons.mpr ⟨le_refl _, h.openings_le⟩, fun hopen => ?_,
      fun hhalf => absurd hhalf hnot, fun _ => List.forall_mem_cons.mpr ⟨rfl, h.other hnot⟩⟩
    rw [show s.breaker.state = .stateOpen from hopen] at hstate
    cases hstate
  | refuse hclock hstate => exact { h with inv := hinv }
  | probe hclock hstate hnow =>
    have hnot : s.breaker.state ≠ .stateHalfOpen := by rw [hstate]; decide
    have hold : s.calls.filter (·.probe) = [] :=
      List.filter_eq_nil_iff.mpr fun c hc => by rw [h.other hnot c hc]; decide
    refine ⟨hinv, List.forall_mem_cons.mpr ⟨le_refl _, h.openings_le⟩, nofun,
      fun _ => ⟨⟨⟨s.issued, true, s.openings⟩, ?_⟩, List.forall_mem_cons.mpr ⟨fun _ => rfl, fun c hc heq => ?_⟩⟩,
      fun hne => absurd rfl hne⟩
    · rw [List.filter_cons_of_pos rfl, hold]
    · exact absurd heq (h.opened hstate c hc).ne
  | @ignore c _ _ hclock hc hstate =>
    have hnot : s.breaker.state ≠ .stateHalfOpen := by rw [hstate]; decide
    exact ⟨hinv, fun d hd => h.openings_le d (hkept _ d hd),
      fun _ d hd => h.opened hstate d (hkept _ d hd), fun hhalf => absurd hhalf hnot,
      fun _ d hd => h.other hnot d (hkept _ d hd)⟩
  | @close c _ hclock hc hstate =>
    exact ⟨hinv, fun d hd => h.openings_le d (hkept _ d hd), nofun, nofun,
      fun _ d hd => h.probe_of_remaining hc htimely hd⟩
  | @count c _ hclock hc hstate hfew =>
    have hnot : s.breaker.state ≠ .stateHalfOpen := by rw [hstate]; decide
    refine ⟨hinv, fun d hd => h.openings_le d (hkept _ d hd), fun hopen => ?_,
      fun hhalf => absurd hhalf hnot, fun _ d hd => h.probe_of_remaining hc htimely hd⟩
    rw [show s.breaker.state = .stateOpen from hopen] at hstate
    cases hstate
  | @opens c _ _ hclock hc hstate hmany =>
    have hlt : ∀ d ∈ s.calls.filter (·.id ≠ c.id), d.openings < s.openings + 1 :=
      fun d hd => Nat.lt_succ_of_le (h.openings_le d (hkept _ d hd))
    exact ⟨hinv, fun d hd => (hlt d hd).le, fun _ => hlt, nofun,
      fun _ d hd => h.probe_of_remaining hc htimely hd⟩

theorem ProbeInv.onlyProbes (h : ProbeInv s) (htimely : Timely s a) : OnlyProbes s a := by
  refine ⟨fun s' hstep hstate hclosed => ?_, fun s' hstep hhalf => ?_,
    fun s' hstep c hc ok now ha hstale => ?_⟩
  · cases step_cases h.inv.sound hstep with
    | close hclock hc hopen =>
      have hhalf : s.breaker.state = .stateHalfOpen := by
        cases hs : s.breaker.state with
        | stateClosed => exact absurd hs hstate
        | stateOpen => exact absurd hs hopen
        | stateHalfOpen => rfl
      exact ⟨_, hc, _, rfl, h.probe_of_timely hc htimely hhalf⟩
    | issue _ hs | count _ _ hs => exact absurd hs hstate
    | refuse | ignore => exact absurd hclosed hstate
    | _ => cases hclosed
  · obtain ⟨⟨p, hp⟩, -⟩ := (h.step htimely hstep).halfOpen hhalf
    rw [hp]
    exact le_refl 1
  · subst ha
    obtain ⟨hnot, hfew⟩ := htimely c hc rfl hstale
    generalize hid : c.id = id at hstep
    cases step_cases h.inv.sound hstep with
    | ignore | count => rfl
    | close _ _ hopen =>
      cases hs : s.breaker.state with
      | stateClosed => rfl
      | stateOpen => exact absurd hs hopen
      | stateHalfOpen => exact absurd hs hnot
    | opens _ _ hopen hmany =>
      cases hs : s.breaker.state with
      | stateClosed => exact absurd (hfew hs rfl) (not_lt.mpr (hmany hs))
      | stateOpen => rfl
      | stateHalfOpen => exact absurd hs hnot

theorem OnlyProbes.timely (h : OnlyProbes s a) (hsound : s.breaker.Sound)
    (hstep : CircuitBreaker.step s a = some s') : Timely s a := by
  cases a with
  | allow now => trivial
  | report id ok now =>
    rintro c hc rfl hstale
    have hsame := h.stale s' hstep c hc ok now rfl hstale
    generalize hid : c.id = id at hstep
    cases step_cases hsound hstep with
    | ignore _ _ hs => rw [hs]; exact ⟨by decide, nofun⟩
    | close => rw [← hsame]; exact ⟨nofun, nofun⟩
    | count _ _ hs hfew => rw [hs]; exact ⟨by decide, fun _ _ => hfew⟩
    | opens _ _ hs => exact absurd hsame.symm hs

theorem eachStep_timely {run : List Action} (hinit : ProbeInv s)
    (h : EachStep step OnlyProbes s run) : EachStep step Timely s run := by
  refine h.imp (fun s a s' hs hstep hprobes => ?_) hinit
  have htimely := hprobes.timely hs.inv.sound hstep
  exact ⟨htimely, hs.step htimely hstep⟩

theorem eachStep_onlyProbes {run : List Action} (hinit : ProbeInv s)
    (h : EachStep step Timely s run) : EachStep step OnlyProbes s run :=
  h.imp (fun _ _ _ hs hstep htimely => ⟨hs.onlyProbes htimely, hs.step htimely hstep⟩) hinit

/-- **Only the probes count, exactly as long as the reports of older calls come in time.** -/
theorem only_probes_iff (threshold : ℤ) (cooldown : Int64) (start : ℤ) (run : List Action) :
    EachStep step OnlyProbes (init threshold cooldown start) run ↔
      EachStep step Timely (init threshold cooldown start) run :=
  ⟨eachStep_timely (probeInv_init ..), eachStep_onlyProbes (probeInv_init ..)⟩

/-- Two calls are admitted; the first one fails and opens the breaker, and a probe is admitted. -/
def slowCall : List Action := [.allow 0, .allow 0, .report 0 false 0, .allow 1]

/-- The success of the second call closes the breaker while the probe has still to report, and its
failure makes room for a second probe. -/
theorem slowCall_counts :
    ¬EachStep step OnlyProbes (init 1 1 0) (slowCall ++ [.report 1 true 1]) ∧
    (∃ s, exec step (init 1 1 0) (slowCall ++ [.report 1 true 1]) = some s ∧
      s.breaker.state = .stateClosed ∧ s.calls = [⟨2, true, 1⟩]) ∧
    ∃ s, exec step (init 1 1 0) (slowCall ++ [.report 1 false 1, .allow 2]) = some s ∧
      s.breaker.state = .stateHalfOpen ∧ s.calls = [⟨3, true, 2⟩, ⟨2, true, 1⟩] := by
  refine ⟨fun h => ?_, exec_exists (by decide +kernel), exec_exists (by decide +kernel)⟩
  have hlate : ¬EachStep step Timely (init 1 1 0) (slowCall ++ [.report 1 true 1]) := by
    decide +kernel
  exact hlate (eachStep_timely (probeInv_init 1 1 0) h)

/-- The second call comes in time if it reports while the breaker is open. -/
example : EachStep step Timely (init 1 1 0)
    [.allow 0, .allow 0, .report 0 false 0, .report 1 true 0, .allow 1, .report 2 true 1] := by
  decide +kernel

end HstongApi.CircuitBreaker
