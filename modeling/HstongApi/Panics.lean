import HstongApi.Breaker
import HstongApi.ManagerPanics
import HstongApi.ServicePanics

/-!
# Calls that end in a panic

`Client.execute` tells the breaker how a call has ended after its attempts, and nothing is deferred: a
call whose attempts panic is never reported. When it was the probe, the breaker stays half-open with no
room for another one and refuses every call from then on (`panic_shuts_breaker`). A call that was
admitted while the breaker was closed may panic without harm (`always_recovers`).

It is the same with the session manager and the session service, which publish the outcome of a login
on the normal path only. `bookkeeping_survives` and `panics_strand_callers` are about all three.
-/

namespace HstongApi

/-! ## The breaker -/

namespace CircuitBreaker

/-- A call asks or reports, or its attempts panic and it does not report. -/
inductive Happening
  | act (a : Action)
  | panic (id : ℕ)
  deriving DecidableEq

/-- One step of the system with panics. -/
def stepPanic (s : System) : Happening → Option System
  | .act a => step s a
  | .panic id => if s.calls.find? (·.id = id) = none then none else some (s.remove id)

/-- The call that panics is not a probe. -/
def ProbeSpared (s : System) : Happening → Prop
  | .act _ => True
  | .panic id => ∀ c ∈ s.calls, c.id = id → c.probe = false

instance (s : System) : DecidablePred (ProbeSpared s)
  | .act _ => .isTrue trivial
  | .panic id => inferInstanceAs (Decidable (∀ c ∈ s.calls, c.id = id → c.probe = false))

/-- **Once the probe has ended, a call is admitted when the cooldown has passed.** -/
def Recovers (s : System) : Prop :=
  (∀ c ∈ s.calls, c.probe = false) → ∀ now ≥ s.clock,
    (∀ t, s.opened = some t → t + s.breaker.cooldown.toInt ≤ now) → (s.breaker.allow now).2 = true

/-- A half-open breaker has a probe under way. -/
structure Probed (s : System) : Prop where
  inv : Inv s
  probe : s.breaker.state = .stateHalfOpen → ∃ c ∈ s.calls, c.probe = true

theorem Probed.recovers {s : System} (h : Probed s) : Recovers s := by
  intro hnone now _ hpassed
  refine h.inv.admits (fun hstate => ?_) hpassed
  obtain ⟨c, hc, hprobe⟩ := h.probe hstate
  cases (hnone c hc).symm.trans hprobe

theorem Probed.step {s s' : System} {a : Happening} (h : Probed s) (hspared : ProbeSpared s a)
    (hstep : stepPanic s a = some s') : Probed s' := by
  cases a with
  | act a =>
    refine ⟨h.inv.step hstep, ?_⟩
    cases step_cases h.inv.sound hstep with
    | refuse => exact h.probe
    | probe => exact fun _ => ⟨_, List.mem_cons_self, rfl⟩
    | issue _ hstate | ignore _ _ hstate | count _ _ hstate => exact fun hhalf => by cases hstate.symm.trans hhalf
    | _ => exact nofun
  | panic id =>
    simp only [stepPanic] at hstep
    split at hstep <;> cases hstep
    -- the probe is still there
    have hprobe : s.breaker.state = .stateHalfOpen →
        ∃ c ∈ (s.remove id).calls, c.probe = true := by
      intro hstate
      obtain ⟨c, hc, hprobe⟩ := h.probe hstate
      refine ⟨c, List.mem_filter.mpr ⟨hc, decide_eq_true fun hid => ?_⟩, hprobe⟩
      cases (hspared c hc hid).symm.trans hprobe
    refine ⟨{ h.inv with halfOpen := fun hstate hnil => ?_ }, hprobe⟩
    obtain ⟨c, hc, -⟩ := hprobe hstate
    rw [hnil] at hc
    cases hc

/-- A breaker recovers in every run in which no probe panics. -/
theorem always_recovers (threshold : ℤ) (cooldown : Int64) (start : ℤ) {run : List Happening}
    (hrun : EachStep stepPanic ProbeSpared (init threshold cooldown start) run) :
    Always stepPanic Recovers (init threshold cooldown start) run := by
  have hprobed : Always stepPanic Probed (init threshold cooldown start) run :=
    hrun.always (fun _ _ _ hs hspared hstep => hs.step hspared hstep)
      ⟨inv_init threshold cooldown start, nofun⟩
  exact hprobed.mono fun _ hs => hs.recovers

/-- A half-open breaker without a call under way refuses every call for ever. -/
theorem shut_forever {s : System} (hsound : s.breaker.Sound) (hstate : s.breaker.state = .stateHalfOpen)
    (hcalls : s.calls = []) (run : List Happening) :
    Always stepPanic (fun s => ∀ now, (s.breaker.allow now).2 = false) s run := by
  have hshut : Always stepPanic (fun s => s.breaker.Sound ∧ s.breaker.state = .stateHalfOpen ∧
      s.calls = []) s run := by
    refine always_of_step (fun s a s' h hstep => ?_) ⟨hsound, hstate, hcalls⟩ run
    obtain ⟨hsound, hstate, hcalls⟩ := h
    cases a with
    | act a =>
      cases step_cases hsound hstep with
      | refuse => exact ⟨hsound, hstate, hcalls⟩
      | issue _ hs | probe _ hs => cases hs.symm.trans hstate
      | ignore _ hc | close _ hc | count _ hc | opens _ hc =>
        rw [hcalls] at hc
        cases hc
    | panic id =>
      simp only [stepPanic, hcalls, List.find?_nil] at hstep
      cases hstep
  refine hshut.mono fun s h now => ?_
  rw [h.1.allow_halfOpen h.2.1]

/-- A call fails and opens the breaker, and then the probe panics. -/
def panickedProbe : List Happening :=
  [.act (.allow 0), .act (.report 0 false 0), .act (.allow 1), .panic 1]

/-- The breaker stays shut. -/
theorem panic_shuts_breaker : ∃ s, exec stepPanic (init 1 1 0) panickedProbe = some s ∧ ¬Recovers s ∧
    ∀ run, Always stepPanic (fun s => ∀ now, (s.breaker.allow now).2 = false) s run := by
  obtain ⟨s, hs, hbreaker, hcalls, hclock, hopened⟩ :
      ∃ s, exec stepPanic (init 1 1 0) panickedProbe = some s ∧
        s.breaker = { newBreaker 1 1 with state := .stateHalfOpen, failures := 1, probes := 1 } ∧
        s.calls = [] ∧ s.clock ≤ 1 ∧ s.opened = some 0 := exec_exists (by decide +kernel)
  have hsound : s.breaker.Sound := by
    obtain ⟨hthreshold, hcooldown, hprobes, -⟩ := sound_newBreaker 1 1
    rw [hbreaker]
    exact ⟨hthreshold, hcooldown, hprobes, fun _ => rfl⟩
  have hstate : s.breaker.state = .stateHalfOpen := by rw [hbreaker]
  refine ⟨s, hs, fun hrecovers => ?_, shut_forever hsound hstate hcalls⟩
  have hadmits := hrecovers (by rw [hcalls]; nofun) 1 hclock fun t ht => by
    obtain rfl : 0 = t := Option.some.inj (hopened.symm.trans ht)
    rw [hbreaker]
    decide
  rw [hsound.allow_halfOpen hstate] at hadmits
  cases hadmits

end CircuitBreaker

/-! ## All three -/

/-- **The bookkeeping survives the panics of other calls.** In every run, whatever the interleaving,
in which no request of a login and no probe ends in a panic, all calls of the session manager and of
the session service return in every schedule and the next login can begin, and a breaker whose probe has
ended admits a call after the cooldown. -/
theorem bookkeeping_survives [UnicodeTables] (password : Bytes)
    (managed : List (Threads.Happening SessionManager.Answer SessionManager.Call ℕ))
    (hmanaged : EachStep SessionManager.stepPanic (Threads.Only SessionManager.LoginSpared)
      (SessionManager.init password) managed)
    (store : Auth.AccountID → Option Auth.Session)
    (served : List (Threads.Happening SessionService.Reply SessionService.Call ℕ))
    (hserved : EachStep SessionService.stepPanic (Threads.Only SessionService.LoginSpared)
      (SessionService.init store) served)
    (threshold : ℤ) (cooldown : Int64) (start : ℤ) (guarded : List CircuitBreaker.Happening)
    (hguarded : EachStep CircuitBreaker.stepPanic CircuitBreaker.ProbeSpared
      (CircuitBreaker.init threshold cooldown start) guarded) :
    Always SessionManager.stepPanic SessionManager.Released (SessionManager.init password) managed ∧
    Always SessionService.stepPanic SessionService.Released (SessionService.init store) served ∧
    Always CircuitBreaker.stepPanic CircuitBreaker.Recovers
      (CircuitBreaker.init threshold cooldown start) guarded :=
  ⟨SessionManager.always_released password hmanaged, SessionService.always_released store hserved,
    CircuitBreaker.always_recovers threshold cooldown start hguarded⟩

namespace SessionManager

/-- Thread `0` logs in, and the request of a logout of thread `1` panics while thread `0` logs in
again. -/
def panickedLogout : List (Threads.Happening Answer Call ℕ) :=
  (loginUnderWay 0 ++ loginEnds 0 .success ++ (logoutUnderWay 1).take 2 ++ loginUnderWay 0).map .event ++
    [.panic 1]

end SessionManager

namespace SessionService

/-- Thread `0` logs in, and the request of a logout of thread `1` panics. -/
def panickedLogout : List (Threads.Happening Reply Call ℕ) :=
  (acts 0 (.login (bytes "a") (bytes "p")) 18 ++ acts 1 (.logout (bytes "a")) 1).map .event ++ [.panic 1]

end SessionService

namespace CircuitBreaker

/-- A call panics while the breaker is closed, another one opens it, and the probe fails. -/
def panickedCall : List Happening :=
  [.act (.allow 0), .panic 0, .act (.allow 0), .act (.report 1 false 0), .act (.allow 1),
    .act (.report 2 false 1)]

end CircuitBreaker

theorem bookkeeping_survives_panickedLogout :
    (exec SessionManager.stepPanic (SessionManager.init (bytes "p"))
      SessionManager.panickedLogout).isSome = true ∧
    (exec (@SessionService.stepPanic asciiTables) (SessionService.init fun _ => none)
      SessionService.panickedLogout).isSome = true ∧
    (exec CircuitBreaker.stepPanic (CircuitBreaker.init 1 1 0)
      CircuitBreaker.panickedCall).isSome = true ∧
    Always SessionManager.stepPanic SessionManager.Released (SessionManager.init (bytes "p"))
      SessionManager.panickedLogout ∧
    Always (@SessionService.stepPanic asciiTables) (@SessionService.Released asciiTables)
      (SessionService.init fun _ => none) SessionService.panickedLogout ∧
    Always CircuitBreaker.stepPanic CircuitBreaker.Recovers (CircuitBreaker.init 1 1 0)
      CircuitBreaker.panickedCall :=
  ⟨by decide +kernel, by decide +kernel, by decide +kernel,
    @bookkeeping_survives asciiTables (bytes "p") SessionManager.panickedLogout (by decide +kernel)
      (fun _ => none) SessionService.panickedLogout (by decide +kernel) 1 1 0
      CircuitBreaker.panickedCall (by decide +kernel)⟩

/-- **A panic in the wrong place strands callers for ever**: a waiter of the session manager and a
joiner of the session service are never released and no login begins any more, and the breaker refuses
every call. -/
theorem panics_strand_callers :
    (∃ s, exec SessionManager.stepPanic (SessionManager.init (bytes "p"))
        SessionManager.panickedLogin = some s ∧
      ¬SessionManager.Released s ∧ ∀ run, Always SessionManager.stepPanic
        (fun s => s.point 1 = .work (.parked 0 (.login 0)) ∧
          ∀ t, SessionManager.inFlight (s.point t) = false) s run) ∧
    (∃ s, exec (@SessionService.stepPanic asciiTables) (SessionService.init fun _ => none)
        SessionService.panickedLogin = some s ∧
      ¬@SessionService.Released asciiTables s ∧
      ∀ run, (∀ a ∈ run, SessionService.Patient 1 a) → Always (@SessionService.stepPanic asciiTables)
        (fun s => s.point 1 = .work (.join (bytes "a") 0) ∧
          ∀ t, ¬SessionService.inFlight (bytes "a") (s.point t)) s run) ∧
    ∃ s, exec CircuitBreaker.stepPanic (CircuitBreaker.init 1 1 0)
        CircuitBreaker.panickedProbe = some s ∧
      ¬CircuitBreaker.Recovers s ∧
      ∀ run, Always CircuitBreaker.stepPanic (fun s => ∀ now, (s.breaker.allow now).2 = false) s run :=
  ⟨SessionManager.panic_strands_waiter, SessionService.panic_strands_joiner,
    CircuitBreaker.panic_shuts_breaker⟩

end HstongApi
