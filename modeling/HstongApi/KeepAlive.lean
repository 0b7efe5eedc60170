import HstongApi.Transition
import Mathlib.Logic.Function.Basic

/-!
# The keep-alive loop of the session manager

`StartKeepAlive` registers a loop and starts its goroutine, unless one is registered. `StopKeepAlive`
takes the registration away, then cancels the context of the loop, and waits for the channel `done`.
A loop that ends because its context is cancelled closes `done` and then takes its registration away.

The fields `kaCancel` and `kaDone` are read and written under the mutex `kaMu` only, and nothing is
waited for under it, so what a function does under the mutex is one step. What a poll does is outside:
it begins when the ticker fires, and it returns.

The registration is the weak point. It goes before the context is cancelled in `StopKeepAlive`, so that
a start in between has a second loop run beside the first. And it stays for a while after the context
has been cancelled, even after `done` is closed, so that a start in between does nothing and no loop is
left (`keepAlive_lifecycle`).
-/

namespace HstongApi.KeepAlive

/-! ## State -/

/-- Where the goroutine of a loop stands. -/
inductive Stage
  /-- before or in the `select` -/
  | select
  /-- `keepAliveOnce` -/
  | polling
  /-- the loop is left, before `close(done)` -/
  | closing
  /-- `done` is closed, before the registration is looked at -/
  | clearing
  | gone
  deriving DecidableEq

/-- A loop: the context that it was started with, whether its own context was cancelled by
`kaCancel`, and its goroutine. -/
structure Loop where
  ctx : ℕ := 0
  ended : Bool := false
  stage : Stage := .select

namespace Loop

/-- Its context is cancelled, by `StopKeepAlive` or with the context of the caller. -/
def Cancelled (l : Loop) (contexts : List ℕ) : Prop := l.ended = true ∨ l.ctx ∈ contexts

instance (l : Loop) (contexts : List ℕ) : Decidable (l.Cancelled contexts) :=
  inferInstanceAs (Decidable (_ ∨ _))

/-- The goroutine is in the loop. -/
def Runs (l : Loop) : Prop := l.stage = .select ∨ l.stage = .polling

/-- The channel `done` is closed. -/
def Closed (l : Loop) : Prop := l.stage = .clearing ∨ l.stage = .gone

instance (l : Loop) : Decidable l.Closed := inferInstanceAs (Decidable (_ ∨ _))

end Loop

/-- Where a call of `StopKeepAlive` stands. -/
inductive Stopping
  /-- after the section, with what was registered, before `cancel` -/
  | cancelling (cancel done : ℕ)
  /-- `<-done` -/
  | waiting (done : ℕ)
  deriving DecidableEq

/-- `SessionManager`, as far as the loops are concerned, and all loops that were started. The last
two fields record what has happened. -/
structure State where
  kaCancel : Option ℕ := none
  kaDone : Option ℕ := none
  count : ℕ := 0
  loop : ℕ → Loop := fun _ => {}
  /-- the calls of `StopKeepAlive` that have not returned -/
  stops : List Stopping := []
  /-- the contexts of the callers that are cancelled -/
  cancelled : List ℕ := []
  /-- the context of the last start and the loop that was registered then, if no stop came after it -/
  last : Option (ℕ × ℕ) := none
  /-- the loops that a call of `StopKeepAlive` has returned for -/
  stopped : List ℕ := []

namespace State

/-- A loop is changed. -/
def setLoop (s : State) (n : ℕ) (l : Loop) : State := { s with loop := Function.update s.loop n l }

/-- The goroutine of a loop goes on. -/
def setStage (s : State) (n : ℕ) (stage : Stage) : State := s.setLoop n { s.loop n with stage }

end State

/-! ## Steps -/

/-- What the `select` of a loop takes. -/
inductive Signal
  | tick
  | context
  deriving DecidableEq

/-- What happens. -/
inductive Event
  | startKeepAlive (ctx : ℕ)
  | stopKeepAlive
  /-- a call of `StopKeepAlive` goes on -/
  | proceed (c : Stopping)
  /-- a context of a caller is cancelled -/
  | cancel (ctx : ℕ)
  /-- the goroutine of a loop goes on -/
  | loop (n : ℕ) (signal : Signal)
  deriving DecidableEq

/-- A new loop is registered and started. -/
def State.register (s : State) (ctx : ℕ) : State :=
  { s.setLoop s.count { ctx } with
    kaCancel := some s.count
    kaDone := some s.count
    count := s.count + 1
    last := some (ctx, s.count) }

/-- `StartKeepAlive` -/
def startKeepAlive (s : State) (ctx : ℕ) : State :=
  match s.kaCancel with
  | some n => { s with last := some (ctx, n) }
  | none => s.register ctx

/-- `StopKeepAlive` under the mutex. -/
def stopKeepAlive (s : State) : State :=
  { s with
    kaCancel := none
    kaDone := none
    last := none
    stops := match s.kaCancel, s.kaDone with
      | some cancel, some done => .cancelling cancel done :: s.stops
      | _, _ => s.stops }

/-- `StopKeepAlive` after the section. -/
def proceed (s : State) : Stopping → Option State
  | .cancelling cancel done =>
    if .cancelling cancel done ∈ s.stops then
      some { s.setLoop cancel { s.loop cancel with ended := true } with
        stops := .waiting done :: s.stops.erase (.cancelling cancel done) }
    else none
  | .waiting done =>
    if .waiting done ∈ s.stops ∧ (s.loop done).Closed then
      some { s with stops := s.stops.erase (.waiting done), stopped := done :: s.stopped }
    else none

/-- `keepAliveLoop` -/
def keepAliveLoop (s : State) (n : ℕ) (signal : Signal) : Option State :=
  match (s.loop n).stage, signal with
  | .select, .tick => some (s.setStage n .polling)
  | .select, .context =>
    if (s.loop n).Cancelled s.cancelled then some (s.setStage n .closing) else none
  | .polling, _ => some (s.setStage n .select)
  | .closing, _ => some (s.setStage n .clearing)
  | .clearing, _ =>
    let cleared := if s.kaDone = some n then { s with kaCancel := none, kaDone := none } else s
    some (cleared.setStage n .gone)
  | .gone, _ => none

/-- **One step.** -/
def step (s : State) : Event → Option State
  | .startKeepAlive ctx => some (startKeepAlive s ctx)
  | .stopKeepAlive => some (stopKeepAlive s)
  | .proceed c => proceed s c
  | .cancel ctx => some { s with cancelled := ctx :: s.cancelled }
  | .loop n signal => if n < s.count then keepAliveLoop s n signal else none

/-! ## The invariant -/

/-- **What holds in every state.** -/
structure Inv (s : State) : Prop where
  same : s.kaCancel = s.kaDone
  /-- what is registered is the loop of the last start -/
  registered : ∀ {n}, s.kaDone = some n → ∃ ctx, s.last = some (ctx, n)
  /-- the loop of the last start was not stopped -/
  started : ∀ {ctx n}, s.last = some (ctx, n) → n < s.count ∧ (s.loop n).ended = false
  /-- a loop is left when its context is cancelled -/
  left : ∀ n, (s.loop n).Cancelled s.cancelled ∨ (s.loop n).Runs
  cancelling : ∀ {c d}, .cancelling c d ∈ s.stops →
    c = d ∧ c < s.count ∧ ∀ ctx, s.last ≠ some (ctx, c)
  waiting : ∀ {d}, .waiting d ∈ s.stops → d < s.count ∧ (s.loop d).ended = true
  /-- a loop that was not stopped is registered, or it has ended by itself, or it will be stopped -/
  owed : ∀ {n}, n < s.count → (s.loop n).ended = false →
    s.kaDone = some n ∨ (s.loop n).Closed ∨ .cancelling n n ∈ s.stops
  stopped : ∀ {n}, n ∈ s.stopped → n < s.count ∧ (s.loop n).ended = true ∧ (s.loop n).Closed

theorem inv_init : Inv {} where
  same := rfl
  registered := nofun
  started := nofun
  left _ := .inr (.inl rfl)
  cancelling := nofun
  waiting := nofun
  owed := nofun
  stopped := nofun

attribute [local grind =] Function.update_apply Loop.Cancelled Loop.Runs Loop.Closed

variable {s s' : State} {ctx n m : ℕ} {l : Loop} {signal : Signal} {ev : Event}

theorem State.setLoop_self : (s.setLoop n l).loop n = l := Function.update_self ..

theorem State.setLoop_cases {p : Loop → Prop} (hself : m = n → p l) (hother : p (s.loop m)) :
    p ((s.setLoop n l).loop m) := by
  by_cases hm : m = n
  · rw [hm, setLoop_self]
    exact hself hm
  · have heq : (s.setLoop n l).loop m = s.loop m := Function.update_of_ne hm ..
    rwa [heq]

/-- **A loop may change** if it stays cancelled and closed, and is not cancelled while it is that of
the last start. -/
theorem Inv.setLoop (h : Inv s) (hended : (s.loop n).ended = true → l.ended = true)
    (hclosed : (s.loop n).Closed → l.Closed)
    (hlast : ∀ {ctx}, s.last = some (ctx, n) → l.ended = false)
    (hleft : l.Cancelled s.cancelled ∨ l.Runs) : Inv (s.setLoop n l) := by
  obtain ⟨hsame, hregistered, hstarted, hleft', hcancelling, hwaiting, howed, hstopped⟩ := h
  constructor <;> simp only [State.setLoop] <;> grind

theorem State.register_loop (hm : m < s.count) : (s.register ctx).loop m = s.loop m :=
  Function.update_of_ne (Nat.ne_of_lt hm) ..

theorem Inv.register (h : Inv s) (hcancel : s.kaCancel = none) (ctx : ℕ) : Inv (s.register ctx) := by
  obtain ⟨hsame, hregistered, hstarted, hleft, hcancelling, hwaiting, howed, hstopped⟩ := h
  constructor
  case same => rfl
  case registered =>
    rintro n ⟨⟩
    exact ⟨ctx, rfl⟩
  -- the new loop is the one after all that were there
  all_goals
    simp only [State.register, State.setLoop]
    grind

theorem Inv.startKeepAlive (h : Inv s) (ctx : ℕ) : Inv (startKeepAlive s ctx) := by
  unfold KeepAlive.startKeepAlive
  split
  · -- the loop that is registered is that of the start before, so it is that of this one
    obtain ⟨hsame, hregistered, hstarted, hleft, hcancelling, hwaiting, howed, hstopped⟩ := h
    constructor <;> grind
  · exact h.register ‹_› ctx

theorem Inv.stopKeepAlive (h : Inv s) : Inv (stopKeepAlive s) := by
  obtain ⟨hsame, hregistered, hstarted, hleft, hcancelling, hwaiting, howed, hstopped⟩ := h
  constructor <;> simp only [KeepAlive.stopKeepAlive] <;> grind

theorem Inv.proceed {c : Stopping} (h : Inv s) (hstep : proceed s c = some s') : Inv s' := by
  obtain ⟨hsame, hregistered, hstarted, hleft, hcancelling, hwaiting, howed, hstopped⟩ := h
  cases c with
  | cancelling c d =>
    obtain ⟨hmem, hs'⟩ := Option.ite_none_right_eq_some.mp hstep
    cases hs'
    -- the loop that is cancelled now is not that of the last start, and not owed any more
    obtain ⟨rfl, hc, hlast⟩ := hcancelling hmem
    constructor <;> simp only [State.setLoop] <;> grind
  | waiting d =>
    obtain ⟨⟨hmem, hclosed⟩, hs'⟩ := Option.ite_none_right_eq_some.mp hstep
    cases hs'
    constructor <;> grind

/-- The registration goes. -/
def State.clear (s : State) : State := { s with kaCancel := none, kaDone := none }

/-- A loop whose channel is closed may be taken out of the registration. -/
theorem Inv.clear (h : Inv s) (hclosed : (s.loop n).Closed) (hdone : s.kaDone = some n) :
    Inv s.clear := by
  refine { h with same := rfl, registered := nofun, owed := fun hm hended => .inr ?_ }
  rcases h.owed hm hended with hreg | hrest
  · cases hdone.symm.trans hreg
    exact .inl hclosed
  · exact hrest

/-- **What the goroutine of a loop does**: it goes to another stage, and takes its registration away
after `done` was closed. It leaves the loop only if its context is cancelled. -/
theorem keepAliveLoop_cases (hstep : keepAliveLoop s n signal = some s') :
    ∃ t stage, s' = State.setStage t n stage ∧
      (t = s ∨ (s.loop n).Closed ∧ s.kaDone = some n ∧ t = s.clear) ∧
      ((s.loop n).Closed → Loop.Closed { stage }) ∧
      ((s.loop n).Runs → (s.loop n).Cancelled s.cancelled ∨ Loop.Runs { stage }) := by
  unfold keepAliveLoop at hstep
  split at hstep
  case h_1 hstage | h_3 hstage | h_4 hstage =>
    cases hstep
    exact ⟨s, _, rfl, .inl rfl, by simp [Loop.Closed, hstage], by simp [Loop.Runs, hstage]⟩
  case h_2 hstage =>
    obtain ⟨hcancelled, hs'⟩ := Option.ite_none_right_eq_some.mp hstep
    cases hs'
    exact ⟨s, _, rfl, .inl rfl, by simp [Loop.Closed, hstage], fun _ => .inl hcancelled⟩
  case h_5 hstage =>
    cases hstep
    refine ⟨_, _, rfl, ?_, fun _ => .inr rfl, by simp [Loop.Runs, hstage]⟩
    split
    · exact .inr ⟨.inl hstage, ‹_›, rfl⟩
    · exact .inl rfl
  case h_6 => cases hstep

theorem Inv.keepAliveLoop (h : Inv s) (hstep : keepAliveLoop s n signal = some s') : Inv s' := by
  obtain ⟨t, stage, rfl, ht, hclosed, hruns⟩ := keepAliveLoop_cases hstep
  have hleft : (s.loop n).Cancelled s.cancelled ∨ Loop.Runs { stage } := (h.left n).elim .inl hruns
  rcases ht with rfl | ⟨hc, hdone, rfl⟩
  · exact h.setLoop id hclosed (fun hm => (h.started hm).2) hleft
  · exact (h.clear hc hdone).setLoop id hclosed (fun hm => (h.started hm).2) hleft

/-- **One step keeps the invariant.** -/
theorem Inv.step (h : Inv s) (hstep : step s ev = some s') : Inv s' := by
  cases ev with
  | startKeepAlive ctx => exact Option.some.inj hstep ▸ h.startKeepAlive ctx
  | stopKeepAlive => exact Option.some.inj hstep ▸ h.stopKeepAlive
  | proceed c => exact h.proceed hstep
  | cancel ctx =>
    cases hstep
    exact { h with left := fun n => (h.left n).imp_left (Or.imp_right (List.mem_cons_of_mem ctx)) }
  | loop n signal => exact h.keepAliveLoop (Option.ite_none_right_eq_some.mp hstep).2

/-! ## Loops with a context that is not cancelled -/

/-- A loop whose context is not cancelled. -/
def State.Live (s : State) (n : ℕ) : Prop :=
  n < s.count ∧ (s.loop n).stage ≠ .gone ∧ ¬(s.loop n).Cancelled s.cancelled

/-- There is at most one. -/
def AtMostOne (s : State) : Prop := ∀ n m, s.Live n → s.Live m → n = m

/-- **A start comes apart from the stops**: when it starts a loop, every stop that has taken a loop out
of the registration has cancelled it. -/
def StartsApart (s : State) : Event → Prop
  | .startKeepAlive ctx => s.kaCancel = none → ctx ∉ s.cancelled →
      ∀ c d, .cancelling c d ∈ s.stops → ¬s.Live c
  | _ => True

theorem Inv.live (h : Inv s) (hn : n < s.count) (hc : ¬(s.loop n).Cancelled s.cancelled) :
    s.Live n := by
  refine ⟨hn, fun hgone => ?_, hc⟩
  rcases (h.left n).resolve_left hc with hstage | hstage <;> cases hgone.symm.trans hstage

/-- Such a loop is registered, or a stop is about to cancel it. -/
theorem Inv.live_cases (h : Inv s) (hn : s.Live n) :
    s.kaDone = some n ∨ .cancelling n n ∈ s.stops := by
  obtain ⟨hlt, -, hc⟩ := hn
  refine (h.owed hlt (eq_false_of_ne_true fun hended => hc (.inl hended))).imp_right fun hrest => ?_
  refine hrest.resolve_left fun hclosed => ?_
  rcases (h.left n).resolve_left hc with hstage | hstage <;>
    rcases hclosed with hclosed | hclosed <;> cases hstage.symm.trans hclosed

theorem State.live_register : (s.register ctx).Live n ↔
    n = s.count ∧ ctx ∉ s.cancelled ∨ s.Live n := by
  rcases Nat.lt_trichotomy n s.count with hn | rfl | hn
  · rw [Live, register_loop hn]
    simp [Live, register, setLoop, hn, Nat.ne_of_lt hn, Nat.lt_succ_of_lt hn]
  · simp [Live, register, setLoop, Loop.Cancelled]
  · simp [Live, register, Nat.ne_of_gt hn, Nat.not_lt_of_gt hn, Nat.not_lt.mpr hn]

/-- A loop is made by a start only, and what is cancelled stays so. -/
theorem step_frame (hstep : step s ev = some s') :
    (s'.count = s.count ∧
        ∀ n, (s.loop n).Cancelled s.cancelled → (s'.loop n).Cancelled s'.cancelled) ∨
      ∃ ctx, ev = .startKeepAlive ctx ∧ s.kaCancel = none ∧ s' = s.register ctx := by
  have hset : ∀ {k l}, ((s.loop k).Cancelled s.cancelled → l.Cancelled s.cancelled) →
      ∀ n, (s.loop n).Cancelled s.cancelled → ((s.setLoop k l).loop n).Cancelled s.cancelled :=
    fun hk n hn => State.setLoop_cases (p := (·.Cancelled s.cancelled)) (fun heq => hk (heq ▸ hn)) hn
  cases ev with
  | startKeepAlive ctx =>
    cases hstep
    unfold startKeepAlive
    split
    · exact .inl ⟨rfl, fun _ => id⟩
    · exact .inr ⟨ctx, rfl, ‹_›, rfl⟩
  | stopKeepAlive =>
    cases hstep
    exact .inl ⟨rfl, fun _ => id⟩
  | proceed c =>
    cases c with
    | cancelling c d =>
      obtain ⟨-, hs'⟩ := Option.ite_none_right_eq_some.mp hstep
      cases hs'
      exact .inl ⟨rfl, hset fun _ => .inl rfl⟩
    | waiting d =>
      obtain ⟨-, hs'⟩ := Option.ite_none_right_eq_some.mp hstep
      cases hs'
      exact .inl ⟨rfl, fun _ => id⟩
  | cancel ctx =>
    cases hstep
    exact .inl ⟨rfl, fun _ => Or.imp_right (List.mem_cons_of_mem ctx)⟩
  | loop k signal =>
    obtain ⟨-, hstep⟩ := Option.ite_none_right_eq_some.mp hstep
    obtain ⟨t, stage, rfl, rfl | ⟨-, -, rfl⟩, -⟩ := keepAliveLoop_cases hstep <;>
      exact .inl ⟨rfl, hset id⟩

/-- **When there is at most one loop** with a context that is not cancelled, all the time. -/
theorem atMostOne_iff (run : List Event) :
    Always step AtMostOne {} run ↔ EachStep step StartsApart {} run := by
  refine always_iff_eachStep (fun s (h : Inv s ∧ AtMostOne s) => h.2) ?_ ?_
    ⟨inv_init, fun n m hn => absurd hn.1 (Nat.not_lt_zero n)⟩ run
  · rintro s ev s' ⟨h, hone⟩ hcond hstep
    refine ⟨h.step hstep, fun n m hn hm => ?_⟩
    rcases step_frame hstep with ⟨hcount, hkeep⟩ | ⟨ctx, rfl, hnone, rfl⟩
    · have hold : ∀ {k}, s'.Live k → s.Live k := fun {k} hk =>
        h.live (hcount ▸ hk.1) (mt (hkeep k) hk.2.2)
      exact hone n m (hold hn) (hold hm)
    · -- a loop that was there would have to be one that a stop is about to cancel
      have hnew : ctx ∉ s.cancelled → ∀ {k}, ¬s.Live k := by
        intro hctx k hk
        rcases h.live_cases hk with hreg | hmem
        · cases hnone.symm.trans (h.same.trans hreg)
        · exact hcond hnone hctx k k hmem hk
      rcases State.live_register.mp hn with ⟨rfl, hctx⟩ | hn <;>
        rcases State.live_register.mp hm with ⟨rfl, hctx'⟩ | hm
      · rfl
      · exact absurd hm (hnew hctx)
      · exact absurd hn (hnew hctx')
      · exact hone n m hn hm
  · rintro s ev s' ⟨h, -⟩ hstep hgood
    cases ev with
    | startKeepAlive ctx =>
      intro hnone hctx c d hmem hlive
      obtain rfl : s.register ctx = s' := by
        rw [← Option.some.inj hstep, startKeepAlive, hnone]
      have heq : c = s.count :=
        hgood c s.count (State.live_register.mpr (.inr hlive))
          (State.live_register.mpr (.inl ⟨rfl, hctx⟩))
      exact Nat.ne_of_lt hlive.1 heq
    | _ => trivial

/-! ## Rest -/

/-- No call of `StopKeepAlive` and no goroutine of a loop can go on, unless a ticker fires. -/
def AtRest (s : State) : Prop :=
  (∀ c, step s (.proceed c) = none) ∧ ∀ n, step s (.loop n .context) = none

/-- A loop is running. -/
def Running (s : State) : Prop := ∃ n < s.count, (s.loop n).Runs

/-- The last start was not followed by a stop, and its context is not cancelled. -/
def Wanted (s : State) : Prop := ∃ ctx n, s.last = some (ctx, n) ∧ ctx ∉ s.cancelled

theorem AtRest.stage (hrest : AtRest s) (hn : n < s.count) :
    (s.loop n).stage = .select ∧ ¬(s.loop n).Cancelled s.cancelled ∨ (s.loop n).stage = .gone := by
  have hnone := hrest.2 n
  rw [step, if_pos hn] at hnone
  cases hstage : (s.loop n).stage with
  | select => exact .inl ⟨rfl, fun hc => by simp [keepAliveLoop, hstage, hc] at hnone⟩
  | gone => exact .inr rfl
  | _ => simp [keepAliveLoop, hstage] at hnone

/-- No stop is stuck. -/
theorem AtRest.stops (hrest : AtRest s) (h : Inv s) {c : Stopping} : c ∉ s.stops := by
  intro hmem
  have hnone := hrest.1 c
  cases c with
  | cancelling c d => simp [step, proceed, hmem] at hnone
  | waiting d =>
    obtain ⟨hd, hended⟩ := h.waiting hmem
    have hgone := (hrest.stage hd).resolve_left fun hc => hc.2 (.inl hended)
    simp [step, proceed, hmem, Loop.Closed, hgone] at hnone

/-- **When a loop is running at rest**: the context of the loop that was registered at the last start
is not cancelled, and no stop came after the start. -/
theorem running_iff (h : Inv s) (hrest : AtRest s) :
    Running s ↔ ∃ ctx n, s.last = some (ctx, n) ∧ (s.loop n).ctx ∉ s.cancelled := by
  constructor
  · rintro ⟨n, hn, hruns⟩
    rcases hrest.stage hn with ⟨-, hc⟩ | hgone
    · have hreg := (h.live_cases (h.live hn hc)).resolve_right (hrest.stops h)
      obtain ⟨ctx, hlast⟩ := h.registered hreg
      exact ⟨ctx, n, hlast, fun hctx => hc (.inr hctx)⟩
    · rcases hruns with hstage | hstage <;> cases hgone.symm.trans hstage
  · rintro ⟨ctx, n, hlast, hctx⟩
    obtain ⟨hn, hended⟩ := h.started hlast
    refine ⟨n, hn, (h.left n).resolve_left fun hc => ?_⟩
    rcases hc with hc | hc
    · cases hended.symm.trans hc
    · exact hctx hc

/-- **The life of the keep-alive loop**, in every run. -/
theorem keepAlive_lifecycle {run : List Event} (hrun : exec step {} run = some s) :
    (Always step AtMostOne {} run ↔ EachStep step StartsApart {} run) ∧
      (∀ n ∈ s.stopped, (s.loop n).ended = true ∧ (s.loop n).Closed) ∧
      (AtRest s → ((Running s ↔ Wanted s) ↔ ∀ ctx n, s.last = some (ctx, n) →
        (ctx ∈ s.cancelled ↔ (s.loop n).ctx ∈ s.cancelled))) := by
  have h : Inv s := (always_of_step (fun _ _ _ h => h.step) inv_init run).last hrun
  refine ⟨atMostOne_iff run, fun n hn => (h.stopped hn).2, fun hrest => ?_⟩
  rw [running_iff h hrest, Wanted]
  cases hlast : s.last with
  | none => simp
  | some p =>
    obtain ⟨ctx, n⟩ := p
    simp only [Option.some.injEq, Prod.mk.injEq, and_assoc, exists_and_left, exists_eq_left', and_imp,
      not_iff_not]
    refine ⟨?_, fun hiff => (hiff ctx n rfl rfl).symm⟩
    rintro hiff _ _ rfl rfl
    exact hiff.symm

/-- A loop that is started and stopped. -/
def startAndStop : List Event :=
  [.startKeepAlive 0, .stopKeepAlive, .proceed (.cancelling 0 0), .loop 0 .context, .loop 0 .context,
    .proceed (.waiting 0)]

theorem keepAlive_lifecycle_stopped :
    ∃ s, exec step {} startAndStop = some s ∧ s.stopped = [0] ∧ (s.loop 0).Closed := by
  have hrun : exec step {} startAndStop = some _ := rfl
  obtain ⟨-, hstopped, -⟩ := keepAlive_lifecycle hrun
  exact ⟨_, hrun, rfl, (hstopped 0 List.mem_cons_self).2⟩

/-- **A start that is lost, and two loops.** The context of the loop is cancelled and the loop closes
`done`; then there is a start with another context, which finds the registration and does nothing;
then the registration goes. At rest no loop is running, and no stop was called. And a start after the
section of a stop and before its `cancel` has a second loop run. -/
theorem start_lost :
    (∃ s, exec step {} [.startKeepAlive 0, .cancel 0, .loop 0 .context, .loop 0 .context,
        .startKeepAlive 1, .loop 0 .context] = some s ∧ AtRest s ∧ Wanted s ∧ ¬Running s) ∧
      ∃ s, exec step {} [.startKeepAlive 0, .stopKeepAlive, .startKeepAlive 1] = some s ∧
        s.Live 0 ∧ s.Live 1 := by
  refine ⟨⟨_, rfl, ⟨?_, ?_⟩, ⟨1, 0, rfl, by decide⟩, ?_⟩, ⟨_, rfl, ?_, ?_⟩⟩
  · intro c
    cases c <;> rfl
  · rintro (_ | n)
    · rfl
    · rfl
  · rintro ⟨n, hn, hruns⟩
    obtain rfl : n = 0 := Nat.lt_one_iff.mp hn
    rcases hruns with hc | hc <;> cases hc
  · exact ⟨by decide, by decide, by decide⟩
  · exact ⟨by decide, by decide, by decide⟩

end HstongApi.KeepAlive
