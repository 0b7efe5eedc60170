import HstongApi.PushSystem

/-!
# What the threads of the orchestration do to channels

A `View` is the part of the shared state of `PushSystem` that matters for channels. An action does
to it one of the things in `Effect`, most often nothing. `does_spec` says this of every action,
together with the locks that are held afterwards, so that what follows is about effects alone.

An action also brings its call nearer to the end. There are three kinds of loops: `resubscribeAll`
goes through a snapshot, which is as long as the registry was, and within it `killEntry` shuts down
as many subscriptions as the entry has. Therefore the distance `Act.size` has three parts: a
snapshot that is still to be taken, the lists of subscriptions that are still to be collected, and
the actions before the next of these.
-/

namespace HstongApi.PushSystem

open Locks
open PushThreads (Rest)

/-! ## Views -/

/-- The inbox of a subscription. -/
def Shared.inbox (s : Shared) : Port → Inbox
  | .market sub => (s.markets sub).toInbox
  | .order ord => (s.orders ord).toInbox

/-- `ErrTradeBacklog` was raised for the subscription. -/
def Shared.raised (s : Shared) : Port → Bool
  | .market _ => false
  | .order ord => (s.orders ord).backlogRaised

/-- The error stream and its account. -/
structure ErrorLog where
  chan : Lossy StreamError
  dropped : ℕ
  refused : ℕ
  taken : List StreamError

/-- What matters for channels. -/
structure View where
  buffer : ℕ
  closed : Bool
  closeDone : Bool
  closeCh : ℕ
  inbox : Port → Inbox
  raised : Port → Bool
  errors : ErrorLog
  reports : ℕ

/-- What is to be seen of the shared state. -/
@[simps] def Shared.view (s : Shared) : View where
  buffer := s.orch.buffer
  closed := s.orch.closed
  closeDone := s.closeDone
  closeCh := s.closeCh
  inbox := s.inbox
  raised := s.raised
  errors := ⟨s.errc, s.orch.errsDrop, s.refused, s.taken⟩
  reports := s.reports

namespace View

/-- The inbox of a subscription is replaced. -/
@[simps] def setInbox (v : View) (p : Port) (b : Inbox) : View :=
  { v with inbox := Function.update v.inbox p b }

/-- The error stream and its account are replaced. -/
@[simps] def setErrors (v : View) (e : ErrorLog) : View := { v with errors := e }

theorem inbox_self (v : View) (p : Port) (b : Inbox) : (v.setInbox p b).inbox p = b :=
  Function.update_self ..

theorem inbox_of_ne (v : View) {p q : Port} (h : q ≠ p) (b : Inbox) :
    (v.setInbox p b).inbox q = v.inbox q :=
  Function.update_of_ne h ..

/-- What holds between an inbox and the one that replaces it holds between the inboxes before and
afterwards, if it holds between an inbox and itself. -/
theorem rel_setInbox {P : Inbox → Inbox → Prop} (hrefl : ∀ b, P b b) {v : View} {p q : Port}
    {b : Inbox} (h : P (v.inbox q) b) : P (v.inbox p) ((v.setInbox q b).inbox p) := by
  by_cases hpq : p = q
  · rw [hpq, inbox_self]
    exact h
  · rw [inbox_of_ne v hpq]
    exact hrefl _

end View

/-- A delivery is under way. -/
def Guard.isOffering : Guard → Bool
  | .offering _ _ _ => true
  | _ => false

/-- **What an action can do to channels**, from one guard to the next. -/
inductive Effect (held : List Mutex) (v : View) : Guard → View → Guard → Prop
  /-- nothing; a delivery has always something to do -/
  | quiet {g : Guard} : g.isOffering = false → Effect held v g v g
  /-- the first attempt of a delivery -/
  | send {p : Port} {u : PushUpdate} {now : Time} : .port p ∈ held → (v.inbox p).closed = false →
      (v.inbox p).chan.queue.length < v.buffer →
      Effect held v .free (v.setInbox p { v.inbox p with
        lastSeen := now, chan := (v.inbox p).chan.send v.buffer u }) .free
  | sendFull {p : Port} {u : PushUpdate} {now : Time} : .port p ∈ held →
      (v.inbox p).closed = false → ¬ (v.inbox p).chan.queue.length < v.buffer →
      Effect held v .free (v.setInbox p { v.inbox p with
        lastSeen := now, chan := (v.inbox p).chan.send v.buffer u }) (.offering p u false)
  | discard {p : Port} {u : PushUpdate} :
      Effect held v (.offering p u false)
        (v.setInbox p { v.inbox p with chan := (v.inbox p).chan.discard }) (.offering p u true)
  /-- the second attempt; an order subscription notes that it has raised `ErrTradeBacklog` -/
  | resend {p : Port} {u : PushUpdate} {raised : Port → Bool} :
      (∀ q, raised q = true → q = p ∨ v.raised q = true) →
      Effect held v (.offering p u true) { v.setInbox p { v.inbox p with
        chan := (v.inbox p).chan.resend v.buffer u, dropped := (v.inbox p).dropped + 1 } with
        raised := raised } .free
  | shutdown {p : Port} {g : Guard} : .port p ∈ held → (v.inbox p).closed = false →
      g.isOffering = false →
      Effect held v g (v.setInbox p { v.inbox p with
        closed := true, chan := (v.inbox p).chan.close }) g
  | receive {p : Port} :
      Effect held v .free (v.setInbox p { v.inbox p with chan := (v.inbox p).chan.receive }) .free
  | report : Effect held v .free { v with reports := v.reports + 1 } .asking
  | refuse {err : StreamError} : .errcMu ∈ held → v.closed = true →
      Effect held v .asking (v.setErrors { v.errors with
        refused := v.errors.refused + 1, taken := v.errors.taken ++ [err] }) .free
  | check {err : StreamError} : .errcMu ∈ held → v.closed = false →
      Effect held v .asking (v.setErrors { v.errors with taken := v.errors.taken ++ [err] })
        (.reporting err .send)
  /-- the attempts of a report -/
  | errSend {err : StreamError} : v.errors.chan.queue.length < defaultPushBuffer →
      Effect held v (.reporting err .send)
        (v.setErrors { v.errors with chan := v.errors.chan.send defaultPushBuffer err }) .free
  | errSendFull {err : StreamError} : ¬ v.errors.chan.queue.length < defaultPushBuffer →
      Effect held v (.reporting err .send)
        (v.setErrors { v.errors with chan := v.errors.chan.send defaultPushBuffer err })
        (.reporting err .discard)
  | errDiscard {err : StreamError} : ¬ (v.errors.chan.queue = [] ∧ v.errors.chan.isClosed = false) →
      Effect held v (.reporting err .discard)
        (v.setErrors { v.errors with chan := v.errors.chan.discard }) (.reporting err .count)
  | errDiscardVain {err : StreamError} : v.errors.chan.queue = [] →
      Effect held v (.reporting err .discard)
        (v.setErrors { v.errors with chan := v.errors.chan.discard }) (.reporting err .resend)
  | errCount {err : StreamError} :
      Effect held v (.reporting err .count)
        (v.setErrors { v.errors with dropped := v.errors.dropped + 1 }) (.reporting err .resend)
  | errResend {err : StreamError} :
      Effect held v (.reporting err .resend)
        (v.setErrors { v.errors with chan := v.errors.chan.resend defaultPushBuffer err }) .free
  | receiveError :
      Effect held v .free (v.setErrors { v.errors with chan := v.errors.chan.receive }) .free
  /-- the steps of `Close` -/
  | closeOnce : .closeOnce ∈ held → v.closeDone = false → Effect held v .free v (.closing .flag)
  | closeFlag : Effect held v (.closing .flag) { v with closed := true } (.closing .channel)
  | closeChannel :
      Effect held v (.closing .channel) { v with closeCh := v.closeCh + 1 } (.closing .errors)
  | closeErrors : .errcMu ∈ held →
      Effect held v (.closing .errors) (v.setErrors { v.errors with chan := v.errors.chan.close })
        (.closing .done)
  | closeDone : Effect held v (.closing .done) { v with closeDone := true } .free

/-! ## The actions by the functions they belong to -/

/-- The part of the orchestration that an action belongs to. A statement about all actions is
proved for one part after the other. -/
inductive Group
  /-- no call -/
  | resting
  /-- `Subscribe` and `SubscribeOrders` -/
  | subscribing
  /-- the `Cancel` of both kinds of subscription -/
  | cancelling
  /-- `onReconnect`, `resubscribeAll`, `killEntry` and `killOrders` -/
  | reconnecting
  /-- `Close` and `closeAll` -/
  | closing
  /-- the loops that shut down subscriptions -/
  | shutting
  /-- the handlers of the transport down to `deliver` -/
  | dispatching
  /-- `report` -/
  | reporting

def Act.group : Act → Group
  | .idle | .drain => .resting
  | .subscribe .. | .lookup _ | .request _ | .register .. => .subscribing
  | .subscribeOrders _ | .lookupOrders _ | .requestOrders _ | .registerOrders _ => .subscribing
  | .isClosed _ | .detach _ | .cancelRequest _ => .cancelling
  | .orderIsClosed _ | .detachOrder _ | .cancelOrderRequest _ => .cancelling
  | .reconnect _ | .snapshot | .resubscribe _ => .reconnecting
  | .killEntry .. | .killRequest .. | .killOrders => .reconnecting
  | .close | .closeOnce | .closeFlag | .closeChannel | .transportClose => .closing
  | .closeAll | .closeErrors | .closeDone => .closing
  | .shutdowns .. | .shutdown .. | .shutdownOrder .. => .shutting
  | .handle .. | .dispatchMarket .. | .dispatchTrade .. | .recordUnrouted _ => .dispatching
  | .deliver .. | .deliverTo .. | .wireStamp .. => .dispatching
  | .deliverOrder .. | .deliverOrderTo .. => .dispatching
  | .report .. | .reportCheck .. | .reportSend .. | .reportDiscard .. => .reporting
  | .reportCount .. | .reportResend .. => .reporting

/-! ## How far a call is from its end -/

/-- The requests of `resubscribeAll` that may be refused. -/
def restLoops (rest : Rest) : ℕ := rest.entries.length + 1

/-- The snapshot of `resubscribeAll` is still to be taken. -/
def After.phase : After → ℕ
  | .snapshot => 1
  | _ => 0

def Act.phase : Act → ℕ
  | .reconnect _ | .snapshot => 1
  | .report _ after | .reportCheck _ after | .reportSend _ after | .reportDiscard _ after
  | .reportCount _ after | .reportResend _ after => after.phase
  | _ => 0

/-- The lists of subscriptions that are still to be collected. -/
def After.loops : After → ℕ
  | .kill _ rest => restLoops rest + 1
  | .killOrders => 1
  | .resubscribe rest => restLoops rest
  | _ => 0

def Release.loops : Release → ℕ
  | .kill _ rest => restLoops rest
  | _ => 0

def Act.loops : Act → ℕ
  | .resubscribe rest => restLoops rest
  | .killEntry _ rest => restLoops rest + 1
  | .killRequest _ rest => restLoops rest
  | .killOrders => 1
  | .close | .closeOnce | .closeFlag | .closeChannel | .transportClose | .closeAll => 1
  | .handle _ _ | .dispatchMarket _ _ | .dispatchTrade _ _ => 1
  | .shutdowns _ _ after | .shutdown _ _ _ after | .shutdownOrder _ _ after => after.loops
  | .report _ after | .reportCheck _ after | .reportSend _ after | .reportDiscard _ after
  | .reportCount _ after | .reportResend _ after => after.loops
  | _ => 0

/-- The actions before the next list is collected, or the end; one delivery takes up to twelve. -/
def After.steps : After → ℕ
  | .drain => 1
  | .resubscribe _ => 7
  | .deliver _ _ targets => 12 * targets.length + 1
  | .deliverOrder _ _ targets => 12 * targets.length + 1
  | _ => 0

def Release.steps : Release → ℕ
  | .cancel _ | .cancelOrder _ _ => 8
  | .kill _ _ => 15
  | .killOrders => 1
  | .close => 3

def Attempt.steps : Attempt → ℕ
  | .send => 12
  | .discard _ => 11
  | .resend _ => 10

def Act.steps : Act → ℕ
  | .idle => 0
  | .drain => 1
  | .subscribe _ _ | .subscribeOrders _ => 4
  | .lookup _ | .lookupOrders _ => 3
  | .request _ | .requestOrders _ => 2
  | .register _ _ | .registerOrders _ => 1
  | .isClosed _ | .orderIsClosed _ => 12
  | .detach _ | .detachOrder _ => 11
  | .cancelRequest _ | .cancelOrderRequest _ => 7
  | .reconnect _ => 7
  | .snapshot => 0
  | .resubscribe _ => 7
  | .killEntry _ _ => 0
  | .killRequest _ _ => 14
  | .killOrders => 0
  | .close => 5
  | .closeOnce => 4
  | .closeFlag => 3
  | .closeChannel => 2
  | .transportClose => 1
  | .closeAll => 0
  | .closeErrors => 2
  | .closeDone => 1
  | .shutdowns subs orders after => 2 * subs.length + 2 * orders.length + after.steps
  | .shutdown _ subs orders after => 2 * subs.length + 2 * orders.length + 1 + after.steps
  | .shutdownOrder _ orders after => 2 * orders.length + 1 + after.steps
  | .handle _ _ => 1
  | .dispatchMarket _ _ | .dispatchTrade _ _ => 0
  | .recordUnrouted _ => 7
  | .deliver _ _ targets => 12 * targets.length + 1
  | .deliverTo _ _ _ targets attempt => 12 * targets.length + attempt.steps
  | .wireStamp _ _ _ targets => 12 * targets.length + 8
  | .deliverOrder _ _ targets => 12 * targets.length + 1
  | .deliverOrderTo _ _ _ targets attempt => 12 * targets.length + attempt.steps
  | .report _ after => 6 + after.steps
  | .reportCheck _ after => 5 + after.steps
  | .reportSend _ after => 4 + after.steps
  | .reportDiscard _ after => 3 + after.steps
  | .reportCount _ after => 2 + after.steps
  | .reportResend _ after => 1 + after.steps

/-- **How far a call is from its end.** -/
def Act.size (a : Act) : ℕ ×ₗ ℕ ×ₗ ℕ := toLex (a.phase, toLex (a.loops, a.steps))

/-- One action is nearer to the end of its call than another. -/
def Act.Nearer (b a : Act) : Prop := b.size < a.size

namespace Act.Nearer

variable {a b : Act}

theorem phase (h : b.phase < a.phase) : b.Nearer a := Prod.Lex.toLex_lt_toLex.mpr (.inl h)

/-- An action that collects a list. -/
theorem loops (hphase : b.phase = a.phase) (hloops : b.loops < a.loops) : b.Nearer a :=
  Prod.Lex.toLex_lt_toLex.mpr (.inr ⟨hphase, Prod.Lex.toLex_lt_toLex.mpr (.inl hloops)⟩)

theorem steps (hphase : b.phase = a.phase) (hloops : b.loops = a.loops)
    (hsteps : b.steps < a.steps) : b.Nearer a := by
  refine Prod.Lex.toLex_lt_toLex.mpr (.inr ⟨hphase, ?_⟩)
  exact Prod.Lex.toLex_lt_toLex.mpr (.inr ⟨hloops, hsteps⟩)

end Act.Nearer

/-! ## What the actions do -/

namespace Shared

variable {s : Shared}

/-- The registry is not part of the view. -/
theorem view_withOrch {o : PushOrchestration} (hbuffer : o.buffer = s.orch.buffer)
    (hclosed : o.closed = s.orch.closed) (herrs : o.errsDrop = s.orch.errsDrop) :
    (s.withOrch o).view = s.view := by
  simp only [view, withOrch, hbuffer, hclosed, herrs]
  rfl

theorem view_detach [UnicodeTables] (sub : SubId) :
    (s.withOrch (s.orch.detachLocked sub).1).view = s.view := by
  obtain ⟨heap, entries, byKey, -, h⟩ := s.orch.detachLocked_frame sub
  rw [h]
  exact view_withOrch rfl rfl rfl

theorem view_registerOrder (account : AccountId) :
    (s.withOrch (s.orch.registerOrder account)).view = s.view := by
  unfold PushOrchestration.registerOrder
  split <;> exact view_withOrch rfl rfl rfl

theorem inbox_setMarket (s : Shared) (sub : SubId) (b : MarketInbox) :
    (s.setMarket sub b).inbox = Function.update s.inbox (.market sub) b.toInbox := by
  funext p
  cases p with
  | market i => simp [inbox, setMarket, Function.update_apply, apply_ite MarketInbox.toInbox]
  | order i => rfl

theorem view_setMarket (s : Shared) (sub : SubId) (b : MarketInbox) :
    (s.setMarket sub b).view = s.view.setInbox (.market sub) b.toInbox := by
  simp only [view, View.setInbox, inbox_setMarket]
  rfl

theorem inbox_setOrder (s : Shared) (ord : OrderId) (b : OrderInbox) :
    (s.setOrder ord b).inbox = Function.update s.inbox (.order ord) b.toInbox := by
  funext p
  cases p with
  | market i => rfl
  | order i => simp [inbox, setOrder, Function.update_apply, apply_ite OrderInbox.toInbox]

theorem raised_setOrder (s : Shared) (ord : OrderId) (b : OrderInbox) :
    (s.setOrder ord b).raised = Function.update s.raised (.order ord) b.backlogRaised := by
  funext p
  cases p with
  | market i => rfl
  | order i => simp [raised, setOrder, Function.update_apply, apply_ite OrderInbox.backlogRaised]

theorem view_setOrder (s : Shared) (ord : OrderId) (b : OrderInbox) :
    (s.setOrder ord b).view = { s.view.setInbox (.order ord) b.toInbox with
      raised := Function.update s.raised (.order ord) b.backlogRaised } := by
  simp only [view, View.setInbox, inbox_setOrder, raised_setOrder]
  rfl

/-- Without a new backlog, only the inbox changes. -/
theorem view_setOrder_same (s : Shared) (ord : OrderId) {b : OrderInbox}
    (h : b.backlogRaised = (s.orders ord).backlogRaised) :
    (s.setOrder ord b).view = s.view.setInbox (.order ord) b.toInbox := by
  have hraised : Function.update s.raised (.order ord) b.backlogRaised = s.raised := by
    rw [h]
    exact Function.update_eq_self (Port.order ord) s.raised
  rw [view_setOrder, hraised]
  rfl

end Shared

/-- What is to be said of a step of a thread: it follows the plan, and its effect. -/
structure Spec (a : Act) (s s' : Shared) (k : Next) : Prop where
  fits : plan.Fits k
  held : plan.heldAt k = a.held
  effect : Effect a.held s.view a.guard s'.view k.next.guard

/-- An action also brings its call nearer to the end. -/
structure ActSpec (a : Act) (s s' : Shared) (k : Next) : Prop extends Spec a s s' k where
  nearer : k.next.Nearer a

section

variable {a : Act} {s s' : Shared} {k : Next}

/-- An action that does nothing to channels. -/
theorem Spec.quiet (hview : s'.view = s.view) (hfits : plan.Fits k) (hheld : plan.heldAt k = a.held)
    (hguard : k.next.guard = a.guard) (ha : a.guard.isOffering = false) : Spec a s s' k := by
  refine ⟨hfits, hheld, ?_⟩
  rw [hview, hguard]
  exact .quiet ha

/-- It goes on to another action under the same locks. -/
theorem Spec.goto {b : Act} (hview : s'.view = s.view) (hheld : b.held = a.held)
    (hb : b.guard = .free) (ha : a.guard = .free) : Spec a s s' (.act b) := by
  refine .quiet hview ?_ hheld (hb.trans ha.symm) (by rw [ha]; rfl)
  simp [hb, Guard.locks]

/-- It gives back its lock. -/
theorem Spec.leave {b : Act} {m : Mutex} (hview : s'.view = s.view) (hheld : m :: b.held = a.held)
    (hm : m ∉ b.held) (hb : b.guard = .free) (ha : a.guard = .free) :
    Spec a s s' (.unlock m (.act b)) := by
  refine .quiet hview ?_ hheld (hb.trans ha.symm) (by rw [ha]; rfl)
  simp [hb, hm, Guard.locks]

/-- It goes on to an action under one more lock. -/
theorem Spec.enter {b : Act} {m : Mutex} (hview : s'.view = s.view) (hm : m ≠ .wg)
    (hheld : b.held = m :: a.held) (hrank : ∀ m' ∈ a.held, m'.rank < m.rank)
    (hb : b.guard = .free) (ha : a.guard = .free) : Spec a s s' (.lock m (.act b)) := by
  refine .quiet hview ?_ ?_ (hb.trans ha.symm) (by rw [ha]; rfl)
  · simpa [hb, hheld, hm, Guard.locks] using hrank
  · simp [hheld]

end

variable {u : PushUpdate} {sub : SubId}

section

variable {a : Act} {r : Reply} {s s' : Shared} {k : Next}

theorem After.nearer (after : After) (hphase : a.phase = after.phase)
    (hloops : a.loops = after.loops) (hsteps : after.steps < a.steps) :
    after.code.next.Nearer a := by
  cases after <;> exact .steps hphase.symm hloops.symm hsteps

/-- The action of a report that is its last. -/
theorem After.leave (after : After) (hheld : a.held = .errcMu :: after.held)
    (heffect : Effect a.held s.view a.guard s'.view .free) :
    Spec a s s' (.unlock .errcMu after.code) := by
  obtain ⟨hfits, hat, hguard⟩ := after.code_fits
  have hnot : Mutex.errcMu ∉ after.held := by cases after <;> simp [After.held]
  refine ⟨⟨?_, hfits⟩, ?_, ?_⟩
  · rw [hat]
    exact hnot
  · rw [hheld, ← hat]
    rfl
  · simp only [Code.next, hguard]
    exact heffect

attribute [local simp] act Act.held Act.guard Guard.locks After.held Release.held Release.guard
  Attempt.guard Mutex.rank After.steps Release.steps Attempt.steps Act.steps

/-- A market delivery gives back the lock. -/
theorem delivered_spec {now : Time} {targets : List SubId} (late : Bool)
    (hheld : a.held = [.port (.market sub)]) (heffect : Effect a.held s.view a.guard s'.view .free)
    (hphase : a.phase = 0) (hloops : a.loops = 0) (hsteps : 12 * targets.length + 8 < a.steps) :
    ActSpec a s s' (.unlock (.port (.market sub)) (delivered u now sub targets late)) := by
  cases late with
  | false =>
    have hfew : 12 * targets.length + 1 < a.steps := by omega
    exact ⟨⟨by simp [delivered], hheld.symm, heffect⟩, .steps hphase.symm hloops.symm hfew⟩
  | true =>
    exact ⟨⟨by simp [delivered], hheld.symm, heffect⟩, .steps hphase.symm hloops.symm hsteps⟩

theorem Release.nearer (o : PushOrchestration) (after : Release) :
    (after.code o).next.Nearer (Act.shutdowns [] [] after) := by
  cases after with
  | cancel last =>
    cases last with
    | none => exact .steps rfl rfl (by simp [Release.code])
    | some e =>
      simp only [Release.code]
      split <;> exact .steps rfl rfl (by simp)
  | cancelOrder last account =>
    simp only [Release.code]
    split <;> exact .steps rfl rfl (by simp)
  | _ => exact .steps rfl rfl (by simp [Release.code])

variable [UnicodeTables]

/-- **A market delivery.** -/
theorem deliverTo_spec {now : Time} {targets : List SubId} {attempt : Attempt}
    (h : act (.deliverTo u now sub targets attempt) r s = some (s', k)) :
    ActSpec (.deliverTo u now sub targets attempt) s s' k := by
  cases attempt with
  | send =>
    simp only [act] at h
    split at h
    · cases h
      exact ⟨.leave rfl rfl (by simp) rfl rfl, .steps rfl rfl (by simp)⟩
    · rename_i hopen
      rw [Bool.not_eq_true] at hopen
      cases h
      split
      · rename_i hroom
        refine delivered_spec _ rfl ?_ rfl rfl (by simp)
        rw [Shared.view_setMarket]
        exact .send (p := .market sub) List.mem_cons_self hopen hroom
      · rename_i hfull
        refine ⟨⟨by simp, rfl, ?_⟩, .steps rfl rfl (by simp)⟩
        rw [Shared.view_setMarket]
        exact .sendFull (p := .market sub) List.mem_cons_self hopen hfull
  | discard late =>
    cases h
    refine ⟨⟨by simp, rfl, ?_⟩, .steps rfl rfl (by simp)⟩
    rw [Shared.view_setMarket]
    exact .discard (p := .market sub)
  | resend late =>
    cases h
    refine delivered_spec late rfl ?_ rfl rfl (by simp)
    rw [Shared.view_setMarket]
    have hraised : ∀ q, s.view.raised q = true → q = .market sub ∨ s.view.raised q = true :=
      fun q hq => .inr hq
    exact .resend hraised

/-- **An order delivery.** -/
theorem deliverOrderTo_spec {now : Time} {ord : OrderId} {targets : List OrderId}
    {attempt : Attempt} (h : act (.deliverOrderTo u now ord targets attempt) r s = some (s', k)) :
    ActSpec (.deliverOrderTo u now ord targets attempt) s s' k := by
  cases attempt with
  | send =>
    simp only [act] at h
    split at h
    · cases h
      exact ⟨.leave rfl rfl (by simp) rfl rfl, .steps rfl rfl (by simp)⟩
    · rename_i hopen
      rw [Bool.not_eq_true] at hopen
      cases h
      split
      · rename_i hroom
        refine ⟨⟨by simp, rfl, ?_⟩, .steps rfl rfl (by simp)⟩
        rw [Shared.view_setOrder_same]
        · exact .send (p := .order ord) List.mem_cons_self hopen hroom
        · rfl
      · rename_i hfull
        refine ⟨⟨by simp, rfl, ?_⟩, .steps rfl rfl (by simp)⟩
        rw [Shared.view_setOrder_same]
        · exact .sendFull (p := .order ord) List.mem_cons_self hopen hfull
        · rfl
  | discard late =>
    cases h
    refine ⟨⟨by simp, rfl, ?_⟩, .steps rfl rfl (by simp)⟩
    rw [Shared.view_setOrder_same]
    · exact .discard (p := .order ord)
    · rfl
  | resend late =>
    have hraised : ∀ q, Function.update s.raised (.order ord) true q = true →
        q = .order ord ∨ s.raised q = true := by
      intro q hq
      by_cases h : q = .order ord
      · exact .inl h
      · rw [Function.update_of_ne h] at hq
        exact .inr hq
    have heffect : Effect [.port (.order ord)] s.view (.offering (.order ord) u true)
        (s.setOrder ord { s.orders ord with
          chan := (s.orders ord).chan.resend s.orch.buffer u
          dropped := (s.orders ord).dropped + 1
          backlogRaised := true }).view .free := by
      rw [Shared.view_setOrder]
      exact .resend (p := .order ord) hraised
    simp only [act] at h
    cases h
    split
    · exact ⟨⟨by simp, rfl, heffect⟩, .steps rfl rfl (by simp)⟩
    · exact ⟨⟨by simp, rfl, heffect⟩, .steps rfl rfl (by simp; omega)⟩

omit [UnicodeTables] in
theorem Release.keeps (after : Release) : (∀ m ∈ after.guard.locks, m ∈ after.held) ∧
    (∀ m ∈ after.held, m.rank < 3) ∧ after.guard.isOffering = false := by
  cases after <;> simp [Guard.isOffering]

omit [UnicodeTables] in
theorem shutdown_market_spec {subs : List SubId} {orders : List OrderId} (after : Release) :
    Spec (.shutdown sub subs orders after) s
      (s.setMarket sub (s.markets sub).shutdown)
      (.unlock (.port (.market sub)) (.act (.shutdowns subs orders after))) := by
  obtain ⟨hkept, hrank, hguard⟩ := after.keeps
  refine ⟨⟨fun hm => (hrank _ hm).ne rfl, hkept⟩, rfl, ?_⟩
  rw [Shared.view_setMarket]
  cases hclosed : (s.markets sub).closed with
  | false =>
    simp only [MarketInbox.shutdown, hclosed]
    exact .shutdown (p := .market sub) List.mem_cons_self hclosed hguard
  | true =>
    have hsame : s.view.setInbox (.market sub) (s.markets sub).toInbox = s.view := by
      rw [← Shared.view_setMarket]
      simp only [Shared.setMarket, Function.update_eq_self]
    simp only [MarketInbox.shutdown, hclosed, if_true, hsame]
    exact .quiet hguard

omit [UnicodeTables] in
theorem shutdown_order_spec {ord : OrderId} {orders : List OrderId} (after : Release) :
    Spec (.shutdownOrder ord orders after) s (s.setOrder ord (s.orders ord).shutdown)
      (.unlock (.port (.order ord)) (.act (.shutdowns [] orders after))) := by
  obtain ⟨hkept, hrank, hguard⟩ := after.keeps
  refine ⟨⟨fun hm => (hrank _ hm).ne rfl, hkept⟩, rfl, ?_⟩
  cases hclosed : (s.orders ord).closed with
  | false =>
    simp only [OrderInbox.shutdown, hclosed]
    rw [Shared.view_setOrder_same]
    · exact .shutdown (p := .order ord) List.mem_cons_self hclosed hguard
    · rfl
  | true =>
    have hsame : s.setOrder ord (s.orders ord) = s := by
      simp only [Shared.setOrder, Function.update_eq_self]
    simp only [OrderInbox.shutdown, hclosed, if_true, hsame]
    exact .quiet hguard

/-- What `report` does. The guard says how far it has come. -/
theorem reporting_spec (ha : a.group = .reporting) (h : act a r s = some (s', k)) :
    ActSpec a s s' k := by
  cases a with
  | report err after =>
    have hrank : ∀ m ∈ after.held, m.rank < 4 := by cases after <;> simp
    cases err with
    | none =>
      cases h
      obtain ⟨hfits, hheld, hguard⟩ := after.code_fits
      exact ⟨.quiet rfl hfits hheld hguard rfl, after.nearer rfl rfl (by simp)⟩
    | some err =>
      cases h
      exact ⟨⟨by simpa using hrank, rfl, .report⟩, .steps rfl rfl (by simp)⟩
  | reportCheck err after =>
    simp only [act] at h
    split at h
    · rename_i hclosed
      cases h
      exact ⟨after.leave rfl (.refuse List.mem_cons_self hclosed), after.nearer rfl rfl (by simp)⟩
    · rename_i hopen
      rw [Bool.not_eq_true] at hopen
      cases h
      exact ⟨⟨by simp, rfl, .check List.mem_cons_self hopen⟩, .steps rfl rfl (by simp)⟩
  | reportSend err after =>
    simp only [act] at h
    cases h
    split
    · rename_i hroom
      exact ⟨after.leave rfl (.errSend hroom), after.nearer rfl rfl (by simp)⟩
    · rename_i hfull
      exact ⟨⟨by simp, rfl, .errSendFull hfull⟩, .steps rfl rfl (by simp)⟩
  | reportDiscard err after =>
    have hrank : ∀ m ∈ after.held, m.rank < 5 := by cases after <;> simp
    simp only [act] at h
    cases h
    split
    · rename_i hvain
      rw [Bool.and_eq_true, decide_eq_true_eq] at hvain
      exact ⟨⟨by simp, rfl, .errDiscardVain hvain.1⟩, .steps rfl rfl (by simp)⟩
    · rename_i hfound
      refine ⟨⟨by simpa using hrank, rfl, .errDiscard fun hvain => hfound ?_⟩,
        .steps rfl rfl (by simp)⟩
      simpa using hvain
  | reportCount err after =>
    have hmu : Mutex.mu ∉ after.held := by cases after <;> simp
    cases h
    exact ⟨⟨by simpa using hmu, rfl, .errCount⟩, .steps rfl rfl (by simp)⟩
  | reportResend err after =>
    cases h
    exact ⟨after.leave rfl .errResend, after.nearer rfl rfl (by simp)⟩
  | _ => cases ha

/-- What `Subscribe` and `SubscribeOrders` do. -/
theorem subscribing_spec (ha : a.group = .subscribing) (h : act a r s = some (s', k)) :
    ActSpec a s s' k := by
  cases a with
  | subscribe | subscribeOrders =>
    simp only [act] at h
    split at h <;> cases h
    · exact ⟨.goto rfl rfl rfl rfl, .steps rfl rfl (by simp)⟩
    · exact ⟨.enter rfl (by rintro ⟨⟩) rfl (by simp) rfl rfl, .steps rfl rfl (by simp)⟩
  | lookup | lookupOrders =>
    simp only [act] at h
    split at h
    · cases h
      exact ⟨.leave rfl rfl (by simp) rfl rfl, .steps rfl rfl (by simp)⟩
    · split at h <;> cases h <;> exact ⟨.goto rfl rfl rfl rfl, .steps rfl rfl (by simp)⟩
  | request | requestOrders =>
    cases r with
    | none =>
      cases h
      exact ⟨.goto rfl rfl rfl rfl, .steps rfl rfl (by simp)⟩
    | some cause =>
      cases h
      exact ⟨.leave rfl rfl (by simp) rfl rfl, .steps rfl rfl (by simp)⟩
  | register q found =>
    cases h
    refine ⟨.leave (Shared.view_withOrch ?_ ?_ ?_) rfl (by simp) rfl rfl, .steps rfl rfl (by simp)⟩
    all_goals cases found <;> rfl
  | registerOrders account =>
    cases h
    exact ⟨.leave (Shared.view_registerOrder account) rfl (by simp) rfl rfl,
      .steps rfl rfl (by simp)⟩
  | _ => cases ha

theorem cancelling_spec (ha : a.group = .cancelling) (h : act a r s = some (s', k)) :
    ActSpec a s s' k := by
  cases a with
  | isClosed | orderIsClosed =>
    simp only [act] at h
    cases h
    split
    · exact ⟨.quiet rfl (by simp) rfl rfl rfl, .steps rfl rfl (by simp)⟩
    · exact ⟨.leave rfl rfl (by simp) rfl rfl, .steps rfl rfl (by simp)⟩
  | detach sub =>
    cases h
    exact ⟨.leave (Shared.view_detach sub) rfl (by simp) rfl rfl, .steps rfl rfl (by simp)⟩
  | detachOrder =>
    cases h
    exact ⟨.leave (Shared.view_withOrch rfl rfl rfl) rfl (by simp) rfl rfl,
      .steps rfl rfl (by simp)⟩
  | cancelRequest | cancelOrderRequest =>
    cases r <;> cases h <;> exact ⟨.goto rfl rfl rfl rfl, .steps rfl rfl (by simp)⟩
  | _ => cases ha

/-- What `onReconnect` does: it takes its snapshot, and then collects the subscriptions of one
entry after the other. -/
theorem reconnecting_spec (ha : a.group = .reconnecting) (h : act a r s = some (s', k)) :
    ActSpec a s s' k := by
  cases a with
  | reconnect cause =>
    simp only [act] at h
    split at h <;> cases h
    · exact ⟨.goto rfl rfl rfl rfl, .phase Nat.zero_lt_one⟩
    · exact ⟨.goto rfl rfl rfl rfl, .steps rfl rfl (by simp)⟩
  | snapshot =>
    cases h
    exact ⟨.leave rfl rfl (by simp) rfl rfl, .phase Nat.zero_lt_one⟩
  | resubscribe rest =>
    obtain ⟨entries, account⟩ := rest
    -- a request that is refused leads to a report, the others are done with
    cases entries <;> cases account <;> cases r <;> cases h <;>
      refine ⟨.goto rfl rfl rfl rfl, ?_⟩ <;>
      first
      | exact .loops rfl (Nat.lt_succ_self _)
      | exact .steps rfl rfl (by simp)
  | killEntry | killOrders =>
    cases h
    exact ⟨.leave (Shared.view_withOrch rfl rfl rfl) rfl (by simp) rfl rfl,
      .loops rfl (Nat.lt_succ_self _)⟩
  | killRequest =>
    cases r <;> cases h <;> exact ⟨.goto rfl rfl rfl rfl, .steps rfl rfl (by simp)⟩
  | _ => cases ha

/-- What `Close` does. The guard says how far it has come. -/
theorem closing_spec (ha : a.group = .closing) (h : act a r s = some (s', k)) :
    ActSpec a s s' k := by
  cases a with
  | close =>
    simp only [act] at h
    split at h <;> cases h
    · exact ⟨.goto rfl rfl rfl rfl, .loops rfl Nat.zero_lt_one⟩
    · exact ⟨.enter rfl (by rintro ⟨⟩) rfl (by simp) rfl rfl, .steps rfl rfl (by simp)⟩
  | closeOnce =>
    simp only [act] at h
    split at h
    · cases h
      exact ⟨.leave rfl rfl (by simp) rfl rfl, .loops rfl Nat.zero_lt_one⟩
    · rename_i hnot
      rw [Bool.not_eq_true] at hnot
      cases h
      exact ⟨⟨by simp, rfl, .closeOnce List.mem_cons_self hnot⟩, .steps rfl rfl (by simp)⟩
  | closeFlag =>
    cases h
    exact ⟨⟨by simp, rfl, .closeFlag⟩, .steps rfl rfl (by simp)⟩
  | closeChannel =>
    cases h
    exact ⟨⟨by simp, rfl, .closeChannel⟩, .steps rfl rfl (by simp)⟩
  | transportClose =>
    cases h
    exact ⟨.quiet rfl (by simp) rfl rfl rfl, .steps rfl rfl (by simp)⟩
  | closeAll =>
    cases h
    exact ⟨.quiet (Shared.view_withOrch rfl rfl rfl) (by simp) rfl rfl rfl,
      .loops rfl Nat.zero_lt_one⟩
  | closeErrors =>
    cases h
    exact ⟨⟨by simp, rfl, .closeErrors List.mem_cons_self⟩, .steps rfl rfl (by simp)⟩
  | closeDone =>
    cases h
    exact ⟨⟨by simp, rfl, .closeDone⟩, .steps rfl rfl (by simp)⟩
  | _ => cases ha

/-- What is done to shut down a list of subscriptions. -/
theorem shutting_spec (ha : a.group = .shutting) (h : act a r s = some (s', k)) :
    ActSpec a s s' k := by
  cases a with
  | shutdowns subs orders after =>
    obtain ⟨hkept, hrank, hguard⟩ := after.keeps
    have hbelow : ∀ p, ∀ m ∈ after.guard.locks, m ∈ Mutex.port p :: after.held :=
      fun p m hm => List.mem_cons_of_mem _ (hkept m hm)
    cases subs with
    | cons sub subs =>
      cases h
      exact ⟨.quiet rfl ⟨by rintro ⟨⟩, rfl, hrank, hkept, hbelow _⟩ rfl rfl hguard,
        .steps rfl rfl (by simp; omega)⟩
    | nil =>
      cases orders with
      | cons ord orders =>
        cases h
        exact ⟨.quiet rfl ⟨by rintro ⟨⟩, rfl, hrank, hkept, hbelow _⟩ rfl rfl hguard,
          .steps rfl rfl (by simp; omega)⟩
      | nil =>
        cases h
        obtain ⟨hfits, hheld, hnext⟩ := after.code_fits s.orch
        exact ⟨.quiet rfl hfits hheld hnext hguard, after.nearer s.orch⟩
  | shutdown sub subs orders after =>
    cases h
    exact ⟨shutdown_market_spec after, .steps rfl rfl (by simp)⟩
  | shutdownOrder ord orders after =>
    cases h
    exact ⟨shutdown_order_spec after, .steps rfl rfl (by simp)⟩
  | _ => cases ha

/-- What a handler does: it collects its targets, and then serves one after the other. -/
theorem dispatching_spec (ha : a.group = .dispatching) (h : act a r s = some (s', k)) :
    ActSpec a s s' k := by
  cases a with
  | handle u now =>
    simp only [act] at h
    split at h
    · cases h
      exact ⟨.goto rfl rfl rfl rfl, .loops rfl Nat.zero_lt_one⟩
    · split at h <;> cases h <;>
        exact ⟨.enter rfl (by rintro ⟨⟩) rfl (by simp) rfl rfl, .steps rfl rfl Nat.zero_lt_one⟩
  | dispatchMarket u now =>
    simp only [act] at h
    split at h <;> cases h
    · exact ⟨.quiet rfl (by simp) rfl rfl rfl, .loops rfl Nat.zero_lt_one⟩
    · exact ⟨.leave rfl rfl (by simp) rfl rfl, .loops rfl Nat.zero_lt_one⟩
  | dispatchTrade =>
    cases h
    exact ⟨.leave rfl rfl (by simp) rfl rfl, .loops rfl Nat.zero_lt_one⟩
  | wireStamp =>
    cases h
    exact ⟨.leave rfl rfl (by simp) rfl rfl, .steps rfl rfl (by simp; omega)⟩
  | recordUnrouted =>
    cases h
    exact ⟨.leave (Shared.view_withOrch rfl rfl rfl) rfl (by simp) rfl rfl,
      .steps rfl rfl (by simp)⟩
  | deliver _ _ targets | deliverOrder _ _ targets =>
    cases targets with
    | nil =>
      cases h
      exact ⟨.goto rfl rfl rfl rfl, .steps rfl rfl Nat.zero_lt_one⟩
    | cons =>
      cases h
      exact ⟨.enter rfl (by rintro ⟨⟩) rfl (by simp) rfl rfl, .steps rfl rfl (by simp; omega)⟩
  | deliverTo u now sub targets attempt => exact deliverTo_spec h
  | deliverOrderTo u now ord targets attempt => exact deliverOrderTo_spec h
  | _ => cases ha

/-- **What an action does.** -/
theorem act_spec (h : act a r s = some (s', k)) : ActSpec a s s' k := by
  cases ha : a.group with
  | resting =>
    cases a with
    | idle => cases h
    | drain =>
      simp only [act] at h
      split at h <;> cases h
      exact ⟨.leave rfl rfl (by simp) rfl rfl, .steps rfl rfl (by simp)⟩
    | _ => cases ha
  | subscribing => exact subscribing_spec ha h
  | cancelling => exact cancelling_spec ha h
  | reconnecting => exact reconnecting_spec ha h
  | closing => exact closing_spec ha h
  | shutting => exact shutting_spec ha h
  | dispatching => exact dispatching_spec ha h
  | reporting => exact reporting_spec ha h

omit [UnicodeTables] in
/-- **What a call does.** -/
theorem call_spec {c : Call} (h : call c a s = some (s', k)) : Spec a s s' k := by
  unfold call at h
  split at h
  case h_2 | h_4 =>
    obtain ⟨-, heq⟩ := Option.ite_none_right_eq_some.mp h
    cases heq
    exact .quiet rfl (by simp) rfl rfl rfl
  case h_7 =>
    obtain ⟨-, heq⟩ := Option.ite_none_right_eq_some.mp h
    cases heq
    exact .goto rfl rfl rfl rfl
  case h_9 =>
    cases h
    exact .leave rfl rfl (by simp) rfl rfl
  case h_10 sub =>
    obtain ⟨-, heq⟩ := Option.ite_none_left_eq_some.mp h
    cases heq
    refine ⟨by simp, rfl, ?_⟩
    rw [Shared.view_setMarket]
    exact .receive (p := .market sub)
  case h_11 ord =>
    obtain ⟨-, heq⟩ := Option.ite_none_left_eq_some.mp h
    cases heq
    refine ⟨by simp, rfl, ?_⟩
    rw [Shared.view_setOrder_same]
    · exact .receive (p := .order ord)
    · rfl
  case h_12 =>
    obtain ⟨-, heq⟩ := Option.ite_none_left_eq_some.mp h
    cases heq
    exact ⟨by simp, rfl, .receiveError⟩
  all_goals cases h
  all_goals exact .goto rfl rfl rfl rfl

/-- **What a thread does.** -/
theorem does_spec (h : program.Does a s s' k) : Spec a s s' k := by
  cases h with
  | call h => exact call_spec h
  | act h => exact (act_spec h).toSpec

/-- The orchestration follows its plan. -/
theorem plan_follows : plan.Follows program := fun h => ⟨(does_spec h).fits, (does_spec h).held⟩

end

end HstongApi.PushSystem
