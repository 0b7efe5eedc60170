import HstongApi.PushOperations
import HstongApi.Threads

/-!
# The calls as threads

Here a call of the API, the reconnect hook and a dispatch are threads that may be
interrupted between any two of their actions. An action is the body of a critical
section, one request to the Gateway with its reply, one `shutdown` or `deliver` under the
lock of its subscription, one report on the error stream, or one access to an atomic
flag.

There are two mutexes, as in the source: `subMu` is held by everything that changes the
registry, across the request of a `Subscribe`; `mu` is held by a dispatch while it
collects its targets. The critical section of a `Subscribe` has three actions: it looks
its key up, it makes the request if there is no entry, and it registers.

The state has two fields that no action reads, for what has happened: `gone` are the
subscriptions that a cancel, a kill or `Close` has taken over, and `drained` says that
`Close` has emptied the registry.
-/

namespace HstongApi.PushThreads

open Threads

/-! ## State and points -/

/-- `closeOnce` -/
inductive Once
  | unused
  | running
  | done
  deriving DecidableEq

/-- What the threads share. -/
structure Shared extends World where
  closeOnce : Once := .unused
  gone : List SubId := []
  drained : Bool := false

/-- The two locks. -/
inductive Mutex
  | subMu
  | mu
  deriving DecidableEq

/-- A `Subscribe` that passed the checks before the lock. -/
structure Request where
  topic : TopicID
  msgType : NotifyMsgType
  securities : List Security
  deriving DecidableEq

/-- The key it asks for. -/
def Request.key (q : Request) : Bytes := canonicalPushKey q.topic q.securities

/-- What `resubscribeAll` has yet to do: the rest of its snapshot, and the account of the
order push if that was live. -/
structure Rest where
  entries : List EntryId
  account : Option AccountId
  deriving DecidableEq

/-- The actions under a lock. -/
inductive Section
  /-- `subscribeUnderLock`: the closed flag, and the entry under the key -/
  | lookup (q : Request)
  /-- its request -/
  | request (q : Request)
  /-- the new subscription, in the entry that was found or in a new one -/
  | register (q : Request) (found : Option EntryId)
  /-- `Subscription.Cancel` -/
  | cancel (sub : SubId)
  /-- `subscribeOrdersUnderLock`: the closed flag, and `tradeOn` -/
  | lookupOrders (account : AccountId)
  /-- its request -/
  | requestOrders (account : AccountId)
  /-- the new order subscription -/
  | registerOrders (account : AccountId)
  /-- `OrderSubscription.Cancel` -/
  | cancelOrder (ord : OrderId)
  /-- the snapshot of `resubscribeAll` -/
  | snapshot
  /-- `killEntry`, after which the loop of `resubscribeAll` goes on -/
  | killEntry (e : EntryId) (rest : Rest)
  /-- `killOrders` -/
  | killOrders
  /-- `closeAll` -/
  | closeAll
  /-- `dispatchMarket` collects its targets -/
  | dispatchMarket (u : PushUpdate) (now : Time)
  /-- `dispatchTrade` collects its targets -/
  | dispatchTrade (u : PushUpdate) (now : Time)
  /-- `recordUnrouted` -/
  | recordUnrouted (u : PushUpdate)
  deriving DecidableEq

/-- The actions without a lock of the registry. -/
inductive Work
  /-- `Subscribe`: the checks before the lock -/
  | subscribe (topic : TopicID) (sec : List (Option Security))
  /-- `Cancel`: the shutdown of the subscription, which may have been the last one of an
  entry -/
  | cancelShutdown (sub : SubId) (last : Option EntryId)
  /-- and the request to unsubscribe the entry -/
  | cancelRequest (e : EntryId)
  /-- `SubscribeOrders`: the checks before the lock -/
  | subscribeOrders (account : AccountId)
  /-- `OrderSubscription.Cancel`: the shutdown -/
  | cancelOrderShutdown (ord : OrderId) (last : Bool) (account : AccountId)
  /-- and the request -/
  | cancelOrderRequest (account : AccountId)
  /-- `onReconnect`: the closed flag -/
  | reconnect (cause : Option Bytes)
  /-- and the report -/
  | reconnectReport (cause : Option Bytes)
  /-- the loop of `resubscribeAll`: one request -/
  | resubscribe (rest : Rest)
  /-- `killEntry`: one shutdown -/
  | killShutdown (e : EntryId) (doomed : List SubId) (rest : Rest)
  /-- and the request -/
  | killRequest (e : EntryId) (rest : Rest)
  /-- `killOrders`: one shutdown -/
  | killOrdersShutdown (doomed : List OrderId)
  /-- `Close`: `closeOnce` -/
  | close
  /-- the closed flag -/
  | closeFlag
  /-- `closeAll`: one shutdown -/
  | closeShutdown (subs : List SubId) (orders : List OrderId)
  /-- the handler of a payload type -/
  | handle (u : PushUpdate) (now : Time)
  /-- `dispatchMarket`: one delivery -/
  | deliver (u : PushUpdate) (now : Time) (targets : List SubId)
  /-- `dispatchTrade`: one delivery -/
  | deliverOrder (u : PushUpdate) (now : Time) (targets : List OrderId)
  /-- a report by itself, as at the end of `recordUnrouted` -/
  | report (err : Option StreamError)
  deriving DecidableEq

/-- The calls. -/
inductive Call
  | subscribe (topic : TopicID) (sec : List (Option Security))
  | cancel (sub : SubId)
  | subscribeOrders (account : AccountId)
  | cancelOrder (ord : OrderId)
  | reconnect (cause : Option Bytes)
  | close
  | dispatch (u : PushUpdate) (now : Time)
  /-- the drain goroutine forwards an error of the transport -/
  | transportError (cause : Bytes)
  deriving DecidableEq

/-- The first action of a call. A pointer must point to an object that was allocated, and
only installed handlers are called. -/
def start : Call → Shared → Option (Exit Section Work)
  | .subscribe topic sec, _ => some (.go (.subscribe topic sec))
  | .cancel sub, s => if sub < s.orch.subs.size then some (.enter (.cancel sub)) else none
  | .subscribeOrders account, _ => some (.go (.subscribeOrders account))
  | .cancelOrder ord, s =>
    if ord < s.orch.orderSubs.size then some (.enter (.cancelOrder ord)) else none
  | .reconnect cause, _ => some (.go (.reconnect cause))
  | .close, _ => some (.go .close)
  | .dispatch u now, s => if s.orch.installed u.type then some (.go (.handle u now)) else none
  | .transportError cause, _ => some (.go (.report (some (.transport cause))))

/-- The lock a section is under. -/
def Section.mutex : Section → Mutex
  | .dispatchMarket .. | .dispatchTrade .. | .recordUnrouted _ => .mu
  | .lookup _ | .request _ | .register .. | .cancel _ | .lookupOrders _ | .requestOrders _
  | .registerOrders _ | .cancelOrder _ | .snapshot | .killEntry .. | .killOrders | .closeAll =>
    .subMu

/-! ## Actions -/

namespace Shared

/-- The orchestration does something. -/
def withOrch (s : Shared) (o : PushOrchestration) : Shared := { s with orch := o }

/-- Subscriptions are taken out of the registry, to be shut down. -/
def takeOver (s : Shared) (o : PushOrchestration) (ids : List SubId) : Shared :=
  { s with orch := o, gone := ids ++ s.gone }

/-- A report on the error stream. -/
def report (s : Shared) (err : Option StreamError) : Shared := s.withOrch (s.orch.report err)

/-- A request to subscribe an entry was accepted. -/
def subscribe (s : Shared) (topic : TopicID) (securities : List Security) : Shared :=
  { s with gateway := s.gateway.subscribe topic securities }

/-- A request to unsubscribe an entry was accepted. -/
def unsubscribe (s : Shared) (e : EntryId) : Shared :=
  { s with gateway :=
      s.gateway.unsubscribe (s.orch.heap.get e).topic (s.orch.heap.get e).securities }

/-- A request about order push was accepted. -/
def setOrderPush (s : Shared) (on : Bool) : Shared :=
  { s with gateway := s.gateway.setOrderPush on }

end Shared

section

variable [UnicodeTables]

/-- The action of a section. -/
def body : Section → Reply → Shared → Shared × Turn Section Work
  | .lookup q, _, s =>
    if s.orch.closed then (s, .leave .ret)
    else
      match s.orch.entries.lookup q.key with
      | some e => (s, .stay (.register q (some e)))
      | none => (s, .stay (.request q))
  -- a refused request leaves the registry as it was
  | .request _, some _, s => (s, .leave .ret)
  | .request q, none, s => (s.subscribe q.topic q.securities, .stay (.register q none))
  | .register q found, _, s =>
    (s.withOrch (s.orch.register found q.topic q.msgType q.securities), .leave .ret)
  -- the lock is released before the shutdown and the request
  | .cancel sub, _, s =>
    if (s.orch.subs.get sub).closed then (s, .leave .ret)
    else
      (s.takeOver (s.orch.detachLocked sub).1 [sub],
        .leave (.go (.cancelShutdown sub (s.orch.detachLocked sub).2)))
  | .lookupOrders account, _, s =>
    if s.orch.closed then (s, .leave .ret)
    else if s.orch.tradeOn then (s, .stay (.registerOrders account))
    else (s, .stay (.requestOrders account))
  | .requestOrders _, some _, s => (s, .leave .ret)
  | .requestOrders account, none, s => (s.setOrderPush true, .stay (.registerOrders account))
  | .registerOrders account, _, s => (s.withOrch (s.orch.registerOrder account), .leave .ret)
  -- the flag is read here and set only by the shutdown that follows
  | .cancelOrder ord, _, s =>
    if (s.orch.orderSubs.get ord).closed then (s, .leave .ret)
    else
      let o := s.orch.cancelOrderSection ord
      (s.withOrch o, .leave (.go (.cancelOrderShutdown ord (decide (o.tradeSubs ≤ 0)) o.tradeAccount)))
  | .snapshot, _, s =>
    let account := if s.orch.tradeOn && s.orch.trade then some s.orch.tradeAccount else none
    (s, .leave (.go (.resubscribe ⟨s.orch.snapshot, account⟩)))
  -- the entry is deleted by its key, whatever stands there now
  | .killEntry e rest, _, s =>
    let doomed := (s.orch.heap.get e).subs
    (s.takeOver (s.orch.killSection e) doomed, .leave (.go (.killShutdown e doomed rest)))
  | .killOrders, _, s =>
    (s.withOrch s.orch.killOrdersSection, .leave (.go (.killOrdersShutdown s.orch.orders)))
  | .closeAll, _, s =>
    ({ s.takeOver s.orch.drain s.orch.drained with drained := true },
      .leave (.go (.closeShutdown s.orch.drained s.orch.orders)))
  -- the targets are collected under `mu` and served after it
  | .dispatchMarket u now, _, s =>
    match s.orch.marketTargets u with
    | [] => (s, .leave (.enter (.recordUnrouted u)))
    | i :: targets => (s, .leave (.go (.deliver u now (i :: targets))))
  | .dispatchTrade u now, _, s => (s, .leave (.go (.deliverOrder u now s.orch.orders)))
  | .recordUnrouted u, _, s =>
    (s.withOrch (s.orch.countUnrouted u), .leave (.go (.report (s.orch.unroutedReport u))))

/-- An action outside the sections. Only a second `Close` blocks, while the first one is
running. -/
def work : Work → Reply → Shared → Option (Shared × Exit Section Work)
  | .subscribe topic sec, _, s =>
    match s.orch.checkSubscribe topic sec with
    | .error _ => some (s, .ret)
    | .ok (msgType, securities) => some (s, .enter (.lookup ⟨topic, msgType, securities⟩))
  -- only the last holder of an accepted entry goes on to a request
  | .cancelShutdown sub last, _, s =>
    let s := s.withOrch (s.orch.shutdown [sub])
    match last with
    | none => some (s, .ret)
    | some e =>
      if !(s.orch.heap.get e).subscribed || !s.orch.market then some (s, .ret)
      else some (s, .go (.cancelRequest e))
  | .cancelRequest e, none, s => some (s.unsubscribe e, .ret)
  | .cancelRequest e, some cause, s =>
    let entry := s.orch.heap.get e
    some (s.report (some (.unsubscribe entry.topic (keyList entry.securities) cause)), .ret)
  | .subscribeOrders account, _, s =>
    match s.orch.checkSubscribeOrders account with
    | .error _ => some (s, .ret)
    | .ok () => some (s, .enter (.lookupOrders account))
  | .cancelOrderShutdown ord last account, _, s =>
    let s := s.withOrch (s.orch.shutdownOrders [ord])
    if !last || !s.orch.trade then some (s, .ret)
    else some (s, .go (.cancelOrderRequest account))
  | .cancelOrderRequest _, none, s => some (s.setOrderPush false, .ret)
  | .cancelOrderRequest account, some cause, s =>
    some (s.report (some (.unsubscribeOrders account cause)), .ret)
  | .reconnect cause, _, s =>
    if s.orch.closed then some (s, .ret) else some (s, .go (.reconnectReport cause))
  | .reconnectReport cause, _, s => some (s.report (some (.reconnected cause)), .enter .snapshot)
  -- one request for each entry of the snapshot, then one for order push
  | .resubscribe ⟨e :: entries, account⟩, none, s =>
    let entry := s.orch.heap.get e
    some (s.subscribe entry.topic entry.securities, .go (.resubscribe ⟨entries, account⟩))
  | .resubscribe ⟨e :: entries, account⟩, some cause, s =>
    let entry := s.orch.heap.get e
    some (s.report (some (.resubscribe entry.topic (keyList entry.securities) cause)),
      .enter (.killEntry e ⟨entries, account⟩))
  | .resubscribe ⟨[], none⟩, _, s => some (s, .ret)
  | .resubscribe ⟨[], some _⟩, none, s => some (s.setOrderPush true, .ret)
  | .resubscribe ⟨[], some account⟩, some cause, s =>
    some (s.report (some (.resubscribeOrders account cause)), .enter .killOrders)
  | .killShutdown e [] rest, _, s => some (s, .go (.killRequest e rest))
  | .killShutdown e (i :: doomed) rest, _, s =>
    some (s.withOrch (s.orch.shutdown [i]), .go (.killShutdown e doomed rest))
  -- the kill asks the Gateway to unsubscribe what it refused to subscribe
  | .killRequest e rest, none, s => some (s.unsubscribe e, .go (.resubscribe rest))
  | .killRequest e rest, some cause, s =>
    let entry := s.orch.heap.get e
    some (s.report (some (.unsubscribeRefused entry.topic (keyList entry.securities) cause)),
      .go (.resubscribe rest))
  | .killOrdersShutdown [], _, s => some (s, .ret)
  | .killOrdersShutdown (ord :: doomed), _, s =>
    some (s.withOrch (s.orch.shutdownOrders [ord]), .go (.killOrdersShutdown doomed))
  | .close, _, s =>
    match s.closeOnce with
    | .unused => some ({ s with closeOnce := .running }, .go .closeFlag)
    -- `closeOnce.Do` waits for the call that is running
    | .running => none
    | .done => some (s, .ret)
  | .closeFlag, _, s => some (s.withOrch { s.orch with closed := true }, .enter .closeAll)
  | .closeShutdown [] [], _, s => some ({ s with closeOnce := .done }, .ret)
  | .closeShutdown [] (ord :: orders), _, s =>
    some (s.withOrch (s.orch.shutdownOrders [ord]), .go (.closeShutdown [] orders))
  | .closeShutdown (i :: subs) orders, _, s =>
    some (s.withOrch (s.orch.shutdown [i]), .go (.closeShutdown subs orders))
  | .handle u now, _, s =>
    if u.event = none then some (s, .ret)
    else if isTradeNotifyType u.type then some (s, .enter (.dispatchTrade u now))
    else some (s, .enter (.dispatchMarket u now))
  | .deliver _ _ [], _, s => some (s, .ret)
  | .deliver u now (i :: targets), _, s =>
    some (s.withOrch (s.orch.deliver now u i), .go (.deliver u now targets))
  | .deliverOrder _ _ [], _, s => some (s, .ret)
  | .deliverOrder u now (ord :: targets), _, s =>
    some (s.withOrch (s.orch.deliverOrder now u ord), .go (.deliverOrder u now targets))
  | .report err, _, s => some (s.report err, .ret)

/-- The sections with more than one action. -/
inductive Section.Next : Section → Section → Prop
  | found (q : Request) (e : EntryId) : Section.Next (.lookup q) (.register q (some e))
  | missing (q : Request) : Section.Next (.lookup q) (.request q)
  | accepted (q : Request) : Section.Next (.request q) (.register q none)
  | ordersOn (account : AccountId) :
      Section.Next (.lookupOrders account) (.registerOrders account)
  | ordersOff (account : AccountId) :
      Section.Next (.lookupOrders account) (.requestOrders account)
  | ordersAccepted (account : AccountId) :
      Section.Next (.requestOrders account) (.registerOrders account)

/-- A thread that does not leave its section goes on like this. -/
theorem body_stay {c c' : Section} {r : Reply} {s : Shared} (h : (body c r s).2 = .stay c') :
    c.Next c' := by
  cases c with
  | lookup q =>
    simp only [body] at h
    split at h
    · cases h
    · split at h <;> cases h
      · exact .found q _
      · exact .missing q
  | request q =>
    cases r <;> cases h
    exact .accepted q
  | lookupOrders account =>
    simp only [body] at h
    split at h
    · cases h
    · split at h <;> cases h
      · exact .ordersOn account
      · exact .ordersOff account
  | requestOrders account =>
    cases r <;> cases h
    exact .ordersAccepted account
  | cancel sub | cancelOrder ord | dispatchMarket u now =>
    simp only [body] at h
    split at h <;> cases h
  | _ => cases h

/-- The push orchestration as a program. -/
def program : Program Shared Reply Call Section Work Mutex :=
  ⟨start, Section.mutex, body, work, fun _ _ _ _ h => by cases body_stay h <;> rfl⟩

/-- The threads are numbered. -/
abbrev System : Type := State Shared Section Work Mutex ℕ

/-- A thread is called, or does its next action and gets a reply if it is a request. -/
abbrev Action : Type := Event Reply Call ℕ

/-- One step of the system. -/
def step : System → Action → Option System := program.step

end

/-- A new orchestration and no thread in a call. -/
def init (market trade transport : Bool) (n : ℤ) : System :=
  .init { toWorld := World.init market trade transport n }

/-- A schedule: a thread subscribes to an instrument that is not registered. -/
def subscribes (t : ℕ) : List Action :=
  .call t (.subscribe topicTicker [some ⟨10000, bytes "00700"⟩]) :: List.replicate 6 (.run t none)

/-! ## What an action leaves alone -/

/-- The two parts of the registry that a dispatch reads. -/
inductive Part
  | byKey
  | orders
  deriving DecidableEq

/-- The critical section of this action modifies a part of the registry. -/
def Section.modifies : Section → Part → Bool
  | .lookup _, .byKey | .request _, .byKey | .register .., .byKey | .cancel _, .byKey
  | .killEntry .., .byKey | .closeAll, .byKey => true
  | .lookupOrders _, .orders | .requestOrders _, .orders | .registerOrders _, .orders
  | .cancelOrder _, .orders | .killOrders, .orders | .closeAll, .orders => true
  | _, _ => false

/-- The critical section of this action reads a part of the registry. -/
def Section.reads (c : Section) (x : Part) : Bool :=
  c.modifies x ||
    match c, x with
    | .dispatchMarket .., .byKey | .dispatchTrade .., .orders => true
    | _, _ => false

/-- How a subscription may change: it can be shut down, once. -/
structure Evolves (a b : Subscription) : Prop where
  topic : b.topic = a.topic
  securities : b.securities = a.securities
  closed : a.closed = true → b.closed = true
  closes : a.closes = a.closed.toNat → b.closes = b.closed.toNat

theorem Evolves.refl (a : Subscription) : Evolves a a := ⟨rfl, rfl, id, id⟩

theorem evolves_shutdown (a : Subscription) : Evolves a a.shutdown := by
  obtain ⟨htopic, -, hsecurities, -⟩ := a.shutdown_same
  refine ⟨htopic, hsecurities, fun _ => a.shutdown_closed, fun h => ?_⟩
  rw [Subscription.shutdown]
  split
  · exact h
  · rename_i hopen
    simp only [Bool.eq_false_of_not_eq_true hopen] at h
    simp [h]

theorem evolves_deliver (buffer : ℕ) (now : Time) (u : PushUpdate) (a : Subscription) :
    Evolves a (a.deliver buffer now u) := by
  rw [Subscription.deliver]
  split
  · exact .refl a
  · exact ⟨rfl, rfl, id, id⟩

/-- The market side of the registry is left alone. -/
structure KeepsMarket (s s' : Shared) : Prop where
  entries : s'.orch.entries = s.orch.entries
  byKey : s'.orch.byKey = s.orch.byKey
  heap : s'.orch.heap = s.orch.heap
  market : s'.orch.market = s.orch.market
  size : s'.orch.subs.size = s.orch.subs.size
  subs : ∀ i, Evolves (s.orch.subs.get i) (s'.orch.subs.get i)
  closed : s.orch.closed = true → s'.orch.closed = true
  gone : s'.gone = s.gone
  drained : s'.drained = s.drained

/-- The order side of the registry is left alone. -/
structure KeepsOrders (s s' : Shared) : Prop where
  orders : s'.orch.orders = s.orch.orders
  tradeSubs : s'.orch.tradeSubs = s.orch.tradeSubs
  tradeOn : s'.orch.tradeOn = s.orch.tradeOn

/-- Both sides of the registry as one value. -/
def Shared.registry (s : Shared) :=
  ((s.orch.entries, s.orch.byKey, s.orch.heap, s.orch.market, s.orch.subs, s.orch.closed, s.gone,
    s.drained), s.orch.orders, s.orch.tradeSubs, s.orch.tradeOn)

variable {s s' : Shared} {k : Work} {c : Section} {r : Reply} {x : Exit Section Work}

theorem keepsMarket_of_eq (h : s'.registry.1 = s.registry.1) : KeepsMarket s s' := by
  simp only [Shared.registry, Prod.mk.injEq] at h
  obtain ⟨hentries, hbyKey, hheap, hmarket, hsubs, hclosed, hgone, hdrained⟩ := h
  refine ⟨hentries, hbyKey, hheap, hmarket, by rw [hsubs], fun i => ?_, fun h => ?_, hgone, hdrained⟩
  · rw [hsubs]
    exact .refl _
  · rw [hclosed]
    exact h

theorem keepsOrders_of_eq (h : s'.registry.2 = s.registry.2) : KeepsOrders s s' := by
  simp only [Shared.registry, Prod.mk.injEq] at h
  exact ⟨h.1, h.2.1, h.2.2⟩

theorem keepsMarket_shutdown (s : Shared) (ids : List SubId) :
    KeepsMarket s (s.withOrch (s.orch.shutdown ids)) := by
  refine ⟨rfl, rfl, rfl, rfl, Heap.size_modifyAll _ _ _, fun i => ?_, id, rfl, rfl⟩
  by_cases hi : i ∈ ids
  · have hget : (s.orch.shutdown ids).subs.get i = (s.orch.subs.get i).shutdown :=
      Heap.get_modifyAll_of_idem _ Subscription.shutdown_shutdown hi
    exact hget ▸ evolves_shutdown _
  · have hget : (s.orch.shutdown ids).subs.get i = s.orch.subs.get i :=
      Heap.get_modifyAll_of_notMem _ _ hi
    exact hget ▸ .refl _

theorem keepsMarket_deliver (s : Shared) (now : Time) (u : PushUpdate) (i : SubId) :
    KeepsMarket s (s.withOrch (s.orch.deliver now u i)) := by
  refine ⟨rfl, rfl, rfl, rfl, rfl, fun j => ?_, id, rfl, rfl⟩
  have hget : (s.orch.deliver now u i).subs.get j = if j = i then
      (s.orch.subs.get i).deliver s.orch.buffer now u else s.orch.subs.get j :=
    Heap.get_modify _ _ _ _
  simp only [Shared.withOrch, hget]
  split
  · rename_i hji
    exact hji ▸ evolves_deliver _ _ _ _
  · exact .refl _

/-! ## A thread stays in its call -/

/-- What a thread is doing. -/
inductive Kind
  | subscribe
  | cancel
  | subscribeOrders
  | cancelOrder
  | reconnect
  | close
  | dispatch
  deriving DecidableEq

def Call.kind : Call → Kind
  | .subscribe .. => .subscribe
  | .cancel _ => .cancel
  | .subscribeOrders _ => .subscribeOrders
  | .cancelOrder _ => .cancelOrder
  | .reconnect _ => .reconnect
  | .close => .close
  | .dispatch .. | .transportError _ => .dispatch

def Section.kind : Section → Kind
  | .lookup _ | .request _ | .register .. => .subscribe
  | .cancel _ => .cancel
  | .lookupOrders _ | .requestOrders _ | .registerOrders _ => .subscribeOrders
  | .cancelOrder _ => .cancelOrder
  | .snapshot | .killEntry .. | .killOrders => .reconnect
  | .closeAll => .close
  | .dispatchMarket .. | .dispatchTrade .. | .recordUnrouted _ => .dispatch

def Work.kind : Work → Kind
  | .subscribe .. => .subscribe
  | .cancelShutdown .. | .cancelRequest _ => .cancel
  | .subscribeOrders _ => .subscribeOrders
  | .cancelOrderShutdown .. | .cancelOrderRequest _ => .cancelOrder
  | .reconnect _ | .reconnectReport _ | .resubscribe _ | .killShutdown .. | .killRequest ..
  | .killOrdersShutdown _ => .reconnect
  | .close | .closeFlag | .closeShutdown .. => .close
  | .handle .. | .deliver .. | .deliverOrder .. | .report _ => .dispatch

/-- The thread returns, or goes on with something of these kinds. -/
def ExitIn (K : Kind → Prop) : Exit Section Work → Prop
  | .ret => True
  | .enter c => K c.kind
  | .go k => K k.kind

/-- The thread is idle, or in a call of one of these kinds. -/
def InCalls (K : Kind → Prop) : Point Section Work → Prop
  | .idle => True
  | .wait c | .inside c => K c.kind
  | .leaving c x => K c.kind ∧ ExitIn K x
  | .work k => K k.kind

/-- If this is a call, then one of these kinds. -/
def CallsIn (K : Kind → Prop) : Action → Prop
  | .call _ a => K a.kind
  | .run _ _ => True

instance (K : Kind → Prop) [DecidablePred K] : DecidablePred (CallsIn K)
  | .call _ a => inferInstanceAs (Decidable (K a.kind))
  | .run _ _ => .isTrue trivial

variable {K : Kind → Prop}

theorem ExitIn.point {x : Exit Section Work} (h : ExitIn K x) : InCalls K x.point := by
  cases x <;> exact h

theorem start_kind {a : Call} (ha : K a.kind) {s : Shared} {x : Exit Section Work}
    (h : start a s = some x) : ExitIn K x := by
  cases a with
  | cancel sub | cancelOrder ord | dispatch u now =>
    obtain ⟨-, heq⟩ := Option.ite_none_right_eq_some.mp h
    cases heq
    exact ha
  | _ =>
    cases h
    exact ha

/-- The kind of what comes next in a call of a kind. -/
def exitKind (d : Kind) : Exit Section Work → Kind
  | .ret => d
  | .enter c => c.kind
  | .go k => k.kind

theorem exitIn_of_kind {d : Kind} (h : exitKind d x = d) (hd : K d) : ExitIn K x := by
  cases x with
  | ret => trivial
  | _ => exact (congrArg K h).mpr hd

/-! ## Frames -/

/-- **What an action outside the sections leaves alone**: the registry, its kind of call, and
`closeOnce` if it is not one of `Close`. -/
structure WorkFrame (k : Work) (s s' : Shared) (x : Exit Section Work) : Prop where
  market : KeepsMarket s s'
  orders : KeepsOrders s s'
  once : s'.closeOnce = s.closeOnce ∨ k = .close ∨ k = .closeShutdown [] []
  kind : exitKind k.kind x = k.kind

theorem WorkFrame.of_market (hmarket : KeepsMarket s s') (horders : s'.registry.2 = s.registry.2)
    (honce : s'.closeOnce = s.closeOnce) (hkind : exitKind k.kind x = k.kind) : WorkFrame k s s' x :=
  ⟨hmarket, keepsOrders_of_eq horders, .inl honce, hkind⟩

theorem WorkFrame.of_eq (h : s'.registry = s.registry) (honce : s'.closeOnce = s.closeOnce)
    (hkind : exitKind k.kind x = k.kind) : WorkFrame k s s' x :=
  .of_market (keepsMarket_of_eq (congrArg Prod.fst h)) (congrArg Prod.snd h) honce hkind

theorem work_frame (h : work k r s = some (s', x)) : WorkFrame k s s' x := by
  cases k with
  | subscribe | subscribeOrders | cancelOrderShutdown | reconnect =>
    simp only [work] at h
    split at h <;> cases h <;> exact .of_eq rfl rfl rfl
  | cancelShutdown sub last =>
    simp only [work] at h
    split at h
    · cases h
      exact .of_market (keepsMarket_shutdown s [sub]) rfl rfl rfl
    · split at h <;> cases h <;> exact .of_market (keepsMarket_shutdown s [sub]) rfl rfl rfl
  | cancelRequest | cancelOrderRequest | killRequest =>
    cases r <;> cases h <;> exact .of_eq rfl rfl rfl
  | resubscribe rest =>
    obtain ⟨_ | ⟨e, entries⟩, _ | account⟩ := rest <;> cases r <;> cases h <;>
      exact .of_eq rfl rfl rfl
  | killShutdown e doomed rest =>
    cases doomed with
    | nil =>
      cases h
      exact .of_eq rfl rfl rfl
    | cons i doomed =>
      cases h
      exact .of_market (keepsMarket_shutdown s [i]) rfl rfl rfl
  | killOrdersShutdown doomed => cases doomed <;> cases h <;> exact .of_eq rfl rfl rfl
  | close =>
    simp only [work] at h
    split at h <;> cases h <;>
      exact ⟨keepsMarket_of_eq rfl, keepsOrders_of_eq rfl, .inr (.inl rfl), rfl⟩
  -- the only write of the flag, and it can only be set
  | closeFlag =>
    cases h
    exact .of_market ⟨rfl, rfl, rfl, rfl, rfl, fun _ => .refl _, fun _ => rfl, rfl, rfl⟩ rfl rfl rfl
  | closeShutdown subs orders =>
    cases subs with
    | nil =>
      cases orders with
      | nil =>
        cases h
        exact ⟨keepsMarket_of_eq rfl, keepsOrders_of_eq rfl, .inr (.inr rfl), rfl⟩
      | cons ord orders =>
        cases h
        exact .of_eq rfl rfl rfl
    | cons i subs =>
      cases h
      exact .of_market (keepsMarket_shutdown s [i]) rfl rfl rfl
  | handle u now =>
    simp only [work] at h
    split at h
    · cases h
      exact .of_eq rfl rfl rfl
    · split at h <;> cases h <;> exact .of_eq rfl rfl rfl
  | deliver u now targets =>
    cases targets with
    | nil =>
      cases h
      exact .of_eq rfl rfl rfl
    | cons i targets =>
      cases h
      exact .of_market (keepsMarket_deliver s now u i) rfl rfl rfl
  | deliverOrder u now targets => cases targets <;> cases h <;> exact .of_eq rfl rfl rfl
  | _ =>
    cases h
    exact .of_eq rfl rfl rfl

/-- The kind of what comes next in the section of a kind. -/
def turnKind (d : Kind) : Turn Section Work → Kind
  | .stay c => c.kind
  | .leave x => exitKind d x

/-- **What the action of a section leaves alone.** The table is right about the parts of the
registry. -/
structure BodyFrame (c : Section) (s : Shared) (out : Shared × Turn Section Work) : Prop where
  market : c.modifies .byKey = false → KeepsMarket s out.1
  orders : c.modifies .orders = false → KeepsOrders s out.1
  once : out.1.closeOnce = s.closeOnce
  kind : turnKind c.kind out.2 = c.kind

theorem BodyFrame.of_eq {turn : Turn Section Work} (h : s'.registry = s.registry)
    (honce : s'.closeOnce = s.closeOnce) (hkind : turnKind c.kind turn = c.kind) :
    BodyFrame c s (s', turn) :=
  ⟨fun _ => keepsMarket_of_eq (congrArg Prod.fst h), fun _ => keepsOrders_of_eq (congrArg Prod.snd h),
    honce, hkind⟩

theorem BodyFrame.inCalls {out : Shared × Turn Section Work} (h : BodyFrame c s out) (hc : K c.kind) :
    InCalls K (out.2.point c) := by
  obtain ⟨s', turn⟩ := out
  have hkind := h.kind
  cases turn with
  | stay c' => exact (congrArg K hkind).mpr hc
  | leave x => exact ⟨hc, exitIn_of_kind hkind hc⟩

theorem body_frame [UnicodeTables] (c : Section) (r : Reply) (s : Shared) :
    BodyFrame c s (body c r s) := by
  cases c with
  | lookup q | lookupOrders account =>
    simp only [body]
    split
    · exact .of_eq rfl rfl rfl
    · split <;> exact .of_eq rfl rfl rfl
  | request q | requestOrders account => cases r <;> exact .of_eq rfl rfl rfl
  | register q found => cases found <;> exact ⟨by rintro ⟨⟩, fun _ => keepsOrders_of_eq rfl, rfl, rfl⟩
  | cancel sub =>
    simp only [body]
    split
    · exact .of_eq rfl rfl rfl
    · refine ⟨by rintro ⟨⟩, fun _ => ?_, rfl, rfl⟩
      obtain ⟨heap, entries, byKey, -, h⟩ := s.orch.detachLocked_frame sub
      rw [h]
      exact keepsOrders_of_eq rfl
  | registerOrders account =>
    refine ⟨fun _ => ?_, by rintro ⟨⟩, rfl, rfl⟩
    simp only [body, PushOrchestration.registerOrder]
    split <;> exact keepsMarket_of_eq rfl
  | cancelOrder ord =>
    simp only [body]
    split
    · exact .of_eq rfl rfl rfl
    · exact ⟨fun _ => keepsMarket_of_eq rfl, by rintro ⟨⟩, rfl, rfl⟩
  | dispatchMarket u now =>
    simp only [body]
    split <;> exact .of_eq rfl rfl rfl
  | killOrders => exact ⟨fun _ => keepsMarket_of_eq rfl, by rintro ⟨⟩, rfl, rfl⟩
  | killEntry e rest => exact ⟨by rintro ⟨⟩, fun _ => keepsOrders_of_eq rfl, rfl, rfl⟩
  | closeAll => exact ⟨by rintro ⟨⟩, by rintro ⟨⟩, rfl, rfl⟩
  | _ => exact .of_eq rfl rfl rfl

end HstongApi.PushThreads
