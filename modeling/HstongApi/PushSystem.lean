import HstongApi.Locks
import HstongApi.Lossy
import HstongApi.PushThreads

/-!
# The push orchestration down to its locks and channels

`PushOrchestration` (`pkg/services/push.go`) as threads that may be interrupted between any two
of their actions, where a delivery and a report are no longer one action: to send on a channel
without blocking, to take the oldest value off it and to send again are three actions, between
which a consumer may receive. The locks are those of the source and are nested as there:

* `Cancel` asks under `subMu` whether the subscription is closed, which takes the lock of the
  subscription;
* `report` counts a lost error under `mu` while it holds `errcMu`;
* `closeOnce` is a mutex that is held while `Close` runs, and a flag that says that it has run;
* `wg` counts one goroutine, the one that drains the errors of the transport. It is held by this
  goroutine until it ends, so that to wait for it is to take it.

A request to the Gateway returns, with a reply that is the Gateway's choice, and so does the
`Close` of the transport. The consumers of the channels are not threads of the orchestration: a
receive is an event from outside, like a call.

The registry is the one of `PushRegistry`. What the lock of a subscription protects is kept here
in an `Inbox`; the inbox of a subscription that was not made yet is empty.
-/

namespace HstongApi.PushSystem

open Locks
open PushThreads (Request Rest)

/-! ## State -/

/-- The channel of a subscription and what its lock protects. -/
structure Inbox where
  chan : Lossy PushUpdate := {}
  closed : Bool := false
  dropped : ℕ := 0
  lastSeen : Time := 0

/-- The inbox of a `Subscription`. -/
structure MarketInbox extends Inbox where
  outOfOrder : ℕ := 0
  lastUpdate : Bytes := []
  lastWire : Time := 0

/-- The inbox of an `OrderSubscription`. -/
structure OrderInbox extends Inbox where
  backlogRaised : Bool := false

/-- What the threads share. -/
structure Shared where
  orch : PushOrchestration
  markets : SubId → MarketInbox := fun _ => {}
  orders : OrderId → OrderInbox := fun _ => {}
  errc : Lossy StreamError := {}
  /-- how often `closeCh` was closed -/
  closeCh : ℕ := 0
  /-- `closeOnce` has run -/
  closeDone : Bool := false
  /-- the number of reports of an error that is not nil -/
  reports : ℕ := 0
  /-- the number of those that found the orchestration closed -/
  refused : ℕ := 0
  /-- the errors of the reports, in the order in which these took `errcMu` -/
  taken : List StreamError := []

/-- A subscription of either kind. -/
inductive Port
  | market (sub : SubId)
  | order (ord : OrderId)
  deriving DecidableEq

/-- The locks. -/
inductive Mutex
  | closeOnce
  | wg
  | subMu
  /-- the lock of a subscription -/
  | port (p : Port)
  | errcMu
  | mu
  deriving DecidableEq

/-! ## Actions -/

/-- What comes after a report. -/
inductive After
  /-- the call returns -/
  | ret
  /-- the drain goroutine waits for the next error of the transport -/
  | drain
  /-- `onReconnect` goes on with `resubscribeAll` -/
  | snapshot
  /-- `resubscribeAll` goes on with `killEntry` -/
  | kill (e : EntryId) (rest : Rest)
  /-- with `killOrders` -/
  | killOrders
  /-- with the next entry -/
  | resubscribe (rest : Rest)
  /-- the loop of `dispatchMarket` -/
  | deliver (u : PushUpdate) (now : Time) (targets : List SubId)
  /-- the loop of `dispatchTrade` -/
  | deliverOrder (u : PushUpdate) (now : Time) (targets : List OrderId)
  deriving DecidableEq

/-- For what subscriptions are shut down. -/
inductive Release
  /-- `Subscription.Cancel`, with the entry whose last subscriber left -/
  | cancel (last : Option EntryId)
  /-- `OrderSubscription.Cancel` -/
  | cancelOrder (last : Bool) (account : AccountId)
  | kill (e : EntryId) (rest : Rest)
  | killOrders
  | close
  deriving DecidableEq

/-- The attempts of a delivery. A market delivery remembers whether its update is the first one
out of order. -/
inductive Attempt
  | send
  | discard (late : Bool)
  | resend (late : Bool)
  deriving DecidableEq

/-- The atomic actions. -/
inductive Act
  /-- in no call -/
  | idle
  /-- the `select` of `drainTransportErrors` -/
  | drain
  /-- `Subscribe`: the checks before the lock -/
  | subscribe (topic : TopicID) (sec : List (Option Security))
  /-- `subscribeUnderLock`: the closed flag, and the entry under the key -/
  | lookup (q : Request)
  /-- its request -/
  | request (q : Request)
  /-- the new subscription -/
  | register (q : Request) (found : Option EntryId)
  /-- `Subscription.Cancel`: `isClosed` -/
  | isClosed (sub : SubId)
  /-- `detachLocked` -/
  | detach (sub : SubId)
  /-- its request -/
  | cancelRequest (e : EntryId)
  /-- `SubscribeOrders`: the checks before the lock -/
  | subscribeOrders (account : AccountId)
  /-- `subscribeOrdersUnderLock`: the closed flag, and `tradeOn` -/
  | lookupOrders (account : AccountId)
  /-- its request -/
  | requestOrders (account : AccountId)
  /-- the new order subscription -/
  | registerOrders (account : AccountId)
  /-- `OrderSubscription.Cancel`: `isClosed` -/
  | orderIsClosed (ord : OrderId)
  /-- the section after it -/
  | detachOrder (ord : OrderId)
  /-- its request -/
  | cancelOrderRequest (account : AccountId)
  /-- `onReconnect`: the closed flag -/
  | reconnect (cause : Option Bytes)
  /-- the snapshot of `resubscribeAll` -/
  | snapshot
  /-- its loop: one request -/
  | resubscribe (rest : Rest)
  /-- `killEntry` -/
  | killEntry (e : EntryId) (rest : Rest)
  /-- its request -/
  | killRequest (e : EntryId) (rest : Rest)
  /-- `killOrders` -/
  | killOrders
  /-- `Close`: `closeOnce` asks whether it has run, before its lock -/
  | close
  /-- and under its lock -/
  | closeOnce
  /-- the closed flag -/
  | closeFlag
  /-- `closeCh` -/
  | closeChannel
  /-- the `Close` of the transport -/
  | transportClose
  /-- `closeAll` -/
  | closeAll
  /-- the error stream -/
  | closeErrors
  /-- `closeOnce` has run -/
  | closeDone
  /-- subscriptions to be shut down -/
  | shutdowns (subs : List SubId) (orders : List OrderId) (after : Release)
  /-- `Subscription.shutdown` -/
  | shutdown (sub : SubId) (subs : List SubId) (orders : List OrderId) (after : Release)
  /-- `OrderSubscription.shutdown` -/
  | shutdownOrder (ord : OrderId) (orders : List OrderId) (after : Release)
  /-- the handler of a payload type -/
  | handle (u : PushUpdate) (now : Time)
  /-- `dispatchMarket` collects its targets -/
  | dispatchMarket (u : PushUpdate) (now : Time)
  /-- `dispatchTrade` collects its targets -/
  | dispatchTrade (u : PushUpdate) (now : Time)
  /-- `recordUnrouted` -/
  | recordUnrouted (u : PushUpdate)
  /-- the loop of `dispatchMarket` -/
  | deliver (u : PushUpdate) (now : Time) (targets : List SubId)
  /-- `Subscription.deliver` -/
  | deliverTo (u : PushUpdate) (now : Time) (sub : SubId) (targets : List SubId) (attempt : Attempt)
  /-- `wireStamp` -/
  | wireStamp (u : PushUpdate) (now : Time) (sub : SubId) (targets : List SubId)
  /-- the loop of `dispatchTrade` -/
  | deliverOrder (u : PushUpdate) (now : Time) (targets : List OrderId)
  /-- `OrderSubscription.deliver` -/
  | deliverOrderTo (u : PushUpdate) (now : Time) (ord : OrderId) (targets : List OrderId)
    (attempt : Attempt)
  /-- `report`: is there an error? -/
  | report (err : Option StreamError) (after : After)
  /-- the closed flag, under the lock -/
  | reportCheck (err : StreamError) (after : After)
  /-- the three attempts -/
  | reportSend (err : StreamError) (after : After)
  | reportDiscard (err : StreamError) (after : After)
  /-- the count of a lost error -/
  | reportCount (err : StreamError) (after : After)
  | reportResend (err : StreamError) (after : After)
  deriving DecidableEq

/-- What a thread has before it. -/
abbrev Next : Type := Code Act Mutex

/-- What a thread does after a report. -/
def After.code : After → Next
  | .ret => .act .idle
  | .drain => .act .drain
  | .snapshot => .lock .subMu (.act .snapshot)
  | .kill e rest => .lock .subMu (.act (.killEntry e rest))
  | .killOrders => .lock .subMu (.act .killOrders)
  | .resubscribe rest => .act (.resubscribe rest)
  | .deliver u now targets => .act (.deliver u now targets)
  | .deliverOrder u now targets => .act (.deliverOrder u now targets)

/-- What a thread does when all subscriptions are shut down. Only the last holder of an accepted
entry, and the last order subscription, go on to a request. -/
def Release.code (o : PushOrchestration) : Release → Next
  | .cancel none => .act .idle
  | .cancel (some e) =>
    if !(o.heap.get e).subscribed || !o.market then .act .idle else .act (.cancelRequest e)
  | .cancelOrder last account =>
    if !last || !o.trade then .act .idle else .act (.cancelOrderRequest account)
  | .kill e rest => .act (.killRequest e rest)
  | .killOrders => .act .idle
  | .close => .lock .errcMu (.act .closeErrors)

namespace Shared

/-- The orchestration does something. -/
def withOrch (s : Shared) (o : PushOrchestration) : Shared := { s with orch := o }

def setMarket (s : Shared) (sub : SubId) (inbox : MarketInbox) : Shared :=
  { s with markets := Function.update s.markets sub inbox }

def setOrder (s : Shared) (ord : OrderId) (inbox : OrderInbox) : Shared :=
  { s with orders := Function.update s.orders ord inbox }

end Shared

namespace MarketInbox

/-- The wire time of the frame is older than one accepted before. -/
def isLate (u : PushUpdate) (b : MarketInbox) : Bool :=
  u.time ≠ 0 && b.lastWire ≠ 0 && u.time < b.lastWire

/-- The part of `deliver` before the channel. -/
def noteTimes (now : Time) (u : PushUpdate) (b : MarketInbox) : MarketInbox :=
  { b with
    outOfOrder := if b.isLate u then b.outOfOrder + 1 else b.outOfOrder
    lastWire := if u.time = 0 || b.isLate u then b.lastWire else u.time
    lastSeen := now
    lastUpdate := (u.event.bind eventTimestamp).getD b.lastUpdate }

/-- `shutdown` -/
def shutdown (b : MarketInbox) : MarketInbox :=
  if b.closed then b else { b with closed := true, chan := b.chan.close }

end MarketInbox

/-- `OrderSubscription.shutdown` -/
def OrderInbox.shutdown (b : OrderInbox) : OrderInbox :=
  if b.closed then b else { b with closed := true, chan := b.chan.close }

/-- What a market delivery does when it has released the lock: the first frame out of order is
reported, with a time that is read under the lock again. -/
def delivered (u : PushUpdate) (now : Time) (sub : SubId) (targets : List SubId) (late : Bool) :
    Next :=
  if late then .lock (.port (.market sub)) (.act (.wireStamp u now sub targets))
  else .act (.deliver u now targets)

section

variable [UnicodeTables]

/-- **The actions.** -/
def act : Act → Reply → Shared → Option (Shared × Next)
  | .idle, _, _ => none
  -- it blocks until `closeCh` is closed
  | .drain, _, s => if 0 < s.closeCh then some (s, .unlock .wg (.act .idle)) else none
  | .subscribe topic sec, _, s =>
    match s.orch.checkSubscribe topic sec with
    | .error _ => some (s, .act .idle)
    | .ok (msgType, securities) =>
      some (s, .lock .subMu (.act (.lookup ⟨topic, msgType, securities⟩)))
  | .lookup q, _, s =>
    if s.orch.closed then some (s, .unlock .subMu (.act .idle))
    else
      match s.orch.entries.lookup q.key with
      | some e => some (s, .act (.register q (some e)))
      | none => some (s, .act (.request q))
  | .request _, some _, s => some (s, .unlock .subMu (.act .idle))
  | .request q, none, s => some (s, .act (.register q none))
  | .register q found, _, s =>
    some (s.withOrch (s.orch.register found q.topic q.msgType q.securities),
      .unlock .subMu (.act .idle))
  | .isClosed sub, _, s =>
    some (s, .unlock (.port (.market sub))
      (if (s.markets sub).closed then .unlock .subMu (.act .idle) else .act (.detach sub)))
  | .detach sub, _, s =>
    some (s.withOrch (s.orch.detachLocked sub).1,
      .unlock .subMu (.act (.shutdowns [sub] [] (.cancel (s.orch.detachLocked sub).2))))
  | .cancelRequest _, none, s => some (s, .act .idle)
  | .cancelRequest e, some cause, s =>
    let entry := s.orch.heap.get e
    some (s, .act (.report (some (.unsubscribe entry.topic (keyList entry.securities) cause)) .ret))
  | .subscribeOrders account, _, s =>
    match s.orch.checkSubscribeOrders account with
    | .error _ => some (s, .act .idle)
    | .ok () => some (s, .lock .subMu (.act (.lookupOrders account)))
  | .lookupOrders account, _, s =>
    if s.orch.closed then some (s, .unlock .subMu (.act .idle))
    else if s.orch.tradeOn then some (s, .act (.registerOrders account))
    else some (s, .act (.requestOrders account))
  | .requestOrders _, some _, s => some (s, .unlock .subMu (.act .idle))
  | .requestOrders account, none, s => some (s, .act (.registerOrders account))
  | .registerOrders account, _, s =>
    some (s.withOrch (s.orch.registerOrder account), .unlock .subMu (.act .idle))
  | .orderIsClosed ord, _, s =>
    some (s, .unlock (.port (.order ord))
      (if (s.orders ord).closed then .unlock .subMu (.act .idle) else .act (.detachOrder ord)))
  | .detachOrder ord, _, s =>
    let o := s.orch.cancelOrderSection ord
    some (s.withOrch o, .unlock .subMu
      (.act (.shutdowns [] [ord] (.cancelOrder (decide (o.tradeSubs ≤ 0)) o.tradeAccount))))
  | .cancelOrderRequest _, none, s => some (s, .act .idle)
  | .cancelOrderRequest account, some cause, s =>
    some (s, .act (.report (some (.unsubscribeOrders account cause)) .ret))
  | .reconnect cause, _, s =>
    if s.orch.closed then some (s, .act .idle)
    else some (s, .act (.report (some (.reconnected cause)) .snapshot))
  | .snapshot, _, s =>
    let account := if s.orch.tradeOn && s.orch.trade then some s.orch.tradeAccount else none
    some (s, .unlock .subMu (.act (.resubscribe ⟨s.orch.snapshot, account⟩)))
  -- one request for each entry of the snapshot, then one for order push
  | .resubscribe ⟨_ :: entries, account⟩, none, s => some (s, .act (.resubscribe ⟨entries, account⟩))
  | .resubscribe ⟨e :: entries, account⟩, some cause, s =>
    let entry := s.orch.heap.get e
    some (s, .act (.report (some (.resubscribe entry.topic (keyList entry.securities) cause))
      (.kill e ⟨entries, account⟩)))
  | .resubscribe ⟨[], none⟩, _, s => some (s, .act .idle)
  | .resubscribe ⟨[], some _⟩, none, s => some (s, .act .idle)
  | .resubscribe ⟨[], some account⟩, some cause, s =>
    some (s, .act (.report (some (.resubscribeOrders account cause)) .killOrders))
  | .killEntry e rest, _, s =>
    some (s.withOrch (s.orch.killSection e),
      .unlock .subMu (.act (.shutdowns (s.orch.heap.get e).subs [] (.kill e rest))))
  | .killRequest _ rest, none, s => some (s, .act (.resubscribe rest))
  | .killRequest e rest, some cause, s =>
    let entry := s.orch.heap.get e
    some (s, .act (.report (some (.unsubscribeRefused entry.topic (keyList entry.securities) cause))
      (.resubscribe rest)))
  | .killOrders, _, s =>
    some (s.withOrch s.orch.killOrdersSection,
      .unlock .subMu (.act (.shutdowns [] s.orch.orders .killOrders)))
  | .close, _, s =>
    if s.closeDone then some (s, .act .idle) else some (s, .lock .closeOnce (.act .closeOnce))
  | .closeOnce, _, s =>
    if s.closeDone then some (s, .unlock .closeOnce (.act .idle)) else some (s, .act .closeFlag)
  | .closeFlag, _, s => some (s.withOrch { s.orch with closed := true }, .act .closeChannel)
  | .closeChannel, _, s => some ({ s with closeCh := s.closeCh + 1 }, .act .transportClose)
  -- then it waits for the drain goroutine
  | .transportClose, _, s => some (s, .lock .wg (.unlock .wg (.lock .subMu (.act .closeAll))))
  | .closeAll, _, s =>
    some (s.withOrch s.orch.drain,
      .unlock .subMu (.act (.shutdowns s.orch.drained s.orch.orders .close)))
  | .closeErrors, _, s => some ({ s with errc := s.errc.close }, .unlock .errcMu (.act .closeDone))
  | .closeDone, _, s => some ({ s with closeDone := true }, .unlock .closeOnce (.act .idle))
  | .shutdowns (sub :: subs) orders after, _, s =>
    some (s, .lock (.port (.market sub)) (.act (.shutdown sub subs orders after)))
  | .shutdowns [] (ord :: orders) after, _, s =>
    some (s, .lock (.port (.order ord)) (.act (.shutdownOrder ord orders after)))
  | .shutdowns [] [] after, _, s => some (s, after.code s.orch)
  | .shutdown sub subs orders after, _, s =>
    some (s.setMarket sub (s.markets sub).shutdown,
      .unlock (.port (.market sub)) (.act (.shutdowns subs orders after)))
  | .shutdownOrder ord orders after, _, s =>
    some (s.setOrder ord (s.orders ord).shutdown,
      .unlock (.port (.order ord)) (.act (.shutdowns [] orders after)))
  | .handle u now, _, s =>
    if u.event = none then some (s, .act .idle)
    else if isTradeNotifyType u.type then some (s, .lock .mu (.act (.dispatchTrade u now)))
    else some (s, .lock .mu (.act (.dispatchMarket u now)))
  | .dispatchMarket u now, _, s =>
    match s.orch.marketTargets u with
    | [] => some (s, .unlock .mu (.lock .mu (.act (.recordUnrouted u))))
    | sub :: targets => some (s, .unlock .mu (.act (.deliver u now (sub :: targets))))
  | .dispatchTrade u now, _, s => some (s, .unlock .mu (.act (.deliverOrder u now s.orch.orders)))
  | .recordUnrouted u, _, s =>
    some (s.withOrch (s.orch.countUnrouted u),
      .unlock .mu (.act (.report (s.orch.unroutedReport u) .ret)))
  | .deliver _ _ [], _, s => some (s, .act .idle)
  | .deliver u now (sub :: targets), _, s =>
    some (s, .lock (.port (.market sub)) (.act (.deliverTo u now sub targets .send)))
  | .deliverTo u now sub targets .send, _, s =>
    let b := s.markets sub
    if b.closed then some (s, .unlock (.port (.market sub)) (.act (.deliver u now targets)))
    else
      let late := b.isLate u && b.outOfOrder = 0
      some (s.setMarket sub { b.noteTimes now u with chan := b.chan.send s.orch.buffer u },
        if b.chan.queue.length < s.orch.buffer then
          .unlock (.port (.market sub)) (delivered u now sub targets late)
        else .act (.deliverTo u now sub targets (.discard late)))
  | .deliverTo u now sub targets (.discard late), _, s =>
    let b := s.markets sub
    some (s.setMarket sub { b with chan := b.chan.discard },
      .act (.deliverTo u now sub targets (.resend late)))
  -- the count does not ask whether anything was discarded
  | .deliverTo u now sub targets (.resend late), _, s =>
    let b := s.markets sub
    some (s.setMarket sub { b with chan := b.chan.resend s.orch.buffer u, dropped := b.dropped + 1 },
      .unlock (.port (.market sub)) (delivered u now sub targets late))
  | .wireStamp u now sub targets, _, s =>
    let late := .updateOutOfOrder (s.orch.subs.get sub).topic u.time (s.markets sub).lastWire
    some (s, .unlock (.port (.market sub)) (.act (.report (some late) (.deliver u now targets))))
  | .deliverOrder _ _ [], _, s => some (s, .act .idle)
  | .deliverOrder u now (ord :: targets), _, s =>
    some (s, .lock (.port (.order ord)) (.act (.deliverOrderTo u now ord targets .send)))
  | .deliverOrderTo u now ord targets .send, _, s =>
    let b := s.orders ord
    if b.closed then some (s, .unlock (.port (.order ord)) (.act (.deliverOrder u now targets)))
    else
      some (s.setOrder ord { b with lastSeen := now, chan := b.chan.send s.orch.buffer u },
        if b.chan.queue.length < s.orch.buffer then
          .unlock (.port (.order ord)) (.act (.deliverOrder u now targets))
        else .act (.deliverOrderTo u now ord targets (.discard false)))
  | .deliverOrderTo u now ord targets (.discard late), _, s =>
    let b := s.orders ord
    some (s.setOrder ord { b with chan := b.chan.discard },
      .act (.deliverOrderTo u now ord targets (.resend late)))
  | .deliverOrderTo u now ord targets (.resend _), _, s =>
    let b := s.orders ord
    let backlog := .tradeBacklog (s.orch.orderSubs.get ord).accountID s.orch.buffer (b.dropped + 1)
    some (s.setOrder ord { b with
        chan := b.chan.resend s.orch.buffer u, dropped := b.dropped + 1, backlogRaised := true },
      .unlock (.port (.order ord))
        (if b.backlogRaised then .act (.deliverOrder u now targets)
          else .act (.report (some backlog) (.deliverOrder u now targets))))
  | .report none after, _, s => some (s, after.code)
  | .report (some err) after, _, s =>
    some ({ s with reports := s.reports + 1 }, .lock .errcMu (.act (.reportCheck err after)))
  | .reportCheck err after, _, s =>
    let s := { s with taken := s.taken ++ [err] }
    if s.orch.closed then some ({ s with refused := s.refused + 1 }, .unlock .errcMu after.code)
    else some (s, .act (.reportSend err after))
  | .reportSend err after, _, s =>
    some ({ s with errc := s.errc.send defaultPushBuffer err },
      if s.errc.queue.length < defaultPushBuffer then .unlock .errcMu after.code
      else .act (.reportDiscard err after))
  -- a receive from a closed channel succeeds, too
  | .reportDiscard err after, _, s =>
    some ({ s with errc := s.errc.discard },
      if s.errc.queue = [] && !s.errc.isClosed then .act (.reportResend err after)
      else .lock .mu (.act (.reportCount err after)))
  | .reportCount err after, _, s =>
    some (s.withOrch { s.orch with errsDrop := s.orch.errsDrop + 1 },
      .unlock .mu (.act (.reportResend err after)))
  | .reportResend err after, _, s =>
    some ({ s with errc := s.errc.resend defaultPushBuffer err }, .unlock .errcMu after.code)

/-- What comes from outside. -/
inductive Call
  | subscribe (topic : TopicID) (sec : List (Option Security))
  | cancel (sub : SubId)
  | subscribeOrders (account : AccountId)
  | cancelOrder (ord : OrderId)
  | reconnect (cause : Option Bytes)
  | close
  | dispatch (u : PushUpdate) (now : Time)
  /-- the drain goroutine receives an error of the transport, or nil -/
  | transportError (cause : Option Bytes)
  /-- the transport has closed its errors -/
  | transportErrorsClosed
  /-- the consumer of a channel receives -/
  | receive (sub : SubId)
  | receiveOrder (ord : OrderId)
  | receiveError
  deriving DecidableEq

omit [UnicodeTables] in
/-- **The calls.** A pointer must point to an object that was allocated, only installed handlers
are called, and to receive there must be something to receive. -/
def call : Call → Act → Shared → Option (Shared × Next)
  | .subscribe topic sec, .idle, s => some (s, .act (.subscribe topic sec))
  | .cancel sub, .idle, s =>
    if sub < s.orch.subs.size then
      some (s, .lock .subMu (.lock (.port (.market sub)) (.act (.isClosed sub))))
    else none
  | .subscribeOrders account, .idle, s => some (s, .act (.subscribeOrders account))
  | .cancelOrder ord, .idle, s =>
    if ord < s.orch.orderSubs.size then
      some (s, .lock .subMu (.lock (.port (.order ord)) (.act (.orderIsClosed ord))))
    else none
  | .reconnect cause, .idle, s => some (s, .act (.reconnect cause))
  | .close, .idle, s => some (s, .act .close)
  | .dispatch u now, .idle, s =>
    if s.orch.installed u.type then some (s, .act (.handle u now)) else none
  | .transportError cause, .drain, s => some (s, .act (.report (cause.map .transport) .drain))
  | .transportErrorsClosed, .drain, s => some (s, .unlock .wg (.act .idle))
  | .receive sub, .idle, s =>
    let b := s.markets sub
    if b.chan.queue = [] then none
    else some (s.setMarket sub { b with chan := b.chan.receive }, .act .idle)
  | .receiveOrder ord, .idle, s =>
    let b := s.orders ord
    if b.chan.queue = [] then none
    else some (s.setOrder ord { b with chan := b.chan.receive }, .act .idle)
  | .receiveError, .idle, s =>
    if s.errc.queue = [] then none else some ({ s with errc := s.errc.receive }, .act .idle)
  | _, _, _ => none

/-- The push orchestration as a program. -/
def program : Program Act Mutex Shared Reply Call := ⟨call, act⟩

/-- The threads are numbered; thread 0 is the drain goroutine. -/
abbrev System : Type := State Act Mutex Shared ℕ

/-- A thread is called, or goes on and gets a reply if its action is a request. -/
abbrev Action : Type := Event Reply Call ℕ

/-- One step of the system. -/
def step : System → Action → Option System := program.step

end

/-- A new orchestration. If there is a transport, the drain goroutine is running. -/
def init (market trade transport : Bool) (n : ℤ) : System where
  shared := { orch := .new market trade transport n }
  holder m := if m = .wg ∧ transport = true then some 0 else none
  code t := if t = 0 ∧ transport = true then .act .drain else .act .idle

/-! ## Locks -/

/-- What is held after a report: the drain goroutine runs until `wg` is released. -/
def After.held : After → List Mutex
  | .drain => [.wg]
  | _ => []

def Release.held : Release → List Mutex
  | .close => [.closeOnce]
  | _ => []

/-- The locks that are held at an action, the last one taken first. -/
def Act.held : Act → List Mutex
  | .drain => [.wg]
  | .lookup _ | .request _ | .register _ _ | .detach _ => [.subMu]
  | .lookupOrders _ | .requestOrders _ | .registerOrders _ | .detachOrder _ => [.subMu]
  | .snapshot | .killEntry _ _ | .killOrders => [.subMu]
  | .isClosed sub => [.port (.market sub), .subMu]
  | .orderIsClosed ord => [.port (.order ord), .subMu]
  | .closeOnce | .closeFlag | .closeChannel | .transportClose | .closeDone => [.closeOnce]
  | .closeAll => [.subMu, .closeOnce]
  | .closeErrors => [.errcMu, .closeOnce]
  | .shutdowns _ _ after => after.held
  | .shutdown sub _ _ after => .port (.market sub) :: after.held
  | .shutdownOrder ord _ after => .port (.order ord) :: after.held
  | .dispatchMarket _ _ | .dispatchTrade _ _ | .recordUnrouted _ => [.mu]
  | .deliverTo _ _ sub _ _ | .wireStamp _ _ sub _ => [.port (.market sub)]
  | .deliverOrderTo _ _ ord _ _ => [.port (.order ord)]
  | .report _ after => after.held
  | .reportCheck _ after | .reportSend _ after | .reportDiscard _ after | .reportResend _ after =>
    .errcMu :: after.held
  | .reportCount _ after => .mu :: .errcMu :: after.held
  | _ => []

/-- Where a report stands that has passed its check. -/
inductive Stage
  | send
  | discard
  | count
  | resend
  deriving DecidableEq

/-- Where `Close` stands. -/
inductive Closing
  /-- before the closed flag is set -/
  | flag
  /-- before `closeCh` is closed -/
  | channel
  /-- before the error stream is closed -/
  | errors
  /-- at its end -/
  | done
  deriving DecidableEq

/-- What an action is about that is not the only one under its lock. -/
inductive Guard
  | free
  /-- a report on its way to its check -/
  | asking
  /-- a delivery that found the channel full, before or after its discard -/
  | offering (p : Port) (u : PushUpdate) (discarded : Bool)
  | reporting (err : StreamError) (stage : Stage)
  | closing (stage : Closing)
  deriving DecidableEq

/-- The guard of an attempt. -/
def Attempt.guard (p : Port) (u : PushUpdate) : Attempt → Guard
  | .send => .free
  | .discard _ => .offering p u false
  | .resend _ => .offering p u true

def Release.guard : Release → Guard
  | .close => .closing .errors
  | _ => .free

def Act.guard : Act → Guard
  | .closeFlag => .closing .flag
  | .closeChannel => .closing .channel
  | .transportClose | .closeAll | .closeErrors => .closing .errors
  | .closeDone => .closing .done
  | .shutdowns _ _ after | .shutdown _ _ _ after | .shutdownOrder _ _ after => after.guard
  | .deliverTo u _ sub _ attempt => attempt.guard (.market sub) u
  | .deliverOrderTo u _ ord _ attempt => attempt.guard (.order ord) u
  | .reportCheck _ _ => .asking
  | .reportSend err _ => .reporting err .send
  | .reportDiscard err _ => .reporting err .discard
  | .reportCount err _ => .reporting err .count
  | .reportResend err _ => .reporting err .resend
  | _ => .free

/-- The lock that is held from the action before it. -/
def Guard.locks : Guard → List Mutex
  | .free | .asking => []
  | .offering p _ _ => [.port p]
  | .reporting _ _ => [.errcMu]
  | .closing _ => [.closeOnce]

/-- The order of the locks. -/
def Mutex.rank : Mutex → ℕ
  | .closeOnce => 0
  | .wg => 1
  | .subMu => 2
  | .port _ => 3
  | .errcMu => 4
  | .mu => 5

/-- **The locks of the orchestration.** Only `Close` waits for the drain goroutine. -/
@[simps] def plan : Plan Act Mutex where
  held := Act.held
  kept a := a.guard.locks
  may m a := m = .wg → a.guard = .closing .errors
  rank := Mutex.rank

theorem After.code_fits (after : After) :
    plan.Fits after.code ∧ plan.heldAt after.code = after.held ∧ after.code.next.guard = .free := by
  cases after <;> simp [After.code, After.held, Act.held, Act.guard, Guard.locks]

theorem Release.code_fits (o : PushOrchestration) (after : Release) :
    plan.Fits (after.code o) ∧ plan.heldAt (after.code o) = after.held ∧
      (after.code o).next.guard = after.guard := by
  have hidle : plan.Fits (.act .idle) := by simp [Act.guard, Guard.locks]
  cases after with
  | cancel last =>
    cases last with
    | none => exact ⟨hidle, rfl, rfl⟩
    | some e =>
      simp only [Release.code]
      split
      · exact ⟨hidle, rfl, rfl⟩
      · exact ⟨hidle, rfl, rfl⟩
  | cancelOrder last account =>
    simp only [Release.code]
    split
    · exact ⟨hidle, rfl, rfl⟩
    · exact ⟨hidle, rfl, rfl⟩
  | kill | killOrders => exact ⟨hidle, rfl, rfl⟩
  | close =>
    refine ⟨?_, rfl, rfl⟩
    simp [Release.code, Act.held, Act.guard, Guard.locks, Mutex.rank]

end HstongApi.PushSystem
