import HstongApi.PushKeys

/-!
# The state of the push orchestration and its critical sections

The registry of `PushOrchestration` (`pkg/services/push.go`) and what the code does to
it in one piece: each function here is the body of one critical section, or a piece of
work on one subscription under that subscription's own lock. The calls of the API are
put together from these pieces twice, as atomic operations and as threads that may be
interrupted between them.

Entries and subscriptions are shared by pointers in the source, and the pointer of a
registry entry can outlive its place in the registry (a reconnect works on a snapshot),
so they live on heaps. Besides the fields of the source a subscription counts how often
its channel was closed.
-/

namespace HstongApi

/-- A `*Subscription`. -/
abbrev SubId : Type := ℕ

/-- An `*OrderSubscription`. -/
abbrev OrderId : Type := ℕ

/-- A `*pushEntry`. -/
abbrev EntryId : Type := ℕ

/-- A `domain.AccountID`. -/
abbrev AccountId : Type := Bytes

/-- `DefaultPushBuffer` -/
def defaultPushBuffer : ℕ := 64

/-- `unroutedReportCap` -/
def unroutedReportCap : ℕ := 64

/-- The errors of the client stream: the sentinel, and what the message says. -/
inductive StreamError where
  /-- `ErrReconnected`, with the error that ended the connection if there was one -/
  | reconnected (cause : Option Bytes)
  /-- `ErrUnrouted`: no subscription for the type, the id and the code -/
  | unrouted (type : NotifyMsgType) (id code : Bytes)
  /-- `ErrTradeBacklog`: the account, the depth of its buffer, the running total -/
  | tradeBacklog (account : AccountId) (buffer dropped : ℕ)
  /-- `ErrSubscriptionLost`: resubscribe topicId for the codes after reconnect -/
  | resubscribe (topic : TopicID) (codes cause : Bytes)
  /-- `ErrSubscriptionLost`: resubscribe session-wide order push for the account -/
  | resubscribeOrders (account : AccountId) (cause : Bytes)
  /-- `ErrSubscriptionLost`: unsubscribe topicId for the codes after a failed
  re-subscribe -/
  | unsubscribeRefused (topic : TopicID) (codes cause : Bytes)
  /-- `ErrSubscriptionLost`: unsubscribe topicId for the codes -/
  | unsubscribe (topic : TopicID) (codes cause : Bytes)
  /-- `ErrSubscriptionLost`: unsubscribe session-wide order push for the account -/
  | unsubscribeOrders (account : AccountId) (cause : Bytes)
  /-- `ErrUpdateOutOfOrder`: the topic accepted a frame stamped before the last one -/
  | updateOutOfOrder (topic : TopicID) (time lastWire : Time)
  /-- an error of the transport, forwarded verbatim -/
  | transport (cause : Bytes)
  deriving DecidableEq

/-- `keyList` -/
def keyList (securities : List Security) : Bytes := join (securities.map (·.code)) (bytes ", ")

/-! ## Subscriptions -/

/-- `Subscription` -/
structure Subscription where
  topic : TopicID
  msgType : NotifyMsgType
  securities : List Security
  /-- the updates in the channel, oldest first -/
  updates : List PushUpdate := []
  closed : Bool := false
  /-- how often the channel was closed -/
  closes : ℕ := 0
  /-- updates lost to a full channel -/
  dropped : ℕ := 0
  /-- updates stamped before `lastWire` -/
  outOfOrder : ℕ := 0
  /-- the clock at the last update -/
  lastSeen : Time := 0
  lastUpdate : Bytes := []
  /-- the latest stamp of an update -/
  lastWire : Time := 0
  deriving DecidableEq, Inhabited

/-- `OrderSubscription` -/
structure OrderSubscription where
  accountID : AccountId
  /-- the updates in the channel, oldest first -/
  updates : List PushUpdate := []
  closed : Bool := false
  /-- how often the channel was closed -/
  closes : ℕ := 0
  dropped : ℕ := 0
  /-- whether a loss was reported -/
  backlogRaised : Bool := false
  lastSeen : Time := 0
  deriving DecidableEq, Inhabited

/-- A send that never blocks: a full channel loses its oldest element first. The
second component says whether the first attempt to send failed. -/
def sendDropOldest {α : Type} (buffer : ℕ) (chan : List α) (x : α) : List α × Bool :=
  if chan.length < buffer then (chan ++ [x], false)
  else
    let chan := chan.tail
    (if chan.length < buffer then chan ++ [x] else chan, true)

/-- A channel that is not overfull takes the new element and stays so. -/
theorem sendDropOldest_spec {α : Type} {buffer : ℕ} (hb : 0 < buffer) {chan : List α}
    (hlen : chan.length ≤ buffer) (x : α) :
    (∀ y, y ∈ (sendDropOldest buffer chan x).1 → y ∈ chan ∨ y = x) ∧
      x ∈ (sendDropOldest buffer chan x).1 ∧ (sendDropOldest buffer chan x).1.length ≤ buffer := by
  rw [sendDropOldest]
  split
  · simp
    omega
  · have htail : chan.tail.length < buffer := by
      rw [List.length_tail]
      omega
    simp only [if_pos htail]
    refine ⟨fun y hy => ?_, by simp, by rw [List.length_append]; exact htail⟩
    rcases List.mem_append.mp hy with hy | hy
    · exact .inl (List.mem_of_mem_tail hy)
    · exact .inr (List.mem_singleton.mp hy)

namespace Subscription

/-- `shutdown` -/
def shutdown (sub : Subscription) : Subscription :=
  if sub.closed then sub else { sub with closed := true, closes := sub.closes + 1 }

theorem shutdown_closed (sub : Subscription) : sub.shutdown.closed = true := by
  rw [shutdown]
  split
  · assumption
  · rfl

theorem shutdown_shutdown (sub : Subscription) : sub.shutdown.shutdown = sub.shutdown := by
  rw [shutdown, if_pos sub.shutdown_closed]

theorem shutdown_same (sub : Subscription) : sub.shutdown.topic = sub.topic ∧
    sub.shutdown.msgType = sub.msgType ∧ sub.shutdown.securities = sub.securities ∧
    sub.shutdown.updates = sub.updates := by
  rw [shutdown]
  split <;> exact ⟨rfl, rfl, rfl, rfl⟩

/-- The wire time of the frame is older than one accepted before. -/
def isLate (u : PushUpdate) (sub : Subscription) : Bool :=
  u.time ≠ 0 && sub.lastWire ≠ 0 && u.time < sub.lastWire

/-- The part of `deliver` before the channel: the times of an accepted frame. -/
def noteTimes (now : Time) (u : PushUpdate) (sub : Subscription) : Subscription :=
  { sub with
    outOfOrder := if sub.isLate u then sub.outOfOrder + 1 else sub.outOfOrder
    lastWire := if u.time = 0 || sub.isLate u then sub.lastWire else u.time
    lastSeen := now
    lastUpdate := (u.event.bind eventTimestamp).getD sub.lastUpdate }

/-- The part of `deliver` on the channel. -/
def enqueue (buffer : ℕ) (u : PushUpdate) (sub : Subscription) : Subscription :=
  let sent := sendDropOldest buffer sub.updates u
  { sub with updates := sent.1, dropped := if sent.2 then sub.dropped + 1 else sub.dropped }

/-- `deliver` -/
def deliver (buffer : ℕ) (now : Time) (u : PushUpdate) (sub : Subscription) : Subscription :=
  if sub.closed then sub else (sub.noteTimes now u).enqueue buffer u

/-- A delivery is about the channel and the counters. -/
theorem deliver_same (buffer : ℕ) (now : Time) (u : PushUpdate) (sub : Subscription) :
    (sub.deliver buffer now u).topic = sub.topic ∧
      (sub.deliver buffer now u).msgType = sub.msgType ∧
      (sub.deliver buffer now u).securities = sub.securities ∧
      (sub.deliver buffer now u).closed = sub.closed := by
  rw [deliver]
  split <;> exact ⟨rfl, rfl, rfl, rfl⟩

/-- What `deliver` reports: the first frame out of order. -/
def deliverReport (u : PushUpdate) (sub : Subscription) : Option StreamError :=
  if !sub.closed && sub.isLate u && sub.outOfOrder = 0 then
    some (.updateOutOfOrder sub.topic u.time sub.lastWire)
  else none

end Subscription

namespace OrderSubscription

/-- `shutdown` -/
def shutdown (ord : OrderSubscription) : OrderSubscription :=
  if ord.closed then ord else { ord with closed := true, closes := ord.closes + 1 }

theorem shutdown_closed (ord : OrderSubscription) : ord.shutdown.closed = true := by
  rw [shutdown]
  split
  · assumption
  · rfl

/-- `deliver` -/
def deliver (buffer : ℕ) (now : Time) (u : PushUpdate) (ord : OrderSubscription) :
    OrderSubscription :=
  if ord.closed then ord
  else
    let sent := sendDropOldest buffer ord.updates u
    { ord with
      updates := sent.1
      dropped := if sent.2 then ord.dropped + 1 else ord.dropped
      backlogRaised := ord.backlogRaised || sent.2
      lastSeen := now }

/-- What `deliver` reports: the first fill that was discarded. -/
def deliverReport (buffer : ℕ) (u : PushUpdate) (ord : OrderSubscription) : Option StreamError :=
  if !ord.closed && (sendDropOldest buffer ord.updates u).2 && !ord.backlogRaised then
    some (.tradeBacklog ord.accountID buffer (ord.dropped + 1))
  else none

end OrderSubscription

/-! ## The orchestration -/

/-- `pushEntry` -/
structure PushEntry where
  topic : TopicID
  securities : List Security
  subs : List SubId := []
  subscribed : Bool := true
  deriving DecidableEq, Inhabited

/-- The key of an entry in the registry. -/
def PushEntry.key (entry : PushEntry) : Bytes := canonicalPushKey entry.topic entry.securities

/-- The key a subscription is registered under. -/
def Subscription.key (sub : Subscription) : Bytes := canonicalPushKey sub.topic sub.securities

/-- `PushOrchestration`, with the heaps its pointers point into. -/
structure PushOrchestration where
  /-- a topic subscriber is configured -/
  market : Bool
  /-- a trade subscriber is configured -/
  trade : Bool
  /-- a transport is configured -/
  transport : Bool
  /-- the depth of the update channels -/
  buffer : ℕ
  buffer_pos : 0 < buffer
  entries : AList fun _ : Bytes => EntryId := ∅
  byKey : Buckets Bytes SubId := ∅
  orders : List OrderId := []
  tradeOn : Bool := false
  tradeSubs : ℤ := 0
  tradeAccount : AccountId := []
  unrouted : ℕ := 0
  seenIDs : List Bytes := []
  errsDrop : ℕ := 0
  /-- the errors in the client stream, oldest first -/
  errc : List StreamError := []
  closed : Bool := false
  heap : Heap PushEntry := ∅
  subs : Heap Subscription := ∅
  orderSubs : Heap OrderSubscription := ∅

namespace PushOrchestration

/-- `NewPushOrchestration` with the option `WithBuffer n`; a non-positive depth
restores the default. -/
def new (market trade transport : Bool) (n : ℤ) : PushOrchestration where
  market := market
  trade := trade
  transport := transport
  buffer := if 0 < n then n.toNat else defaultPushBuffer
  buffer_pos := by
    split
    · omega
    · decide

/-- The client stream and the count of lost errors after a report, which drops the
oldest error when the stream is full. -/
def reported (o : PushOrchestration) : Option StreamError → List StreamError × ℕ
  | none => (o.errc, o.errsDrop)
  | some err =>
    if o.closed then (o.errc, o.errsDrop)
    else if o.errc.length < defaultPushBuffer then (o.errc ++ [err], o.errsDrop)
    else (o.errc.tail ++ [err], o.errsDrop + 1)

/-- `report`, which ignores a nil error. -/
def report (o : PushOrchestration) (err : Option StreamError) : PushOrchestration :=
  { o with errc := (o.reported err).1, errsDrop := (o.reported err).2 }

section

variable [UnicodeTables]

/-! ### The sections of the market side -/

/-- `attachLocked` -/
def attachLocked (o : PushOrchestration) (entry : PushEntry) (sub : SubId) : PushOrchestration :=
  { o with byKey := o.byKey.addAll (securityKeys entry.securities) sub }

/-- `removeFromIndexLocked` for each routing key of a list of instruments. -/
def removeFromIndexLocked (o : PushOrchestration) (securities : List Security) (sub : SubId) :
    PushOrchestration :=
  { o with byKey := o.byKey.removeAll (securityKeys securities) sub }

/-- A new entry, stored under its key; it is the last one allocated. -/
def newEntry (o : PushOrchestration) (topic : TopicID) (securities : List Security) :
    PushOrchestration :=
  { o with
    heap := o.heap.alloc { topic := topic, securities := securities }
    entries := o.entries.insert (canonicalPushKey topic securities) o.heap.size }

/-- A new subscription in an entry; it is the last one allocated. -/
def addSubscription (o : PushOrchestration) (e : EntryId) (topic : TopicID)
    (msgType : NotifyMsgType) (securities : List Security) : PushOrchestration :=
  { o with
    subs := o.subs.alloc { topic := topic, msgType := msgType, securities := securities }
    heap := o.heap.modify e fun entry => { entry with subs := entry.subs ++ [o.subs.size] }
    : PushOrchestration }.attachLocked (o.heap.get e) o.subs.size

theorem addSubscription_subs (o : PushOrchestration) (e : EntryId) (topic : TopicID)
    (msgType : NotifyMsgType) (securities : List Security) :
    (o.addSubscription e topic msgType securities).subs =
      o.subs.alloc { topic := topic, msgType := msgType, securities := securities } := rfl

theorem addSubscription_heap (o : PushOrchestration) (e : EntryId) (topic : TopicID)
    (msgType : NotifyMsgType) (securities : List Security) :
    (o.addSubscription e topic msgType securities).heap =
      o.heap.modify e fun entry => { entry with subs := entry.subs ++ [o.subs.size] } := rfl

/-- The end of `subscribeUnderLock`, once an entry for the key was found or the request
for a new one was accepted. -/
def register (o : PushOrchestration) (found : Option EntryId) (topic : TopicID)
    (msgType : NotifyMsgType) (securities : List Security) : PushOrchestration :=
  match found with
  | some e => o.addSubscription e topic msgType securities
  | none => (o.newEntry topic securities).addSubscription o.heap.size topic msgType securities

theorem register_subs (o : PushOrchestration) (found : Option EntryId) (topic : TopicID)
    (msgType : NotifyMsgType) (securities : List Security) :
    (o.register found topic msgType securities).subs =
      o.subs.alloc { topic := topic, msgType := msgType, securities := securities } := by
  cases found <;> rfl

/-- `detachLocked`, with the entry whose last subscriber left. -/
def detachLocked (o : PushOrchestration) (sub : SubId) : PushOrchestration × Option EntryId :=
  let key := (o.subs.get sub).key
  match o.entries.lookup key with
  | none => (o, none)
  | some e =>
    let entry := o.heap.get e
    let left := entry.subs.erase sub
    let o := { o with heap := o.heap.modify e fun entry => { entry with subs := left } }
    if left = [] then
      ({ o with entries := o.entries.erase key }.removeFromIndexLocked entry.securities sub,
        some e)
    else (o.removeFromIndexLocked entry.securities sub, none)

theorem detachLocked_of_lookup {o : PushOrchestration} {sub : SubId} {e : EntryId}
    (he : o.entries.lookup (o.subs.get sub).key = some e) :
    o.detachLocked sub =
      ({ o with
         heap := o.heap.modify e fun entry =>
           { entry with subs := (o.heap.get e).subs.erase sub }
         entries := if (o.heap.get e).subs.erase sub = [] then
           o.entries.erase (o.subs.get sub).key else o.entries
         byKey := o.byKey.removeAll (securityKeys (o.heap.get e).securities) sub },
        if (o.heap.get e).subs.erase sub = [] then some e else none) := by
  rw [detachLocked, he]
  by_cases hleft : (o.heap.get e).subs.erase sub = []
  · simp only [if_pos hleft]
    rfl
  · simp only [if_neg hleft]
    rfl

theorem detachLocked_of_lookup_none {o : PushOrchestration} {sub : SubId}
    (he : o.entries.lookup (o.subs.get sub).key = none) : o.detachLocked sub = (o, none) := by
  rw [detachLocked, he]

/-- Only the maps and the entry change. -/
theorem detachLocked_frame (o : PushOrchestration) (sub : SubId) : ∃ heap entries byKey,
    heap.size = o.heap.size ∧
      (o.detachLocked sub).1 = { o with heap := heap, entries := entries, byKey := byKey } := by
  rcases he : o.entries.lookup (o.subs.get sub).key with _ | e
  · rw [detachLocked_of_lookup_none he]
    exact ⟨o.heap, o.entries, o.byKey, rfl, rfl⟩
  · rw [detachLocked_of_lookup he]
    refine ⟨_, _, _, ?_, rfl⟩
    rfl

theorem detachLocked_same (o : PushOrchestration) (sub : SubId) :
    (o.detachLocked sub).1.subs = o.subs ∧ (o.detachLocked sub).1.heap.size = o.heap.size ∧
      (o.detachLocked sub).1.market = o.market ∧ (o.detachLocked sub).1.closed = o.closed := by
  obtain ⟨heap, entries, byKey, hsize, h⟩ := o.detachLocked_frame sub
  rw [h]
  exact ⟨rfl, hsize, rfl, rfl⟩

/-- The snapshot of `resubscribeAll`: the entries the Gateway accepted, in the order of
their keys. -/
def snapshot (o : PushOrchestration) : List EntryId :=
  ((o.entries.entries.map (·.2)).filter fun e => (o.heap.get e).subscribed).insertionSort
    fun e e' => (o.heap.get e).key ≤ (o.heap.get e').key

/-- The section of `killEntry`; the doomed subscriptions are those of the entry. -/
def killSection (o : PushOrchestration) (e : EntryId) : PushOrchestration :=
  { o with
    byKey := (o.heap.get e).subs.foldl
      (fun m sub => m.removeAll (securityKeys (o.subs.get sub).securities) sub) o.byKey
    entries := o.entries.erase (o.heap.get e).key }

/-- The subscriptions `closeAll` shuts down: those of all entries. -/
def drained (o : PushOrchestration) : List SubId :=
  (o.entries.entries.map (·.2)).flatMap fun e => (o.heap.get e).subs

/-- The section of `closeAll`. -/
def drain (o : PushOrchestration) : PushOrchestration :=
  { o with entries := ∅, byKey := ∅, orders := [] }

/-- The section of `dispatchMarket`: the subscriptions of the buckets under the keys of
the update, each once. -/
def marketTargets (o : PushOrchestration) (u : PushUpdate) : List SubId :=
  distinct ((updateRoutingKeys u).flatMap o.byKey.get)

end

/-! ### The sections of the order side -/

/-- The end of `subscribeOrdersUnderLock`, once order push is on. -/
def registerOrder (o : PushOrchestration) (account : AccountId) : PushOrchestration :=
  let o := if o.tradeOn then o else { o with tradeOn := true, tradeAccount := account }
  { o with
    orderSubs := o.orderSubs.alloc { accountID := account }
    orders := o.orders ++ [o.orderSubs.size]
    tradeSubs := o.tradeSubs + 1 }

/-- The section of `OrderSubscription.Cancel` for a subscription that is open; order push
goes off with the last one. -/
def cancelOrderSection (o : PushOrchestration) (ord : OrderId) : PushOrchestration :=
  let tradeSubs := o.tradeSubs - 1
  { o with
    orders := o.orders.erase ord
    tradeSubs := tradeSubs
    tradeOn := if tradeSubs ≤ 0 then false else o.tradeOn }

/-- The section of `killOrders`; all registered order subscriptions are doomed. -/
def killOrdersSection (o : PushOrchestration) : PushOrchestration :=
  { o with orders := [], tradeOn := false, tradeSubs := 0 }

/-! ### Work on single subscriptions -/

/-- Shut subscriptions down. -/
def shutdown (o : PushOrchestration) (subs : List SubId) : PushOrchestration :=
  { o with subs := o.subs.modifyAll subs Subscription.shutdown }

/-- Shut order subscriptions down. -/
def shutdownOrders (o : PushOrchestration) (orders : List OrderId) : PushOrchestration :=
  { o with orderSubs := o.orderSubs.modifyAll orders OrderSubscription.shutdown }

/-- `Subscription.deliver`, with its report. -/
def deliver (now : Time) (u : PushUpdate) (o : PushOrchestration) (sub : SubId) :
    PushOrchestration :=
  { o with subs := o.subs.modify sub (Subscription.deliver o.buffer now u) }.report
    ((o.subs.get sub).deliverReport u)

/-- `OrderSubscription.deliver`, with its report. -/
def deliverOrder (now : Time) (u : PushUpdate) (o : PushOrchestration) (ord : OrderId) :
    PushOrchestration :=
  { o with orderSubs := o.orderSubs.modify ord (OrderSubscription.deliver o.buffer now u) }.report
    ((o.orderSubs.get ord).deliverReport o.buffer u)

/-- The section of `recordUnrouted`. -/
def countUnrouted (o : PushOrchestration) (u : PushUpdate) : PushOrchestration :=
  { o with
    unrouted := o.unrouted + 1
    seenIDs := if u.id ∉ o.seenIDs ∧ o.seenIDs.length < unroutedReportCap then u.id :: o.seenIDs
      else o.seenIDs }

/-- What `recordUnrouted` reports: an id that was not seen before. -/
def unroutedReport (o : PushOrchestration) (u : PushUpdate) : Option StreamError :=
  if u.id ∈ o.seenIDs then none else some (.unrouted u.type u.id u.securityCode)

/-- `recordUnrouted` -/
def recordUnrouted (o : PushOrchestration) (u : PushUpdate) : PushOrchestration :=
  (o.countUnrouted u).report (o.unroutedReport u)

end PushOrchestration

end HstongApi
