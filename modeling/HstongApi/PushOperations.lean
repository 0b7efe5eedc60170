import HstongApi.PushRegistry

/-!
# The push orchestration with atomic operations

The calls of the API (`Subscribe`, `Cancel`, `SubscribeOrders`, `Close`), the reconnect
hook and the handler of the transport, each run to its end without interruption. The
world of such a run is the orchestration together with the Gateway it talks to, which
keeps the set of subscribed pairs of a topic and an instrument and whether order push is
on. Whether a request is accepted is the Gateway's choice, so the replies are part of
the operation.
-/

namespace HstongApi

/-! ## The Gateway -/

/-- What the Gateway was asked to send. -/
structure Gateway where
  /-- the subscribed instruments of each topic -/
  pairs : List (TopicID × Security) := []
  /-- session-wide order push -/
  orderPush : Bool := false

/-- The reply to a request: the error of a refused one, `none` when it is accepted. -/
abbrev Reply : Type := Option Bytes

variable {securities : List Security} {topic : TopicID}

namespace Gateway

/-- An accepted `/hq/Subscribe`. -/
def subscribe (g : Gateway) (topic : TopicID) (securities : List Security) : Gateway :=
  { g with pairs := securities.map (topic, ·) ++ g.pairs }

/-- An accepted `/hq/Unsubscribe`. -/
def unsubscribe (g : Gateway) (topic : TopicID) (securities : List Security) : Gateway :=
  { g with pairs := g.pairs.filter fun p => !(p.1 == topic && securities.contains p.2) }

/-- An accepted `/trade/TradeSubscribe` or `/trade/TradeUnsubscribe`. -/
def setOrderPush (g : Gateway) (on : Bool) : Gateway := { g with orderPush := on }

theorem mem_subscribe {g : Gateway} {t : TopicID} {s : Security} :
    (t, s) ∈ (g.subscribe topic securities).pairs ↔
      (t = topic ∧ s ∈ securities) ∨ (t, s) ∈ g.pairs := by
  simp [subscribe, and_comm, eq_comm]

theorem mem_unsubscribe {g : Gateway} {t : TopicID} {s : Security} :
    (t, s) ∈ (g.unsubscribe topic securities).pairs ↔
      (t, s) ∈ g.pairs ∧ ¬ (t = topic ∧ s ∈ securities) := by
  simp [unsubscribe, imp_iff_not_or]

end Gateway

/-! ## Checks before the lock -/

/-- What `Subscribe` and `subscribeUnderLock` decide before they take the lock: the
payload type of the topic and the instruments that will be stored. -/
def PushOrchestration.checkSubscribe (o : PushOrchestration) (topic : TopicID)
    (sec : List (Option Security)) : Except PushError (NotifyMsgType × List Security) :=
  if o.closed then .error .pushClosed
  else if !o.transport || !o.market then .error .noPushTransport
  else
    match notifyTypeForTopic topic with
    | none => .error (.invalidParam opPushSubscribe (unmappedTopicMessage topic))
    | some msgType => (copyAndValidateSecurities topic sec).map (msgType, ·)

/-- What `SubscribeOrders` and `subscribeOrdersUnderLock` decide before they take the
lock. -/
def PushOrchestration.checkSubscribeOrders (o : PushOrchestration) (account : AccountId) :
    Except PushError Unit :=
  if o.closed then .error .pushClosed
  else if !o.transport then .error .noPushTransport
  else if !o.trade then
    .error (.invalidParam opPushSubscribeOrders (bytes ("order push needs a trade subscriber; " ++
      "construct the orchestration with services.WithTradeSubscriber")))
  else if account = [] then
    .error (.invalidParam opPushSubscribeOrders (bytes "accountID must not be empty"))
  else .ok ()

variable {o : PushOrchestration}

/-- What a passed check says. -/
theorem PushOrchestration.checkSubscribe_ok {sec : List (Option Security)} {msgType : NotifyMsgType}
    (h : o.checkSubscribe topic sec = .ok (msgType, securities)) :
    o.closed = false ∧ o.market = true ∧ notifyTypeForTopic topic = some msgType ∧
      sec = securities.map some ∧ securities ≠ [] ∧ ∀ s ∈ securities, s.code ≠ [] := by
  rw [checkSubscribe] at h
  split at h
  · cases h
  · rename_i hclosed
    split at h
    · cases h
    · rename_i hconfig
      split at h
      · cases h
      · rename_i msgType' htopic
        cases hcopy : copyAndValidateSecurities topic sec with
        | error e =>
          rw [hcopy] at h
          cases h
        | ok out =>
          rw [hcopy] at h
          cases h
          have hmarket : o.market = true := by
            cases hm : o.market
            · exact absurd (by simp [hm]) hconfig
            · rfl
          exact ⟨Bool.eq_false_of_not_eq_true hclosed, hmarket, htopic,
            copyAndValidateSecurities_ok hcopy⟩

/-! ## The operations -/

/-- The orchestration and the Gateway. -/
structure World where
  orch : PushOrchestration
  gateway : Gateway := {}

/-- The replies to the requests of one reconnect. -/
structure Replies where
  /-- to the re-subscribe of an entry -/
  subscribe : EntryId → Reply
  /-- to the unsubscribe of an entry whose re-subscribe was refused -/
  unsubscribe : EntryId → Reply
  /-- to the re-subscribe of order push -/
  orders : Reply

/-- `dispatchTrade` -/
def PushOrchestration.dispatchTrade (o : PushOrchestration) (now : Time) (u : PushUpdate) :
    PushOrchestration := o.orders.foldl (deliverOrder now u) o

/-- The handler of a payload type is installed. -/
def PushOrchestration.installed (o : PushOrchestration) (t : NotifyMsgType) : Bool :=
  o.transport && (marketNotifyTypes ++ tradeNotifyTypes).contains t

variable {u : PushUpdate}

section

variable [UnicodeTables]

theorem PushOrchestration.mem_marketTargets {i : SubId} :
    i ∈ o.marketTargets u ↔ ∃ k ∈ updateRoutingKeys u, i ∈ o.byKey.get k := by
  rw [marketTargets, mem_distinct, List.mem_flatMap]

omit [UnicodeTables] in
/-- Delivering to several subscriptions changes these, and the error stream. -/
theorem PushOrchestration.foldl_deliver (now : Time) (u : PushUpdate) (l : List SubId)
    (o : PushOrchestration) :
    (l.foldl (deliver now u) o).subs = o.subs.modifyAll l (Subscription.deliver o.buffer now u) ∧
      (l.foldl (deliver now u) o).unrouted = o.unrouted ∧
      (l.foldl (deliver now u) o).buffer = o.buffer ∧
      (l.foldl (deliver now u) o).heap = o.heap := by
  induction l generalizing o with
  | nil => exact ⟨rfl, rfl, rfl, rfl⟩
  | cons i l ih => exact ih (o.deliver now u i)

/-- `dispatchMarket` -/
def PushOrchestration.dispatchMarket (o : PushOrchestration) (now : Time) (u : PushUpdate) :
    PushOrchestration :=
  if o.marketTargets u = [] then o.recordUnrouted u
  else (o.marketTargets u).foldl (deliver now u) o

/-- The handler that `install` registers. -/
def PushOrchestration.handle (o : PushOrchestration) (now : Time) (u : PushUpdate) :
    PushOrchestration :=
  if u.event = none then o
  else if isTradeNotifyType u.type then o.dispatchTrade now u
  else o.dispatchMarket now u

namespace World

/-- `Subscribe` -/
def subscribe (w : World) (topic : TopicID) (sec : List (Option Security)) (reply : Reply) :
    World × Except PushError SubId :=
  match w.orch.checkSubscribe topic sec with
  | .error e => (w, .error e)
  | .ok (msgType, securities) =>
    match w.orch.entries.lookup (canonicalPushKey topic securities), reply with
    | some e, _ =>
      ({ w with orch := w.orch.register (some e) topic msgType securities }, .ok w.orch.subs.size)
    | none, some cause => (w, .error (.request cause))
    | none, none =>
      ({ orch := w.orch.register none topic msgType securities
         gateway := w.gateway.subscribe topic securities }, .ok w.orch.subs.size)

/-- What `Subscribe` does: nothing when it fails, and else it registers a subscription,
with a request when the key is new. -/
theorem subscribe_cases (w : World) (topic : TopicID) (sec : List (Option Security))
    (reply : Reply) : (w.subscribe topic sec reply).1 = w ∨ ∃ msgType securities found,
      w.orch.checkSubscribe topic sec = .ok (msgType, securities) ∧
      w.orch.entries.lookup (canonicalPushKey topic securities) = found ∧
      (w.subscribe topic sec reply).1 =
        { orch := w.orch.register found topic msgType securities
          gateway := if found.isSome then w.gateway else w.gateway.subscribe topic securities } := by
  unfold subscribe
  split
  · exact .inl rfl
  · rename_i msgType securities hcheck
    split
    · rename_i e he
      exact .inr ⟨msgType, securities, some e, hcheck, he, rfl⟩
    · exact .inl rfl
    · rename_i he
      exact .inr ⟨msgType, securities, none, hcheck, he, rfl⟩

/-- `Subscription.Cancel` -/
def cancel (w : World) (sub : SubId) (reply : Reply) : World × Option PushError :=
  if (w.orch.subs.get sub).closed then (w, none)
  else
    let (o, last) := w.orch.detachLocked sub
    let o := o.shutdown [sub]
    match last with
    | none => ({ w with orch := o }, none)
    | some e =>
      let entry := o.heap.get e
      if !entry.subscribed || !o.market then ({ w with orch := o }, none)
      else
        match reply with
        | none =>
          ({ orch := o, gateway := w.gateway.unsubscribe entry.topic entry.securities }, none)
        | some cause =>
          let lost := .unsubscribe entry.topic (keyList entry.securities) cause
          ({ w with orch := o.report (some lost) }, some (.request cause))

/-- What `Cancel` does to the orchestration does not depend on the reply, up to what is
reported. -/
theorem cancel_orch {w : World} {sub : SubId} (hopen : (w.orch.subs.get sub).closed = false)
    (reply : Reply) : ∃ err, (w.cancel sub reply).1.orch =
      ((w.orch.detachLocked sub).1.shutdown [sub]).report err := by
  rw [cancel, hopen]
  rcases w.orch.detachLocked sub with ⟨o, _ | e⟩
  · exact ⟨none, rfl⟩
  · simp only [Bool.false_eq_true, if_false]
    split
    · exact ⟨none, rfl⟩
    · cases reply with
      | none => exact ⟨none, rfl⟩
      | some cause => exact ⟨some _, rfl⟩

/-- `SubscribeOrders` -/
def subscribeOrders (w : World) (account : AccountId) (reply : Reply) :
    World × Except PushError OrderId :=
  match w.orch.checkSubscribeOrders account with
  | .error e => (w, .error e)
  | .ok () =>
    if w.orch.tradeOn then
      ({ w with orch := w.orch.registerOrder account }, .ok w.orch.orderSubs.size)
    else
      match reply with
      | some cause => (w, .error (.request cause))
      | none =>
        ({ orch := w.orch.registerOrder account, gateway := w.gateway.setOrderPush true },
          .ok w.orch.orderSubs.size)

/-- `OrderSubscription.Cancel` -/
def cancelOrder (w : World) (ord : OrderId) (reply : Reply) : World × Option PushError :=
  if (w.orch.orderSubs.get ord).closed then (w, none)
  else
    let o := (w.orch.cancelOrderSection ord).shutdownOrders [ord]
    if 0 < o.tradeSubs || !o.trade then ({ w with orch := o }, none)
    else
      match reply with
      | none => ({ orch := o, gateway := w.gateway.setOrderPush false }, none)
      | some cause =>
        ({ w with orch := o.report (some (.unsubscribeOrders o.tradeAccount cause)) },
          some (.request cause))

/-- `killEntry` -/
def killEntry (w : World) (e : EntryId) (reply : Reply) : World :=
  let entry := w.orch.heap.get e
  let o := (w.orch.killSection e).shutdown entry.subs
  match reply with
  | none => { orch := o, gateway := w.gateway.unsubscribe entry.topic entry.securities }
  | some cause =>
    let lost := .unsubscribeRefused entry.topic (keyList entry.securities) cause
    { w with orch := o.report (some lost) }

theorem killEntry_orch (w : World) (e : EntryId) (reply : Reply) :
    ∃ err, (w.killEntry e reply).orch =
      ((w.orch.killSection e).shutdown (w.orch.heap.get e).subs).report err := by
  cases reply with
  | none => exact ⟨none, rfl⟩
  | some cause => exact ⟨some _, rfl⟩

/-- One turn of the loop of `resubscribeAll`. -/
def resubscribe (replies : Replies) (w : World) (e : EntryId) : World :=
  let entry := w.orch.heap.get e
  match replies.subscribe e with
  | none => { w with gateway := w.gateway.subscribe entry.topic entry.securities }
  | some cause =>
    let lost := .resubscribe entry.topic (keyList entry.securities) cause
    { w with orch := w.orch.report (some lost) }.killEntry e (replies.unsubscribe e)

/-- A turn leaves the orchestration alone or kills the entry. -/
theorem resubscribe_orch (replies : Replies) (w : World) (e : EntryId) :
    (resubscribe replies w e).orch = w.orch ∨ ∃ err err', (resubscribe replies w e).orch =
      (((w.orch.report err).killSection e).shutdown (w.orch.heap.get e).subs).report err' := by
  unfold resubscribe
  cases replies.subscribe e with
  | none => exact .inl rfl
  | some cause =>
    obtain ⟨err', horch⟩ := killEntry_orch { w with orch := w.orch.report (some (.resubscribe
      (w.orch.heap.get e).topic (keyList (w.orch.heap.get e).securities) cause)) } e
      (replies.unsubscribe e)
    exact .inr ⟨_, err', horch⟩

/-- `killOrders` -/
def killOrders (w : World) : World :=
  { w with orch := w.orch.killOrdersSection.shutdownOrders w.orch.orders }

/-- The end of `resubscribeAll`: order push, when the snapshot has it live. -/
def resubscribeOrders (w : World) (account : AccountId) (reply : Reply) : World :=
  match reply with
  | none => { w with gateway := w.gateway.setOrderPush true }
  | some cause => { w with orch := w.orch.report (some (.resubscribeOrders account cause)) }.killOrders

/-- `resubscribeAll` -/
def resubscribeAll (w : World) (replies : Replies) : World :=
  let tradeLive := w.orch.tradeOn
  let account := w.orch.tradeAccount
  let w := w.orch.snapshot.foldl (resubscribe replies) w
  if !tradeLive || !w.orch.trade then w else w.resubscribeOrders account replies.orders

/-- `onReconnect` -/
def reconnect (w : World) (cause : Option Bytes) (replies : Replies) : World :=
  if w.orch.closed then w
  else { w with orch := w.orch.report (some (.reconnected cause)) }.resubscribeAll replies

/-- `Close`: the flag, then `closeAll`. -/
def close (w : World) : World :=
  if w.orch.closed then w
  else
    let o := { w.orch with closed := true }
    { w with orch := (o.drain.shutdown o.drained).shutdownOrders o.orders }

end World

end

/-! ## The order side leaves the market side alone -/

/-- The two states agree on the market subscriptions and their registry. -/
structure PushOrchestration.SameMarket (o o' : PushOrchestration) : Prop where
  entries : o'.entries = o.entries
  byKey : o'.byKey = o.byKey
  heap : o'.heap = o.heap
  subs : o'.subs = o.subs
  buffer : o'.buffer = o.buffer
  market : o'.market = o.market
  unrouted : o'.unrouted = o.unrouted

theorem PushOrchestration.SameMarket.refl (o : PushOrchestration) : o.SameMarket o :=
  ⟨rfl, rfl, rfl, rfl, rfl, rfl, rfl⟩

theorem PushOrchestration.sameMarket_dispatchTrade (o : PushOrchestration) (now : Time)
    (u : PushUpdate) : o.SameMarket (o.dispatchTrade now u) := by
  refine List.foldlRecOn (motive := o.SameMarket) o.orders (deliverOrder now u)
    (SameMarket.refl o) fun o' h ord _ => ?_
  exact { h with }

namespace World

theorem sameMarket_subscribeOrders (w : World) (account : AccountId) (reply : Reply) :
    w.orch.SameMarket (w.subscribeOrders account reply).1.orch := by
  have hregister : w.orch.SameMarket (w.orch.registerOrder account) := by
    rw [PushOrchestration.registerOrder]
    cases w.orch.tradeOn <;> exact ⟨rfl, rfl, rfl, rfl, rfl, rfl, rfl⟩
  unfold subscribeOrders
  split
  · exact .refl _
  · split
    · exact hregister
    · split
      · exact .refl _
      · exact hregister

theorem sameMarket_cancelOrder (w : World) (ord : OrderId) (reply : Reply) :
    w.orch.SameMarket (w.cancelOrder ord reply).1.orch := by
  unfold cancelOrder
  split
  · exact .refl _
  · simp only
    split
    · exact ⟨rfl, rfl, rfl, rfl, rfl, rfl, rfl⟩
    · cases reply <;> exact ⟨rfl, rfl, rfl, rfl, rfl, rfl, rfl⟩

theorem sameMarket_resubscribeOrders (w : World) (account : AccountId) (reply : Reply) :
    w.orch.SameMarket (w.resubscribeOrders account reply).orch := by
  cases reply <;> exact ⟨rfl, rfl, rfl, rfl, rfl, rfl, rfl⟩

end World

/-! ## The system -/

/-- An operation with everything its environment decides. -/
inductive Operation where
  | subscribe (topic : TopicID) (sec : List (Option Security)) (reply : Reply)
  | cancel (sub : SubId) (reply : Reply)
  | subscribeOrders (account : AccountId) (reply : Reply)
  | cancelOrder (ord : OrderId) (reply : Reply)
  | reconnect (cause : Option Bytes) (replies : Replies)
  | close
  /-- the transport hands an update to the handler of its type -/
  | dispatch (u : PushUpdate) (now : Time)
  /-- the drain goroutine forwards an error of the transport -/
  | transportError (cause : Bytes)
  /-- the consumer of a subscription takes the oldest update off its channel -/
  | receive (sub : SubId)
  | receiveOrder (ord : OrderId)
  | receiveError

section

variable [UnicodeTables]

/-- One operation. A pointer must point to an object that was allocated, and only
installed handlers are called. -/
def World.step (w : World) : Operation → Option World
  | .subscribe topic sec reply => some (w.subscribe topic sec reply).1
  | .cancel sub reply => if sub < w.orch.subs.size then (w.cancel sub reply).1 else none
  | .subscribeOrders account reply => some (w.subscribeOrders account reply).1
  | .cancelOrder ord reply =>
    if ord < w.orch.orderSubs.size then (w.cancelOrder ord reply).1 else none
  | .reconnect cause replies => some (w.reconnect cause replies)
  | .close => some w.close
  | .dispatch u now =>
    if w.orch.installed u.type then some { w with orch := w.orch.handle now u } else none
  | .transportError cause => some { w with orch := w.orch.report (some (.transport cause)) }
  | .receive sub =>
    some { w with orch := { w.orch with
      subs := w.orch.subs.modify sub fun s => { s with updates := s.updates.tail } } }
  | .receiveOrder ord =>
    some { w with orch := { w.orch with
      orderSubs := w.orch.orderSubs.modify ord fun s => { s with updates := s.updates.tail } } }
  | .receiveError => some { w with orch := { w.orch with errc := w.orch.errc.tail } }

end

/-! ## What an operation leaves alone

A subscription and an entry are made for a topic and a list of instruments, and these
never change. Only a dispatch adds to a channel. -/

/-- `o'` has the subscriptions and entries of `o`, for the same topics and instruments, and
nothing in a channel that was not there. -/
structure PushOrchestration.Keeps (o o' : PushOrchestration) : Prop where
  buffer : o'.buffer = o.buffer
  topic : ∀ i, (o'.subs.get i).topic = (o.subs.get i).topic
  securities : ∀ i, (o'.subs.get i).securities = (o.subs.get i).securities
  updates : ∀ i, (o'.subs.get i).updates.Sublist (o.subs.get i).updates
  entry : ∀ e, (o'.heap.get e).securities = (o.heap.get e).securities

namespace PushOrchestration

theorem Keeps.refl (o : PushOrchestration) : o.Keeps o :=
  ⟨rfl, fun _ => rfl, fun _ => rfl, fun _ => .refl _, fun _ => rfl⟩

theorem Keeps.trans {o₁ o₂ o₃ : PushOrchestration} (h : o₁.Keeps o₂) (h' : o₂.Keeps o₃) :
    o₁.Keeps o₃ :=
  ⟨h'.buffer.trans h.buffer, fun i => (h'.topic i).trans (h.topic i),
    fun i => (h'.securities i).trans (h.securities i), fun i => (h'.updates i).trans (h.updates i),
    fun e => (h'.entry e).trans (h.entry e)⟩

theorem Keeps.of_eq {o' : PushOrchestration} (hbuffer : o'.buffer = o.buffer)
    (hsubs : o'.subs = o.subs) (hheap : o'.heap = o.heap) : o.Keeps o' := by
  refine ⟨hbuffer, fun i => ?_, fun i => ?_, fun i => ?_, fun e => ?_⟩
  · rw [hsubs]
  · rw [hsubs]
  · rw [hsubs]
  · rw [hheap]

theorem SameMarket.keeps {o' : PushOrchestration} (h : o.SameMarket o') : o.Keeps o' :=
  .of_eq h.buffer h.subs h.heap

theorem keeps_shutdown (o : PushOrchestration) (ids : List SubId) : o.Keeps (o.shutdown ids) := by
  refine ⟨rfl, fun i => ?_, fun i => ?_, fun i => ?_, fun e => rfl⟩
  · exact Heap.get_modifyAll_eq (fun s => s.shutdown_same.1) _ _ _
  · exact Heap.get_modifyAll_eq (fun s => s.shutdown_same.2.2.1) _ _ _
  · have hupdates : ((o.shutdown ids).subs.get i).updates = (o.subs.get i).updates :=
      Heap.get_modifyAll_eq (fun s => s.shutdown_same.2.2.2) _ _ _
    rw [hupdates]

theorem keeps_detachLocked [UnicodeTables] (o : PushOrchestration) (i : SubId) :
    o.Keeps (o.detachLocked i).1 := by
  rcases he : o.entries.lookup (o.subs.get i).key with _ | e
  · rw [detachLocked_of_lookup_none he]
    exact .refl o
  · rw [detachLocked_of_lookup he]
    refine ⟨rfl, fun _ => rfl, fun _ => rfl, fun _ => .refl _, fun e' => ?_⟩
    simp only [Heap.get_modify]
    split
    · rename_i hee
      rw [hee]
    · rfl

end PushOrchestration

section

variable [UnicodeTables]

namespace World

open PushOrchestration

theorem keeps_resubscribe (replies : Replies) (w : World) (e : EntryId) :
    w.orch.Keeps (resubscribe replies w e).orch := by
  rcases resubscribe_orch replies w e with horch | ⟨err, err', horch⟩
  · rw [horch]
    exact .refl _
  · rw [horch]
    have hkill : w.orch.Keeps ((w.orch.report err).killSection e) := .of_eq rfl rfl rfl
    exact (hkill.trans (keeps_shutdown _ _)).trans (.of_eq rfl rfl rfl)

theorem keeps_reconnect (w : World) (cause : Option Bytes) (replies : Replies) :
    w.orch.Keeps (w.reconnect cause replies).orch := by
  rw [reconnect]
  split
  · exact .refl _
  · rw [resubscribeAll]
    have hloop : ∀ (l : List EntryId) (w : World),
        w.orch.Keeps (l.foldl (resubscribe replies) w).orch := by
      intro l
      induction l with
      | nil => exact fun w => .refl _
      | cons e l ih => exact fun w => (keeps_resubscribe replies w e).trans (ih _)
    have hreport : w.orch.Keeps (w.orch.report (some (.reconnected cause))) := .of_eq rfl rfl rfl
    have hall := hreport.trans (hloop (w.orch.report (some (.reconnected cause))).snapshot
      { w with orch := w.orch.report (some (.reconnected cause)) })
    simp only
    split
    · exact hall
    · exact hall.trans (sameMarket_resubscribeOrders _ _ _).keeps

/-- Every operation but a subscribe and a dispatch keeps what is there. -/
theorem step_keeps {w w' : World} {op : Operation} (hstep : w.step op = some w')
    (hsub : ∀ topic sec reply, op ≠ .subscribe topic sec reply)
    (hdispatch : ∀ u now, op ≠ .dispatch u now) : w.orch.Keeps w'.orch := by
  cases op with
  | subscribe topic sec reply => exact absurd rfl (hsub topic sec reply)
  | cancel sub reply =>
    obtain ⟨-, heq⟩ := Option.ite_none_right_eq_some.mp hstep
    cases heq
    cases hclosed : (w.orch.subs.get sub).closed with
    | true =>
      rw [cancel, hclosed]
      exact .refl _
    | false =>
      obtain ⟨err, horch⟩ := cancel_orch hclosed reply
      rw [horch]
      exact ((keeps_detachLocked _ _).trans (keeps_shutdown _ _)).trans (.of_eq rfl rfl rfl)
  | subscribeOrders account reply =>
    cases hstep
    exact (w.sameMarket_subscribeOrders account reply).keeps
  | cancelOrder ord reply =>
    obtain ⟨-, heq⟩ := Option.ite_none_right_eq_some.mp hstep
    cases heq
    exact (w.sameMarket_cancelOrder ord reply).keeps
  | reconnect cause replies =>
    cases hstep
    exact keeps_reconnect w cause replies
  | close =>
    cases hstep
    rw [close]
    split
    · exact .refl _
    · have hdrain : w.orch.Keeps { w.orch with closed := true }.drain := .of_eq rfl rfl rfl
      exact (hdrain.trans (keeps_shutdown _ _)).trans (.of_eq rfl rfl rfl)
  | dispatch u now => exact absurd rfl (hdispatch u now)
  | transportError | receiveOrder | receiveError =>
    cases hstep
    exact .of_eq rfl rfl rfl
  | receive sub =>
    cases hstep
    have hsubs := Heap.rel_modify (R := fun s s' : Subscription => s'.topic = s.topic ∧
      s'.securities = s.securities ∧ s'.updates.Sublist s.updates)
      (f := fun s => { s with updates := s.updates.tail }) (fun _ => ⟨rfl, rfl, .refl _⟩)
      (fun s => ⟨rfl, rfl, s.updates.tail_sublist⟩) w.orch.subs sub
    exact ⟨rfl, fun i => (hsubs i).1, fun i => (hsubs i).2.1, fun i => (hsubs i).2.2, fun _ => rfl⟩

end World

/-- What a dispatch does to the subscriptions: each market target has the update
delivered. -/
theorem PushOrchestration.handle_market (o : PushOrchestration) (now : Time)
    (hevent : u.event ≠ none) (hmarket : isTradeNotifyType u.type = false) :
    (o.handle now u).buffer = o.buffer ∧ (o.handle now u).heap = o.heap ∧
      ∀ i, (o.handle now u).subs.get i = if i ∈ o.marketTargets u then
        (o.subs.get i).deliver o.buffer now u else o.subs.get i := by
  rw [handle, if_neg hevent, hmarket, if_neg Bool.false_ne_true, dispatchMarket]
  by_cases hnil : o.marketTargets u = []
  · rw [if_pos hnil, hnil]
    exact ⟨rfl, rfl, fun i => rfl⟩
  · obtain ⟨hsubs, -, hbuffer, hheap⟩ := foldl_deliver now u (o.marketTargets u) o
    rw [if_neg hnil, hsubs]
    refine ⟨hbuffer, hheap, fun i => ?_⟩
    split
    · exact Heap.get_modifyAll_of_nodup _ (nodup_distinct _) _ ‹_›
    · exact Heap.get_modifyAll_of_notMem _ _ ‹_›

theorem PushOrchestration.handle_other (o : PushOrchestration) (now : Time)
    (h : u.event = none ∨ isTradeNotifyType u.type = true) : o.SameMarket (o.handle now u) := by
  rw [handle]
  split
  · exact .refl _
  · rename_i hevent
    rw [if_pos (h.resolve_left hevent)]
    exact sameMarket_dispatchTrade _ _ _

end

/-- A new orchestration and a Gateway that was asked for nothing. -/
def World.init (market trade transport : Bool) (n : ℤ) : World :=
  { orch := .new market trade transport n }

end HstongApi
