import HstongApi.PushExactness

/-!
# No update disappears unnoticed

Over runs of atomic operations, an update with an event that is handed to a handler should be
enqueued to a live subscription, or be counted in `Unrouted` and, for an id that was not seen
before, be reported as `ErrUnrouted`.

`noticed_iff` says when this is so. For the order-status types it is so only while there is an order
subscription: `dispatchTrade` has no counterpart of `recordUnrouted`. For the market types it is so
if one of the targets is live; it is also so if there is no target, before `Close` or for an id that
was seen. Targets that are all closed exist only after a re-subscribe was refused for an entry that
holds subscriptions for other instruments than its own.
-/

namespace HstongApi

variable {buffer : ℕ}

namespace PushOrchestration

/-! ## What is to be noticed -/

/-- A channel with its count of lost updates has taken one more update. -/
def Puts (u : PushUpdate) (updates updates' : List PushUpdate) (dropped dropped' : ℕ) : Prop :=
  updates'.getLast? = some u ∧ updates'.length + dropped' = updates.length + dropped + 1

/-- The update is enqueued to a live subscription. -/
def Enqueued (o o' : PushOrchestration) (u : PushUpdate) : Prop :=
  (∃ i ∈ o.live, Puts u (o.subs.get i).updates (o'.subs.get i).updates
      (o.subs.get i).dropped (o'.subs.get i).dropped) ∨
    ∃ j, j < o.orderSubs.size ∧ (o.orderSubs.get j).closed = false ∧
      Puts u (o.orderSubs.get j).updates (o'.orderSubs.get j).updates
        (o.orderSubs.get j).dropped (o'.orderSubs.get j).dropped

/-- The error is put into the client stream. -/
def Reported (o o' : PushOrchestration) (err : StreamError) : Prop :=
  o'.errc.getLast? = some err ∧ o'.errc.length + o'.errsDrop = o.errc.length + o.errsDrop + 1

/-- The update does not disappear. -/
def Noticed (o o' : PushOrchestration) (u : PushUpdate) : Prop :=
  o.Enqueued o' u ∨ (o'.unrouted = o.unrouted + 1 ∧
    (u.id ∉ o.seenIDs → o.Reported o' (.unrouted u.type u.id u.securityCode)))

/-! ## Registered subscriptions -/

/-- The index holds subscriptions that exist, and their channels are not overfull. -/
structure Indexed (o : PushOrchestration) : Prop where
  exist : ∀ k, ∀ i ∈ o.byKey.get k, i < o.subs.size
  updates : ∀ i, (o.subs.get i).updates.length ≤ o.buffer

/-- The registered order subscriptions are open, and their channels are not overfull. -/
structure OrdersOpen (o : PushOrchestration) : Prop where
  nodup : o.orders.Nodup
  opened : ∀ j ∈ o.orders, j < o.orderSubs.size ∧ (o.orderSubs.get j).closed = false
  updates : ∀ j, (o.orderSubs.get j).updates.length ≤ o.buffer

variable {o o' : PushOrchestration}

/-- Nothing is added to the index or to a channel. -/
theorem Indexed.of_sub (h : o.Indexed) (hkeeps : o.Keeps o') (hsize : o'.subs.size = o.subs.size)
    (hsub : ∀ k, ∀ i ∈ o'.byKey.get k, i ∈ o.byKey.get k) : o'.Indexed := by
  refine ⟨fun k i hi => ?_, fun i => ?_⟩
  · rw [hsize]
    exact h.exist k i (hsub k i hi)
  · rw [hkeeps.buffer]
    exact (hkeeps.updates i).length_le.trans (h.updates i)

theorem Indexed.sameMarket (h : o.Indexed) (hsame : o.SameMarket o') : o'.Indexed := by
  refine h.of_sub hsame.keeps (by rw [hsame.subs]) fun k i hi => ?_
  rw [hsame.byKey] at hi
  exact hi

/-- The two states agree on the order subscriptions. -/
structure SameOrders (o o' : PushOrchestration) : Prop where
  orders : o'.orders = o.orders
  orderSubs : o'.orderSubs = o.orderSubs
  buffer : o'.buffer = o.buffer

theorem SameOrders.refl (o : PushOrchestration) : o.SameOrders o := ⟨rfl, rfl, rfl⟩

theorem SameOrders.trans {o'' : PushOrchestration} (h : o.SameOrders o') (h' : o'.SameOrders o'') :
    o.SameOrders o'' :=
  ⟨h'.orders.trans h.orders, h'.orderSubs.trans h.orderSubs, h'.buffer.trans h.buffer⟩

theorem OrdersOpen.sameOrders (h : o.OrdersOpen) (hsame : o.SameOrders o') : o'.OrdersOpen := by
  refine ⟨?_, ?_, ?_⟩
  · rw [hsame.orders]
    exact h.nodup
  · rw [hsame.orders, hsame.orderSubs]
    exact h.opened
  · rw [hsame.orderSubs, hsame.buffer]
    exact h.updates

theorem OrdersOpen.registerOrder (h : o.OrdersOpen) (account : AccountId) :
    (o.registerOrder account).OrdersOpen := by
  have hfields : (o.registerOrder account).orders = o.orders ++ [o.orderSubs.size] ∧
      (o.registerOrder account).orderSubs = o.orderSubs.alloc { accountID := account } ∧
      (o.registerOrder account).buffer = o.buffer := by
    rw [PushOrchestration.registerOrder]
    cases o.tradeOn <;> exact ⟨rfl, rfl, rfl⟩
  obtain ⟨horders, hsubs, hbuffer⟩ := hfields
  have hnew : o.orderSubs.size ∉ o.orders := fun hmem => Nat.lt_irrefl _ (h.opened _ hmem).1
  refine ⟨?_, fun j hj => ?_, fun j => ?_⟩
  · rw [horders]
    exact List.nodup_append.mpr ⟨h.nodup, List.nodup_singleton _, fun a ha b hb heq =>
      hnew (List.mem_singleton.mp hb ▸ heq ▸ ha)⟩
  · rw [hsubs, Heap.size_alloc, Heap.get_alloc]
    rw [horders] at hj
    rcases List.mem_append.mp hj with hj | hj
    · have hlt := (h.opened j hj).1
      rw [if_neg (Nat.ne_of_lt hlt)]
      exact ⟨Nat.lt_succ_of_lt hlt, (h.opened j hj).2⟩
    · rw [List.mem_singleton.mp hj, if_pos rfl]
      exact ⟨Nat.lt_succ_self _, rfl⟩
  · rw [hsubs, Heap.get_alloc, hbuffer]
    split
    · exact Nat.zero_le _
    · exact h.updates j

theorem shutdown_order_updates (s : OrderSubscription) : s.shutdown.updates = s.updates := by
  rw [OrderSubscription.shutdown]
  split <;> rfl

/-- Order subscriptions leave the registry and are shut down. -/
theorem OrdersOpen.shutdownOrders (h : o.OrdersOpen) {ids : List OrderId}
    (horders : o'.orders.Sublist o.orders) (hout : ∀ j ∈ o'.orders, j ∉ ids)
    (hsubs : o'.orderSubs = o.orderSubs.modifyAll ids OrderSubscription.shutdown)
    (hbuffer : o'.buffer = o.buffer) : o'.OrdersOpen := by
  refine ⟨h.nodup.sublist horders, fun j hj => ?_, fun j => ?_⟩
  · rw [hsubs, Heap.size_modifyAll, Heap.get_modifyAll_of_notMem _ _ (hout j hj)]
    exact h.opened j (horders.subset hj)
  · have hsame : (o'.orderSubs.get j).updates = (o.orderSubs.get j).updates := by
      rw [hsubs]
      exact Heap.get_modifyAll_eq shutdown_order_updates _ _ _
    rw [hsame, hbuffer]
    exact h.updates j

/-! ## Deliveries -/

/-- A channel that is not overfull takes the update. -/
theorem puts_sendDropOldest (hb : 0 < buffer) {chan : List PushUpdate} (hlen : chan.length ≤ buffer)
    (u : PushUpdate) (dropped : ℕ) : Puts u chan (sendDropOldest buffer chan u).1 dropped
      (if (sendDropOldest buffer chan u).2 then dropped + 1 else dropped) := by
  rw [sendDropOldest]
  split
  · refine ⟨List.getLast?_concat, ?_⟩
    simp only [List.length_append, List.length_singleton, Bool.false_eq_true, if_false]
    omega
  · have htail : chan.tail.length < buffer := by
      rw [List.length_tail]
      omega
    simp only [if_pos htail, if_true]
    refine ⟨List.getLast?_concat, ?_⟩
    simp only [List.length_append, List.length_singleton, List.length_tail]
    omega

/-- Nothing is put where nothing changes. -/
theorem not_puts_self {u : PushUpdate} {updates : List PushUpdate} {dropped : ℕ} :
    ¬ Puts u updates updates dropped dropped := fun h => by
  have hcount := h.2
  omega

theorem puts_deliver (hb : 0 < buffer) {sub : Subscription} (hopen : sub.closed = false)
    (hlen : sub.updates.length ≤ buffer) (now : Time) (u : PushUpdate) :
    Puts u sub.updates (sub.deliver buffer now u).updates sub.dropped
      (sub.deliver buffer now u).dropped := by
  rw [Subscription.deliver, hopen]
  exact puts_sendDropOldest hb hlen u sub.dropped

theorem puts_deliverOrder (hb : 0 < buffer) {ord : OrderSubscription} (hopen : ord.closed = false)
    (hlen : ord.updates.length ≤ buffer) (now : Time) (u : PushUpdate) :
    Puts u ord.updates (ord.deliver buffer now u).updates ord.dropped
      (ord.deliver buffer now u).dropped := by
  rw [OrderSubscription.deliver, hopen]
  exact puts_sendDropOldest hb hlen u ord.dropped

theorem length_deliver_le (hb : 0 < buffer) {sub : Subscription}
    (hlen : sub.updates.length ≤ buffer) (now : Time) (u : PushUpdate) :
    (sub.deliver buffer now u).updates.length ≤ buffer := by
  rw [Subscription.deliver]
  split
  · exact hlen
  · exact (sendDropOldest_spec hb hlen u).2.2

theorem length_deliverOrder_le (hb : 0 < buffer) {ord : OrderSubscription}
    (hlen : ord.updates.length ≤ buffer) (now : Time) (u : PushUpdate) :
    (ord.deliver buffer now u).updates.length ≤ buffer := by
  rw [OrderSubscription.deliver]
  split
  · exact hlen
  · exact (sendDropOldest_spec hb hlen u).2.2

theorem deliverOrder_closed (buffer : ℕ) (now : Time) (u : PushUpdate) (ord : OrderSubscription) :
    (ord.deliver buffer now u).closed = ord.closed := by
  rw [OrderSubscription.deliver]
  split <;> rfl

/-- Delivering to several order subscriptions changes these, and the error stream. -/
theorem foldl_deliverOrder (now : Time) (u : PushUpdate) (l : List OrderId) (o : PushOrchestration) :
    (l.foldl (deliverOrder now u) o).orderSubs =
        o.orderSubs.modifyAll l (OrderSubscription.deliver o.buffer now u) ∧
      (l.foldl (deliverOrder now u) o).orders = o.orders ∧
      (l.foldl (deliverOrder now u) o).buffer = o.buffer := by
  induction l generalizing o with
  | nil => exact ⟨rfl, rfl, rfl⟩
  | cons j l ih => exact ih (o.deliverOrder now u j)

/-- What `dispatchTrade` does to the order subscriptions. -/
theorem OrdersOpen.dispatchTrade (h : o.OrdersOpen) (now : Time) (u : PushUpdate) :
    (o.dispatchTrade now u).OrdersOpen := by
  obtain ⟨hsubs, horders, hbuffer⟩ := foldl_deliverOrder now u o.orders o
  refine ⟨?_, fun j hj => ?_, fun j => ?_⟩
  · rw [PushOrchestration.dispatchTrade, horders]
    exact h.nodup
  · rw [PushOrchestration.dispatchTrade] at hj ⊢
    rw [horders] at hj
    rw [hsubs, Heap.size_modifyAll]
    refine ⟨(h.opened j hj).1, ?_⟩
    exact (Heap.get_modifyAll_eq (deliverOrder_closed o.buffer now u) _ _ _).trans (h.opened j hj).2
  · rw [PushOrchestration.dispatchTrade, hbuffer, hsubs]
    by_cases hj : j ∈ o.orders
    · rw [Heap.get_modifyAll_of_nodup _ h.nodup _ hj]
      exact length_deliverOrder_le o.buffer_pos (h.updates j) now u
    · rw [Heap.get_modifyAll_of_notMem _ _ hj]
      exact h.updates j

/-- Delivering to market subscriptions leaves the order subscriptions alone. -/
theorem sameOrders_foldl_deliver (now : Time) (u : PushUpdate) (l : List SubId)
    (o : PushOrchestration) : o.SameOrders (l.foldl (deliver now u) o) := by
  induction l generalizing o with
  | nil => exact .refl o
  | cons i l ih =>
    have hone : o.SameOrders (o.deliver now u i) := ⟨rfl, rfl, rfl⟩
    exact hone.trans (ih _)

theorem sameOrders_dispatchMarket [UnicodeTables] (o : PushOrchestration) (now : Time)
    (u : PushUpdate) : o.SameOrders (o.dispatchMarket now u) := by
  rw [dispatchMarket]
  split
  · exact ⟨rfl, rfl, rfl⟩
  · exact sameOrders_foldl_deliver now u _ o

/-! ## Every run -/

theorem mem_of_mem_removeAll {m : Buckets Bytes SubId} {keys : List Bytes} {i j : SubId} {k : Bytes}
    (hnodup : keys.Nodup) (h : i ∈ (m.removeAll keys j).get k) : i ∈ m.get k := by
  rw [Buckets.get_removeAll _ hnodup] at h
  split at h
  · exact List.mem_of_mem_erase h
  · exact h

theorem Indexed.shutdown (h : o.Indexed) (ids : List SubId) : (o.shutdown ids).Indexed :=
  h.of_sub (keeps_shutdown o ids) (Heap.size_modifyAll _ _ _) fun _ _ hj => hj

theorem Indexed.report (h : o.Indexed) (err : Option StreamError) : (o.report err).Indexed :=
  h.of_sub (.of_eq rfl rfl rfl) rfl fun _ _ hj => hj

theorem SameOrders.report (o : PushOrchestration) (err : Option StreamError) :
    o.SameOrders (o.report err) := ⟨rfl, rfl, rfl⟩

section

variable [UnicodeTables]

theorem Indexed.register (h : o.Indexed) (found : Option EntryId) (topic : TopicID)
    (msgType : NotifyMsgType) (securities : List Security) :
    (o.register found topic msgType securities).Indexed := by
  have hbuffer : (o.register found topic msgType securities).buffer = o.buffer := by
    cases found <;> rfl
  have hkeys : ∃ keys : List Bytes, keys.Nodup ∧
      (o.register found topic msgType securities).byKey = o.byKey.addAll keys o.subs.size := by
    cases found with
    | _ => exact ⟨_, nodup_securityKeys _, rfl⟩
  obtain ⟨keys, hnodup, hkeys⟩ := hkeys
  refine ⟨fun k i hi => ?_, fun i => ?_⟩
  · rw [register_subs, Heap.size_alloc]
    rw [hkeys, Buckets.get_addAll _ hnodup] at hi
    split at hi
    · rcases List.mem_append.mp hi with hi | hi
      · exact Nat.lt_succ_of_lt (h.exist k i hi)
      · rw [List.mem_singleton.mp hi]
        exact Nat.lt_succ_self _
    · exact Nat.lt_succ_of_lt (h.exist k i hi)
  · rw [register_subs, Heap.get_alloc, hbuffer]
    split
    · exact Nat.zero_le _
    · exact h.updates i

theorem Indexed.detachLocked (h : o.Indexed) (i : SubId) : (o.detachLocked i).1.Indexed := by
  refine h.of_sub (keeps_detachLocked o i) (by rw [(o.detachLocked_same i).1]) fun k j hj => ?_
  rcases he : o.entries.lookup (o.subs.get i).key with _ | e
  · rw [detachLocked_of_lookup_none he] at hj
    exact hj
  · rw [detachLocked_of_lookup he] at hj
    exact mem_of_mem_removeAll (nodup_securityKeys _) hj

theorem Indexed.killSection (h : o.Indexed) (e : EntryId) : (o.killSection e).Indexed := by
  refine h.of_sub (.of_eq rfl rfl rfl) rfl fun k j hj => ?_
  have hfold : ∀ (l : List SubId) (m : Buckets Bytes SubId),
      j ∈ (l.foldl (fun m sub => m.removeAll (securityKeys (o.subs.get sub).securities) sub)
        m).get k → j ∈ m.get k := by
    intro l
    induction l with
    | nil => exact fun m hm => hm
    | cons sub l ih => exact fun m hm => mem_of_mem_removeAll (nodup_securityKeys _) (ih _ hm)
  exact hfold _ _ hj

theorem Indexed.handle (h : o.Indexed) (now : Time) (u : PushUpdate) : (o.handle now u).Indexed := by
  by_cases hother : u.event = none ∨ isTradeNotifyType u.type = true
  · exact h.sameMarket (o.handle_other now hother)
  · obtain ⟨hevent, hmarket⟩ := not_or.mp hother
    have hfalse := Bool.eq_false_of_not_eq_true hmarket
    obtain ⟨hbuffer, -, hget⟩ := o.handle_market now hevent hfalse
    have hmaps : (o.handle now u).byKey = o.byKey ∧ (o.handle now u).subs.size = o.subs.size := by
      rw [PushOrchestration.handle, if_neg hevent, hfalse, if_neg Bool.false_ne_true,
        dispatchMarket]
      split
      · exact ⟨rfl, rfl⟩
      · have hfold : ∀ (l : List SubId) (o : PushOrchestration),
            (l.foldl (deliver now u) o).byKey = o.byKey ∧
              (l.foldl (deliver now u) o).subs.size = o.subs.size := by
          intro l
          induction l with
          | nil => exact fun o => ⟨rfl, rfl⟩
          | cons i l ih => exact fun o => ih (o.deliver now u i)
        exact hfold _ o
    refine ⟨fun k i hi => ?_, fun i => ?_⟩
    · rw [hmaps.2]
      rw [hmaps.1] at hi
      exact h.exist k i hi
    · rw [hbuffer, hget i]
      split
      · exact length_deliver_le o.buffer_pos (h.updates i) now u
      · exact h.updates i

theorem sameOrders_detachLocked (o : PushOrchestration) (i : SubId) :
    o.SameOrders (o.detachLocked i).1 := by
  obtain ⟨heap, entries, byKey, -, h⟩ := o.detachLocked_frame i
  rw [h]
  exact ⟨rfl, rfl, rfl⟩

theorem OrdersOpen.handle (h : o.OrdersOpen) (now : Time) (u : PushUpdate) :
    (o.handle now u).OrdersOpen := by
  rw [PushOrchestration.handle]
  split
  · exact h
  · split
    · exact h.dispatchTrade now u
    · exact h.sameOrders (o.sameOrders_dispatchMarket now u)

end

end PushOrchestration

namespace World

open PushOrchestration

variable {w w' : World}

/-- What holds of the registry in every run. -/
structure Sound (w : World) : Prop where
  indexed : w.orch.Indexed
  orders : w.orch.OrdersOpen

theorem Sound.of_orch {o : PushOrchestration} (hindexed : o.Indexed) (horders : o.OrdersOpen)
    (h : w.orch = o) : w.Sound := by
  subst h
  exact ⟨hindexed, horders⟩

theorem Sound.resubscribeOrders (h : w.Sound) (account : AccountId) (reply : Reply) :
    (w.resubscribeOrders account reply).Sound := by
  refine ⟨h.indexed.sameMarket (w.sameMarket_resubscribeOrders account reply), ?_⟩
  cases reply with
  | none => exact h.orders
  | some cause => exact h.orders.shutdownOrders (List.nil_sublist _) nofun rfl rfl

theorem sound_init (market trade transport : Bool) (n : ℤ) :
    (World.init market trade transport n).Sound := by
  refine ⟨⟨fun k i hi => ?_, fun i => Nat.zero_le _⟩, List.nodup_nil, nofun, fun j => Nat.zero_le _⟩
  rw [show (World.init market trade transport n).orch.byKey = ∅ from rfl, Buckets.get_empty] at hi
  cases hi

variable [UnicodeTables]

theorem Sound.resubscribe (h : w.Sound) (replies : Replies) (e : EntryId) :
    (resubscribe replies w e).Sound := by
  rcases resubscribe_orch replies w e with horch | ⟨err, err', horch⟩
  · exact .of_orch h.indexed h.orders horch
  · have hsame : w.orch.SameOrders
        ((((w.orch.report err).killSection e).shutdown (w.orch.heap.get e).subs).report err') :=
      ⟨rfl, rfl, rfl⟩
    exact .of_orch ((((h.indexed.report err).killSection e).shutdown _).report err')
      (h.orders.sameOrders hsame) horch

theorem Sound.reconnect (h : w.Sound) (cause : Option Bytes) (replies : Replies) :
    (w.reconnect cause replies).Sound := by
  rw [World.reconnect]
  split
  · exact h
  · rw [resubscribeAll]
    have hloop : ∀ (l : List EntryId) {w : World}, w.Sound →
        (l.foldl (World.resubscribe replies) w).Sound := by
      intro l
      induction l with
      | nil => exact fun h => h
      | cons e l ih => exact fun h => ih (h.resubscribe replies e)
    have hreport : Sound { w with orch := w.orch.report (some (.reconnected cause)) } :=
      ⟨h.indexed.report _, h.orders.sameOrders (.report w.orch _)⟩
    have hall := hloop (w.orch.report (some (.reconnected cause))).snapshot hreport
    simp only
    split
    · exact hall
    · exact hall.resubscribeOrders _ _

/-- **One operation.** -/
theorem Sound.step (h : w.Sound) {op : Operation} (hstep : w.step op = some w') : w'.Sound := by
  cases op with
  | subscribe topic sec reply =>
    cases hstep
    rcases w.subscribe_cases topic sec reply with heq | ⟨msgType, securities, found, -, -, heq⟩
    · rw [heq]
      exact h
    · rw [heq]
      have hsame : w.orch.SameOrders (w.orch.register found topic msgType securities) := by
        cases found <;> exact ⟨rfl, rfl, rfl⟩
      exact ⟨h.indexed.register found topic msgType securities, h.orders.sameOrders hsame⟩
  | cancel sub reply =>
    obtain ⟨-, heq⟩ := Option.ite_none_right_eq_some.mp hstep
    cases heq
    cases hclosed : (w.orch.subs.get sub).closed with
    | true =>
      rw [cancel, hclosed]
      exact h
    | false =>
      obtain ⟨err, horch⟩ := cancel_orch hclosed reply
      have hrest : (w.orch.detachLocked sub).1.SameOrders
          (((w.orch.detachLocked sub).1.shutdown [sub]).report err) := ⟨rfl, rfl, rfl⟩
      exact .of_orch (((h.indexed.detachLocked sub).shutdown _).report err)
        (h.orders.sameOrders ((sameOrders_detachLocked _ _).trans hrest)) horch
  | subscribeOrders account reply =>
    cases hstep
    refine ⟨h.indexed.sameMarket (w.sameMarket_subscribeOrders account reply), ?_⟩
    unfold subscribeOrders
    split
    · exact h.orders
    · split
      · exact h.orders.registerOrder account
      · split
        · exact h.orders
        · exact h.orders.registerOrder account
  | cancelOrder ord reply =>
    obtain ⟨-, heq⟩ := Option.ite_none_right_eq_some.mp hstep
    cases heq
    refine ⟨h.indexed.sameMarket (w.sameMarket_cancelOrder ord reply), ?_⟩
    have hout : ∀ j ∈ w.orch.orders.erase ord, j ∉ [ord] := by
      intro j hj hmem
      rw [List.mem_singleton.mp hmem] at hj
      exact h.orders.nodup.not_mem_erase hj
    unfold cancelOrder
    split
    · exact h.orders
    · simp only
      split
      · exact h.orders.shutdownOrders List.erase_sublist hout rfl rfl
      · cases reply <;> exact h.orders.shutdownOrders List.erase_sublist hout rfl rfl
  | reconnect cause replies =>
    cases hstep
    exact h.reconnect cause replies
  | close =>
    cases hstep
    rw [close]
    split
    · exact h
    · refine ⟨⟨fun k i hi => ?_, fun i => ?_⟩,
        h.orders.shutdownOrders (List.nil_sublist _) (by rintro _ ⟨⟩) rfl rfl⟩
      · rw [show ((({ w.orch with closed := true } : PushOrchestration).drain.shutdown
          _).shutdownOrders _).byKey = ∅ from rfl, Buckets.get_empty] at hi
        cases hi
      · exact ((keeps_shutdown _ _).updates i).length_le.trans (h.indexed.updates i)
  | dispatch u now =>
    obtain ⟨-, heq⟩ := Option.ite_none_right_eq_some.mp hstep
    cases heq
    exact ⟨h.indexed.handle now u, h.orders.handle now u⟩
  | transportError cause =>
    cases hstep
    exact ⟨h.indexed.report _, h.orders.sameOrders (.report w.orch _)⟩
  | receive sub =>
    have hkeeps := step_keeps hstep (by rintro _ _ _ ⟨⟩) (by rintro _ _ ⟨⟩)
    cases hstep
    exact ⟨h.indexed.of_sub hkeeps rfl fun _ _ hj => hj,
      h.orders.sameOrders ⟨rfl, rfl, rfl⟩⟩
  | receiveOrder ord =>
    cases hstep
    have hsubs := Heap.rel_modify (R := fun s s' : OrderSubscription => s'.closed = s.closed ∧
      s'.updates.length ≤ s.updates.length) (f := fun s => { s with updates := s.updates.tail })
      (fun _ => ⟨rfl, le_rfl⟩) (fun s => ⟨rfl, s.updates.tail_sublist.length_le⟩) w.orch.orderSubs ord
    refine ⟨h.indexed.sameMarket ⟨rfl, rfl, rfl, rfl, rfl, rfl, rfl⟩, h.orders.nodup,
      fun j hj => ?_, fun j => (hsubs j).2.trans (h.orders.updates j)⟩
    obtain ⟨hlt, hopen⟩ := h.orders.opened j hj
    exact ⟨hlt, (hsubs j).1.trans hopen⟩
  | receiveError =>
    cases hstep
    exact ⟨h.indexed.sameMarket ⟨rfl, rfl, rfl, rfl, rfl, rfl, rfl⟩,
      h.orders.sameOrders ⟨rfl, rfl, rfl⟩⟩

/-- **Every run.** -/
theorem sound_run {market trade transport : Bool} {n : ℤ} {run : List Operation}
    (hrun : exec World.step (World.init market trade transport n) run = some w) : w.Sound :=
  (always_of_step (fun _ _ _ h hstep => Sound.step h hstep)
    (sound_init market trade transport n) run).last hrun

end World

/-! ## When an update is noticed -/

namespace PushOrchestration

variable {o : PushOrchestration}

/-- An order-status update needs an order subscription. -/
theorem noticed_dispatchTrade_iff (hopen : o.OrdersOpen) (now : Time) (u : PushUpdate) :
    o.Noticed (o.dispatchTrade now u) u ↔ o.orders ≠ [] := by
  have hmarket := o.sameMarket_dispatchTrade now u
  obtain ⟨hsubs, -, -⟩ := foldl_deliverOrder now u o.orders o
  constructor
  · rintro ((⟨i, -, hput⟩ | ⟨j, -, -, hput⟩) | ⟨hcount, -⟩) hnil
    · rw [hmarket.subs] at hput
      exact not_puts_self hput
    · rw [dispatchTrade, hsubs, hnil] at hput
      exact not_puts_self hput
    · have hsame := hmarket.unrouted
      omega
  · intro hne
    obtain ⟨j, hj⟩ := List.exists_mem_of_ne_nil _ hne
    obtain ⟨hlt, hclosed⟩ := hopen.opened j hj
    refine .inl (.inr ⟨j, hlt, hclosed, ?_⟩)
    rw [dispatchTrade, hsubs, Heap.get_modifyAll_of_nodup _ hopen.nodup _ hj]
    exact puts_deliverOrder o.buffer_pos hclosed (hopen.updates j) now u

/-- A report reaches the stream unless the orchestration is closed. -/
theorem reported_report_iff (o : PushOrchestration) (err : StreamError) :
    o.Reported (o.report (some err)) err ↔ o.closed = false := by
  unfold Reported report reported
  cases hclosed : o.closed with
  | true =>
    refine iff_of_false (fun h => ?_) nofun
    have hcount := h.2
    simp only [if_true] at hcount
    omega
  | false =>
    refine iff_of_true ?_ rfl
    simp only [Bool.false_eq_true, if_false]
    split
    · refine ⟨List.getLast?_concat, ?_⟩
      simp only [List.length_append, List.length_singleton]
      omega
    · rename_i hfull
      refine ⟨List.getLast?_concat, ?_⟩
      have hpos : 0 < o.errc.length := by
        have : 0 < defaultPushBuffer := by decide
        omega
      simp only [List.length_append, List.length_singleton, List.length_tail]
      omega

section

variable [UnicodeTables]

/-- A market update needs a live target; without any target it needs the count and the report. -/
theorem noticed_dispatchMarket_iff (hindexed : o.Indexed) (now : Time) (u : PushUpdate) :
    o.Noticed (o.dispatchMarket now u) u ↔
      (∃ i ∈ o.marketTargets u, (o.subs.get i).closed = false) ∨
        (o.marketTargets u = [] ∧ (o.closed = false ∨ u.id ∈ o.seenIDs)) := by
  have horders := o.sameOrders_dispatchMarket now u
  have hnotOrder : ∀ j, ¬ Puts u (o.orderSubs.get j).updates
      ((o.dispatchMarket now u).orderSubs.get j).updates (o.orderSubs.get j).dropped
      ((o.dispatchMarket now u).orderSubs.get j).dropped := by
    intro j hput
    rw [horders.orderSubs] at hput
    exact not_puts_self hput
  by_cases hnil : o.marketTargets u = []
  · have hstate : o.dispatchMarket now u = o.recordUnrouted u := by
      rw [dispatchMarket, if_pos hnil]
    have hreport : u.id ∉ o.seenIDs → (o.Reported (o.recordUnrouted u)
        (.unrouted u.type u.id u.securityCode) ↔ o.closed = false) := by
      intro hnew
      rw [recordUnrouted, unroutedReport, if_neg hnew]
      exact reported_report_iff (o.countUnrouted u) _
    constructor
    · rintro ((⟨i, -, hput⟩ | ⟨j, -, -, hput⟩) | ⟨-, hrep⟩)
      · rw [hstate] at hput
        exact absurd hput not_puts_self
      · exact absurd hput (hnotOrder j)
      · refine .inr ⟨hnil, ?_⟩
        by_cases hnew : u.id ∈ o.seenIDs
        · exact .inr hnew
        · rw [hstate] at hrep
          exact .inl ((hreport hnew).mp (hrep hnew))
    · rintro (⟨i, hi, -⟩ | ⟨-, hcond⟩)
      · rw [hnil] at hi
        cases hi
      · refine .inr ⟨by rw [hstate]; rfl, fun hnew => ?_⟩
        rw [hstate]
        exact (hreport hnew).mpr (hcond.resolve_right hnew)
  · obtain ⟨hsubs, hunrouted, -⟩ := foldl_deliver now u (o.marketTargets u) o
    have hstate : o.dispatchMarket now u = (o.marketTargets u).foldl (deliver now u) o := by
      rw [dispatchMarket, if_neg hnil]
    constructor
    · rintro ((⟨i, hlive, hput⟩ | ⟨j, -, -, hput⟩) | ⟨hcount, -⟩)
      · refine .inl ⟨i, ?_, hlive.2⟩
        by_contra hnot
        rw [hstate, hsubs, Heap.get_modifyAll_of_notMem _ _ hnot] at hput
        exact not_puts_self hput
      · exact absurd hput (hnotOrder j)
      · rw [hstate] at hcount
        omega
    · rintro (⟨i, hi, hclosed⟩ | ⟨habs, -⟩)
      · have hnodup : (o.marketTargets u).Nodup := nodup_distinct _
        obtain ⟨k, -, hk⟩ := PushOrchestration.mem_marketTargets.mp hi
        refine .inl (.inl ⟨i, ⟨hindexed.exist k i hk, hclosed⟩, ?_⟩)
        rw [hstate, hsubs, Heap.get_modifyAll_of_nodup _ hnodup _ hi]
        exact puts_deliver o.buffer_pos hclosed (hindexed.updates i) now u
      · exact absurd habs hnil

end

end PushOrchestration

section

variable [UnicodeTables]

/-- **When an update is noticed.** In every state of a run of atomic operations, an update with an
event that is handed to an installed handler is enqueued to a live subscription, or counted and,
for a new id, reported, if and only if: there is an order subscription, for an order-status type;
one of its targets is live, or there is no target and the orchestration is not closed or the id was
seen, for a market type. -/
theorem noticed_iff {market trade transport : Bool} {n : ℤ} {run : List Operation} {w w' : World}
    {u : PushUpdate} {now : Time}
    (hrun : exec World.step (World.init market trade transport n) run = some w)
    (hstep : w.step (.dispatch u now) = some w') (hevent : u.event ≠ none) :
    w.orch.Noticed w'.orch u ↔
      if isTradeNotifyType u.type then w.orch.orders ≠ []
      else (∃ i ∈ w.orch.marketTargets u, (w.orch.subs.get i).closed = false) ∨
        (w.orch.marketTargets u = [] ∧ (w.orch.closed = false ∨ u.id ∈ w.orch.seenIDs)) := by
  have hsound := World.sound_run hrun
  obtain ⟨-, heq⟩ := Option.ite_none_right_eq_some.mp hstep
  cases heq
  simp only [PushOrchestration.handle, if_neg hevent]
  cases htrade : isTradeNotifyType u.type with
  | true =>
    simp only [if_true]
    exact PushOrchestration.noticed_dispatchTrade_iff hsound.orders now u
  | false =>
    simp only [Bool.false_eq_true, if_false]
    exact PushOrchestration.noticed_dispatchMarket_iff hsound.indexed now u

end

/-- A fill. -/
def someFill : PushUpdate := ⟨tradeStockDeliverMsgType, [], 0, some (.trade (bytes "00700.HK") [])⟩

/-- Order push is on, and the last order subscription is cancelled while the Gateway refuses to turn
it off. -/
def lastOrderCancelled : List Operation :=
  [.subscribeOrders (bytes "A") none, .cancelOrder 0 (some (bytes "busy"))]

/-- A fill that comes then leaves no trace. -/
theorem fill_disappears : ∃ w, exec (@World.step asciiTables) (World.init true true true 0)
      lastOrderCancelled = some w ∧ w.gateway.orderPush = true ∧
    ∃ w', @World.step asciiTables w (.dispatch someFill 1) = some w' ∧
      someFill.event ≠ none ∧ w'.orch = w.orch ∧ ¬ w.orch.Noticed w'.orch someFill := by
  obtain ⟨w, hw, hpush, hinst, horders⟩ : ∃ w, exec (@World.step asciiTables)
      (World.init true true true 0) lastOrderCancelled = some w ∧ w.gateway.orderPush = true ∧
      w.orch.installed someFill.type = true ∧ w.orch.orders = [] := exec_exists (by decide +kernel)
  have hsame : @PushOrchestration.handle asciiTables w.orch 1 someFill = w.orch := by
    simp only [PushOrchestration.handle, PushOrchestration.dispatchTrade, horders]
    rfl
  have hstep : @World.step asciiTables w (.dispatch someFill 1) = some w := by
    simp only [World.step, hinst, if_true, hsame]
  have hevent : someFill.event ≠ none := Option.some_ne_none _
  refine ⟨w, hw, hpush, w, hstep, hevent, rfl, ?_⟩
  rintro ((⟨i, -, hput⟩ | ⟨j, -, -, hput⟩) | ⟨hcount, -⟩)
  · exact PushOrchestration.not_puts_self hput
  · exact PushOrchestration.not_puts_self hput
  · omega

/-- A quote that nobody asked for. -/
def someQuote : PushUpdate :=
  ⟨basicQotNotifyMsgType, bytes "00700.HK", 0, some (.quote (bytes "00700.HK") [])⟩

theorem noticed_someQuote : ∃ w w', exec (@World.step asciiTables) (World.init true true true 0)
      lastOrderCancelled = some w ∧ @World.step asciiTables w (.dispatch someQuote 1) = some w' ∧
    w.orch.Noticed w'.orch someQuote := by
  obtain ⟨w, hw, hinst, hclosed, htargets⟩ : ∃ w, exec (@World.step asciiTables)
      (World.init true true true 0) lastOrderCancelled = some w ∧
      w.orch.installed someQuote.type = true ∧ w.orch.closed = false ∧
      @PushOrchestration.marketTargets asciiTables w.orch someQuote = [] :=
    exec_exists (by decide +kernel)
  have hstep : @World.step asciiTables w (.dispatch someQuote 1) = some
      { w with orch := @PushOrchestration.handle asciiTables w.orch 1 someQuote } := by
    simp only [World.step, hinst, if_true]
  refine ⟨w, _, hw, hstep, (@noticed_iff asciiTables _ _ _ _ _ w _ _ _ hw hstep nofun).mpr ?_⟩
  exact .inr ⟨htargets, .inl hclosed⟩

end HstongApi
