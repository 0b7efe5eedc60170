import HstongApi.PushOrders

/-!
# Order push stays on while it is needed, if no request comes late

Order push is one switch for the whole session: the first order subscription turns it on,
the last one turns it off, and a reconnect turns it on again. `SubscribeOrders` makes its
request inside the critical section. The last `OrderSubscription.Cancel` makes its request
after the section, and a reconnect makes it from a snapshot. So both can reach the Gateway
when things have changed: a late request of a `Cancel` turns the switch off under a new
subscription, and a late request of a reconnect turns it on for nobody. A `Cancel` that
counts down twice (`HstongApi.PushOrders`) turns it off under another subscription.

`order_push_agrees` excludes these three: whenever all threads are idle, order push is on
exactly if an order subscription is live.
-/

namespace HstongApi.PushThreads

open Threads

/-! ## The calls, and when their requests are in time -/

/-- A call of `SubscribeOrders`, `OrderSubscription.Cancel` or the reconnect hook, or an
action whose request is accepted. -/
def OrderCalls : Action → Prop
  | .call _ (.subscribeOrders _) | .call _ (.cancelOrder _) | .call _ (.reconnect _) => True
  | .call _ _ => False
  | .run _ reply => reply = none

instance : DecidablePred OrderCalls := by
  rintro (⟨_, _ | _⟩ | _) <;> dsimp only [OrderCalls] <;> infer_instance

/-- Some order subscription is open. -/
def OrderLive (s : Shared) : Prop :=
  ∃ ord < s.orch.orderSubs.size, (s.orch.orderSubs.get ord).closed = false

instance : DecidablePred OrderLive := fun s =>
  inferInstanceAs (Decidable (∃ ord < s.orch.orderSubs.size,
    (s.orch.orderSubs.get ord).closed = false))

/-- The thread is about to register an order subscription. -/
def registersOrder : Point Section Work → Bool
  | .inside (.registerOrders _) => true
  | _ => false

/-- The thread is about to turn order push off, or on again after a reconnect. -/
def switches : Point Section Work → Option Bool
  | .work (.cancelOrderRequest _) => some false
  | .work (.resubscribe ⟨[], some _⟩) => some true
  | _ => none

/-- Order push is turned off while no order subscription is registered or about to be, and
a reconnect turns it on while one is registered. -/
def SwitchesInTime (s : System) : Action → Prop
  | .run t _ => ∀ on ∈ switches (s.point t),
      if on then s.shared.orch.orders ≠ []
      else s.shared.orch.orders = [] ∧ ∀ t' ∈ s.holder .subMu, registersOrder (s.point t') = false
  | .call _ _ => True

instance (s : System) : DecidablePred (SwitchesInTime s) := by
  rintro (_ | _) <;> dsimp only [SwitchesInTime] <;> infer_instance

/-! ## The outline -/

/-- The count is right, what is registered is open, and order push is on for it. -/
structure OrdersServed (s : Shared) : Prop where
  counted : Counted s
  nodup : s.orch.orders.Nodup
  registered_lt : ∀ ord ∈ s.orch.orders, ord < s.orch.orderSubs.size
  registered_open : ∀ ord ∈ s.orch.orders, (s.orch.orderSubs.get ord).closed = false
  trade : 0 < s.orch.orderSubs.size → s.orch.trade = true
  served : s.orch.orders ≠ [] → s.gateway.orderPush = true

/-- What holds before the lock of a section. -/
def OrderSection (s : Shared) : Section → Prop
  | .lookupOrders _ => s.orch.trade = true
  | .cancelOrder ord => ord < s.orch.orderSubs.size
  | .snapshot => True
  | _ => False

/-- What holds inside a section. -/
def OrderInside (s : Shared) : Section → Prop
  | .requestOrders _ => s.orch.trade = true
  | .registerOrders _ => s.orch.trade = true ∧ s.gateway.orderPush = true
  | c => OrderSection s c

/-- What holds outside. -/
def OrderWork (s : Shared) : Work → Prop
  | .subscribeOrders _ | .cancelOrderRequest _ | .reconnect _ | .reconnectReport _
  | .resubscribe _ => True
  | .cancelOrderShutdown ord _ _ => ord < s.orch.orderSubs.size ∧ ord ∉ s.orch.orders
  | _ => False

/-- What holds at the places of a thread. -/
def orderPlaces : Assertions Shared Section Work := ⟨OrderSection, OrderInside, OrderWork⟩

/-- What holds before a thread goes on outside. -/
abbrev OrderExit : Shared → Exit Section Work → Prop := orderPlaces.atExit

/-- The assertion at a point. -/
abbrev OrderPoint : Shared → Point Section Work → Prop := orderPlaces.atPoint

variable {s s' : Shared} {x y : Exit Section Work} {c : Section} {k : Work} {ord : OrderId}

theorem OrderSection.inside (h : OrderSection s c) : OrderInside s c := by
  cases c <;> first | exact h | exact h.elim

/-- What other threads may do to the assertions: order subscriptions are added, and those
that exist are not registered again. -/
structure OrdersGrow (s s' : Shared) : Prop where
  size : s.orch.orderSubs.size ≤ s'.orch.orderSubs.size
  trade : s'.orch.trade = s.orch.trade
  orders : ∀ ord < s.orch.orderSubs.size, ord ∈ s'.orch.orders → ord ∈ s.orch.orders

theorem OrdersGrow.of_eq (hsubs : s'.orch.orderSubs.size = s.orch.orderSubs.size)
    (htrade : s'.orch.trade = s.orch.trade) (horders : s'.orch.orders = s.orch.orders) :
    OrdersGrow s s' := ⟨hsubs.ge, htrade, fun _ _ h => horders ▸ h⟩

theorem OrderSection.grow (hg : OrdersGrow s s') (h : OrderSection s c) : OrderSection s' c := by
  cases c with
  | lookupOrders account => exact hg.trade.trans h
  | cancelOrder ord => exact Nat.lt_of_lt_of_le h hg.size
  | snapshot => trivial
  | _ => exact h.elim

theorem OrderWork.grow (hg : OrdersGrow s s') (h : OrderWork s k) : OrderWork s' k := by
  cases k with
  | cancelOrderShutdown ord last account =>
    exact ⟨Nat.lt_of_lt_of_le h.1 hg.size, fun hord => h.2 (hg.orders ord h.1 hord)⟩
  | subscribeOrders account | cancelOrderRequest account | reconnect cause | reconnectReport cause
  | resubscribe rest => trivial
  | _ => exact h.elim

/-- An assertion outlives an action of another thread that does not turn order push off
under a thread that is about to register. -/
theorem OrderPoint.grow (hg : OrdersGrow s s') {p : Point Section Work}
    (hon : registersOrder p = true → s.gateway.orderPush = true → s'.gateway.orderPush = true)
    (h : OrderPoint s p) : OrderPoint s' p := by
  refine h.mono (fun _ => OrderSection.grow hg) (fun _ => OrderWork.grow hg) ?_
  rintro c rfl hc
  cases c with
  | requestOrders account | lookupOrders account => exact hg.trade.trans hc
  | registerOrders account => exact ⟨hg.trade.trans hc.1, hon rfl hc.2⟩
  | cancelOrder ord => exact Nat.lt_of_lt_of_le hc hg.size
  | snapshot => trivial
  | _ => exact hc.elim

/-! ## What a step does -/

/-- The request to turn order push off lies ahead. -/
def Work.owesSwitch : Work → Bool
  | .cancelOrderShutdown _ last _ => last
  | .cancelOrderRequest _ => true
  | _ => false

/-- The thread is about to register the subscription that order push was turned on for, or
to turn it off. -/
def owesSwitch : Exit Section Work → Bool
  | .enter (.registerOrders _) => true
  | .go k => k.owesSwitch
  | _ => false

/-- Order push is on only for a registered subscription. -/
def PushNeeded (s : Shared) : Prop := s.gateway.orderPush = true → s.orch.orders ≠ []

/-- The order subscription that is shut down next. -/
def Work.shutsDown : Work → Option OrderId
  | .cancelOrderShutdown ord _ _ => some ord
  | _ => none

/-- The thread is about to shut an order subscription down. -/
def owesShutdown : Exit Section Work → Option OrderId
  | .go k => k.shutsDown
  | _ => none

/-- The order subscription is registered or closed, if it exists. -/
def OrderKept (s : Shared) (ord : OrderId) : Prop :=
  ord < s.orch.orderSubs.size → ord ∈ s.orch.orders ∨ (s.orch.orderSubs.get ord).closed = true

/-- **What a step does to the order side**, of a thread that was about to do `x` and then is about to
do `y`: a debt is paid or still owed. -/
structure OrderSpec (s s' : Shared) (x y : Exit Section Work) : Prop where
  served : OrdersServed s'
  grow : OrdersGrow s s'
  needed : PushNeeded s ∨ owesSwitch x = true → PushNeeded s' ∨ owesSwitch y = true
  kept : ∀ ord, OrderKept s ord ∨ owesShutdown x = some ord →
    OrderKept s' ord ∨ owesShutdown y = some ord

/-- Nothing of the order side is touched, and nothing was owed. -/
theorem OrderSpec.keeps (h : OrdersServed s') (horders : s'.orch.orders = s.orch.orders)
    (hsubs : s'.orch.orderSubs = s.orch.orderSubs) (htrade : s'.orch.trade = s.orch.trade)
    (hpush : s'.gateway.orderPush = s.gateway.orderPush) (hx : owesSwitch x = false)
    (hx' : owesShutdown x = none) : OrderSpec s s' x y where
  served := h
  grow := .of_eq (congrArg Heap.size hsubs) htrade horders
  needed := by
    rw [hx, PushNeeded, PushNeeded, hpush, horders]
    exact fun hdone => .inl (hdone.resolve_right Bool.false_ne_true)
  kept := by
    intro ord
    rw [hx', OrderKept, OrderKept, hsubs, horders]
    exact fun hdone => .inl (hdone.resolve_right (by rintro ⟨⟩))

theorem OrderSpec.same (h : OrdersServed s) (hx : owesSwitch x = false)
    (hx' : owesShutdown x = none) : OrderSpec s s x y :=
  .keeps h rfl rfl rfl rfl hx hx'

/-- A new order subscription is registered last. -/
theorem registerOrder_fields (o : PushOrchestration) (account : AccountId) :
    (o.registerOrder account).orders = o.orders ++ [o.orderSubs.size] ∧
      (o.registerOrder account).orderSubs = o.orderSubs.alloc { accountID := account } ∧
      (o.registerOrder account).trade = o.trade := by
  rw [PushOrchestration.registerOrder]
  split <;> exact ⟨rfl, rfl, rfl⟩

theorem OrdersServed.registerOrder (h : OrdersServed s) (htrade : s.orch.trade = true)
    (hon : s.gateway.orderPush = true) (account : AccountId) :
    OrdersServed (s.withOrch (s.orch.registerOrder account)) := by
  obtain ⟨horders, hsubs, htrade'⟩ := registerOrder_fields s.orch account
  have hfresh : s.orch.orderSubs.size ∉ s.orch.orders :=
    fun hmem => Nat.lt_irrefl _ (h.registered_lt _ hmem)
  refine ⟨h.counted.registerOrder account, ?_, ?_, ?_, fun _ => htrade'.trans htrade, fun _ => hon⟩
  · simp only [Shared.withOrch, horders]
    exact List.nodup_append.mpr ⟨h.nodup, List.nodup_singleton _,
      fun a ha b hb heq => hfresh (List.mem_singleton.mp hb ▸ heq ▸ ha)⟩
  · intro ord hord
    simp only [Shared.withOrch, horders, List.mem_append, List.mem_singleton] at hord
    simp only [Shared.withOrch, hsubs, Heap.size_alloc]
    rcases hord with hord | rfl
    · exact Nat.lt_succ_of_lt (h.registered_lt ord hord)
    · exact Nat.lt_succ_self _
  · intro ord hord
    simp only [Shared.withOrch, horders, List.mem_append, List.mem_singleton] at hord
    simp only [Shared.withOrch, hsubs, Heap.get_alloc]
    split
    · rfl
    · rename_i hne
      exact h.registered_open ord (hord.resolve_right hne)

theorem registerOrders_spec (h : OrdersServed s) (htrade : s.orch.trade = true)
    (hon : s.gateway.orderPush = true) (account : AccountId) :
    OrderSpec s (s.withOrch (s.orch.registerOrder account))
      (.enter (.registerOrders account)) y := by
  obtain ⟨horders, hsubs, htrade'⟩ := registerOrder_fields s.orch account
  refine ⟨h.registerOrder htrade hon account, ⟨?_, htrade', fun ord hlt hord => ?_⟩,
    fun _ => .inl fun _ => ?_, fun ord hdone => .inl fun hlt => ?_⟩
  · simp only [Shared.withOrch, hsubs, Heap.size_alloc]
    exact Nat.le_succ _
  · simp only [Shared.withOrch, horders, List.mem_append, List.mem_singleton] at hord
    exact hord.resolve_right (Nat.ne_of_lt hlt)
  · simp only [Shared.withOrch, horders]
    exact List.append_ne_nil_of_right_ne_nil _ (List.cons_ne_nil _ _)
  · simp only [Shared.withOrch, horders, hsubs, Heap.size_alloc, Heap.get_alloc,
      List.mem_append, List.mem_singleton] at hlt ⊢
    by_cases hnew : ord = s.orch.orderSubs.size
    · exact .inl (.inr hnew)
    · rw [if_neg hnew]
      have hold := Nat.lt_of_le_of_ne (Nat.le_of_lt_succ hlt) hnew
      exact (hdone.resolve_right (by rintro ⟨⟩) hold).imp_left .inl

theorem OrdersServed.cancelOrder (h : OrdersServed s) (hord : ord ∈ s.orch.orders) :
    OrdersServed (s.withOrch (s.orch.cancelOrderSection ord)) := by
  have hsub : ∀ i ∈ s.orch.orders.erase ord, i ∈ s.orch.orders := fun i => List.mem_of_mem_erase
  refine ⟨h.counted.cancelOrder_iff.mpr hord, h.nodup.erase ord,
    fun i hi => h.registered_lt i (hsub i hi), fun i hi => h.registered_open i (hsub i hi),
    h.trade, fun hne => h.served fun hnil => hne ?_⟩
  have herase : (s.orch.cancelOrderSection ord).orders = s.orch.orders.erase ord := rfl
  simp only [Shared.withOrch, herase, hnil, List.erase_nil]

theorem cancelOrder_spec (h : OrdersServed s) (hord : ord ∈ s.orch.orders) (account : AccountId) :
    OrderSpec s (s.withOrch (s.orch.cancelOrderSection ord)) (.enter (.cancelOrder ord))
      (.go (.cancelOrderShutdown ord
        (decide ((s.orch.cancelOrderSection ord).tradeSubs ≤ 0)) account)) := by
  have hserved := h.cancelOrder hord
  refine ⟨hserved, ⟨le_rfl, rfl, fun i _ hi => List.mem_of_mem_erase hi⟩, fun _ => ?_,
    fun i hdone => ?_⟩
  · by_cases hnil : (s.orch.cancelOrderSection ord).orders = []
    · -- the count is zero, so this is the last one
      have hlength := hserved.counted.1
      simp only [Shared.withOrch, hnil] at hlength
      exact .inr (decide_eq_true (Int.le_of_eq hlength))
    · exact .inl fun _ => hnil
  · by_cases hi : i = ord
    · exact .inr (congrArg some hi.symm)
    · refine .inl fun hlt => (hdone.resolve_right (by rintro ⟨⟩) hlt).imp_left fun hmem => ?_
      exact (List.mem_erase_of_ne hi).mpr hmem

/-- A shutdown of an order subscription that is not registered. -/
theorem OrdersServed.shutdown (h : OrdersServed s) (hord : ord ∉ s.orch.orders) :
    OrdersServed (s.withOrch (s.orch.shutdownOrders [ord])) := by
  refine { h with registered_open := fun i hi => ?_ }
  have hne : i ∉ [ord] := fun hmem => hord (List.mem_singleton.mp hmem ▸ hi)
  have hget : (s.orch.shutdownOrders [ord]).orderSubs.get i = s.orch.orderSubs.get i :=
    Heap.get_modifyAll_of_notMem _ _ hne
  simp only [Shared.withOrch, hget]
  exact h.registered_open i hi

theorem cancelOrderShutdown_spec (h : OrdersServed s) (hord : ord ∉ s.orch.orders) {last : Bool}
    {account : AccountId} (hy : last = true → owesSwitch y = true) :
    OrderSpec s (s.withOrch (s.orch.shutdownOrders [ord]))
      (.go (.cancelOrderShutdown ord last account)) y := by
  refine ⟨h.shutdown hord, .of_eq (Heap.size_modifyAll _ _ _) rfl rfl, fun hdone => hdone.imp id hy,
    fun i hdone => .inl fun hlt => ?_⟩
  have hget : (s.orch.shutdownOrders [ord]).orderSubs.get i =
      if i = ord then (s.orch.orderSubs.get ord).shutdown else s.orch.orderSubs.get i :=
    Heap.get_modify _ _ _ _
  simp only [Shared.withOrch, hget]
  by_cases hi : i = ord
  · rw [if_pos hi]
    exact .inr (OrderSubscription.shutdown_closed _)
  · rw [if_neg hi]
    exact hdone.resolve_right (fun heq => hi (Option.some.inj heq).symm) hlt

/-- The actions outside: only the two requests touch the switch, and only the shutdown a
subscription. -/
theorem work_orders (h : OrdersServed s) (hk : OrderWork s k) (hwork : work k none s = some (s', y))
    (hoff : switches (.work k) = some false → s.orch.orders = [])
    (hon : switches (.work k) = some true → s.orch.orders ≠ []) :
    OrderSpec s s' (.go k) y ∧ OrderExit s' y ∧
      (switches (.work k) ≠ some false → s.gateway.orderPush = true →
        s'.gateway.orderPush = true) := by
  cases k with
  | subscribeOrders account =>
    simp only [work, PushOrchestration.checkSubscribeOrders] at hwork
    split at hwork <;> cases hwork
    · exact ⟨.same h rfl rfl, trivial, fun _ => id⟩
    · rename_i hok
      refine ⟨.same h rfl rfl, ?_, fun _ => id⟩
      by_contra htrade
      rw [Bool.eq_false_of_not_eq_true htrade] at hok
      split at hok
      · cases hok
      · split at hok <;> cases hok
  | cancelOrderShutdown ord last account =>
    have htrade : (s.withOrch (s.orch.shutdownOrders [ord])).orch.trade = true :=
      h.trade (Nat.zero_lt_of_lt hk.1)
    cases last with
    | false =>
      cases hwork
      exact ⟨cancelOrderShutdown_spec h hk.2 (by rintro ⟨⟩), trivial, fun _ => id⟩
    | true =>
      simp only [work, htrade] at hwork
      cases hwork
      exact ⟨cancelOrderShutdown_spec h hk.2 fun _ => rfl, trivial, fun _ => id⟩
  | cancelOrderRequest account =>
    cases hwork
    refine ⟨⟨{ h with served := fun hne => absurd (hoff rfl) hne }, .of_eq rfl rfl rfl,
      fun _ => .inl (by rintro ⟨⟩), fun _ hdone => .inl (hdone.resolve_right (by rintro ⟨⟩))⟩,
      trivial, fun hne => absurd rfl hne⟩
  | reconnect cause =>
    simp only [work] at hwork
    split at hwork <;> cases hwork <;> exact ⟨.same h rfl rfl, trivial, fun _ => id⟩
  | reconnectReport cause =>
    cases hwork
    exact ⟨.keeps { h with } rfl rfl rfl rfl rfl rfl, trivial, fun _ => id⟩
  | resubscribe rest =>
    obtain ⟨_ | ⟨e, entries⟩, account⟩ := rest
    · cases account <;> cases hwork
      · exact ⟨.same h rfl rfl, trivial, fun _ => id⟩
      · exact ⟨⟨{ h with served := fun _ => rfl }, .of_eq rfl rfl rfl,
          fun _ => .inl fun _ => hon rfl, fun _ hdone => .inl (hdone.resolve_right (by rintro ⟨⟩))⟩,
          trivial, fun _ _ => rfl⟩
    · cases hwork
      exact ⟨.keeps { h with } rfl rfl rfl rfl rfl rfl, trivial, fun _ => id⟩
  | _ => exact hk.elim

section

variable [UnicodeTables]

theorem body_orders (h : OrdersServed s) (hc : OrderInside s c)
    (hsettled : ∀ ord, c = .cancelOrder ord → Settled s ord) :
    OrderSpec s (body c none s).1 (.enter c) ((body c none s).2.point c).next ∧
      OrderPoint (body c none s).1 ((body c none s).2.point c) ∧
      (s.gateway.orderPush = true → (body c none s).1.gateway.orderPush = true) := by
  cases c with
  | lookupOrders account =>
    simp only [body]
    split
    · exact ⟨.same h rfl rfl, trivial, id⟩
    · split
      · rename_i hon
        have hserved := h.served (List.ne_nil_of_length_pos (h.counted.2.mp hon))
        exact ⟨.same h rfl rfl, ⟨hc, hserved⟩, id⟩
      · exact ⟨.same h rfl rfl, hc, id⟩
  | requestOrders account =>
    exact ⟨⟨{ h with served := fun _ => rfl }, .of_eq rfl rfl rfl, fun _ => .inr rfl,
      fun _ hdone => .inl (hdone.resolve_right (by rintro ⟨⟩))⟩, ⟨hc, rfl⟩, fun _ => rfl⟩
  | registerOrders account => exact ⟨registerOrders_spec h hc.1 hc.2 account, trivial, id⟩
  | cancelOrder ord =>
    simp only [body]
    split
    · exact ⟨.same h rfl rfl, trivial, id⟩
    · rename_i hopen
      have hmem := (hsettled ord rfl).resolve_left hopen
      exact ⟨cancelOrder_spec h hmem _, ⟨hc, h.nodup.not_mem_erase⟩, id⟩
  | snapshot => exact ⟨.same h rfl rfl, trivial, id⟩
  | _ => exact hc.elim

/-! ## The outline and the debts -/

/-- The calls of the outline, and when their requests come. -/
def OrdersInTime (s : System) (a : Action) : Prop :=
  OrderCalls a ∧ CancelsSettled s a ∧ SwitchesInTime s a

section

variable {s : System} (h : Sound program OrdersServed OrderPoint s) {t : ℕ} {r : Reply}
  (hcond : OrdersInTime s (.run t r))

include h hcond

theorem body_orders_of_sound (ht : s.point t = .inside c) :
    OrderSpec s.shared (body c r s.shared).1 (.enter c) ((body c r s.shared).2.point c).next ∧
      OrderPoint (body c r s.shared).1 ((body c r s.shared).2.point c) ∧
      (s.shared.gateway.orderPush = true → (body c r s.shared).1.gateway.orderPush = true) := by
  obtain rfl : r = none := hcond.1
  have hc : OrderPoint s.shared (.inside c) := h.at_point ht
  refine body_orders h.inv hc fun ord hord => hcond.2.1 ord ?_
  exact cancelling_eq_some.mpr (hord ▸ ht)

theorem work_orders_of_sound (ht : s.point t = .work k) (hk : work k r s.shared = some (s', y)) :
    OrderSpec s.shared s' (.go k) y ∧ OrderExit s' y ∧
      (switches (.work k) ≠ some false → s.shared.gateway.orderPush = true →
        s'.gateway.orderPush = true) := by
  obtain rfl : r = none := hcond.1
  have hwork : OrderPoint s.shared (.work k) := h.at_point ht
  exact work_orders h.inv hwork hk (fun hoff => (hcond.2.2 false (ht ▸ hoff)).1)
    fun hon => hcond.2.2 true (ht ▸ hon)

end

/-- **The outline.** -/
theorem ordersOutline : Outline program OrdersInTime OrdersServed OrderPoint where
  start := by
    intro s t a x hcond _ hx
    refine Assertions.atExit.point ?_
    cases a with
    | cancelOrder ord =>
      obtain ⟨hord, heq⟩ := Option.ite_none_right_eq_some.mp hx
      cases heq
      exact hord
    | subscribeOrders account | reconnect cause =>
      cases hx
      trivial
    | _ => exact hcond.1.elim
  lock := fun _ h => OrderSection.inside h
  unlock := fun _ h => Assertions.atExit.point h
  body := by
    intro s t r c h hcond ht
    obtain ⟨hspec, hpoint, -⟩ := body_orders_of_sound h hcond ht
    exact ⟨hspec.served, hpoint⟩
  body_other := by
    intro s t r c t' h hcond ht _
    obtain ⟨hspec, -, hon⟩ := body_orders_of_sound h hcond ht
    exact (h.assert t').grow hspec.grow fun _ => hon
  work := by
    intro s t r k shared x h hcond ht hk
    obtain ⟨hspec, hexit, -⟩ := work_orders_of_sound h hcond ht hk
    exact ⟨hspec.served, hexit.point⟩
  work_other := by
    intro s t r k shared x t' h hcond ht hk _
    obtain ⟨hspec, -, hon⟩ := work_orders_of_sound h hcond ht hk
    refine (h.assert t').grow hspec.grow fun hregisters => hon fun hoff => ?_
    -- a thread that is about to register holds `subMu`, and the switch is not turned off then
    have hholder : s.holder .subMu = some t' := by
      refine (h.locked _ t').mpr ?_
      unfold registersOrder at hregisters
      split at hregisters
      · rename_i hpoint
        rw [hpoint]
        rfl
      · cases hregisters
    have hnot := (hcond.2.2 false (ht ▸ hoff)).2 t' hholder
    rw [hregisters] at hnot
    cases hnot

/-- **The debts about the switch.** -/
theorem switchDebts : Debts program
    (fun s a => OrdersInTime s a ∧ Sound program OrdersServed OrderPoint s)
    (fun s (_ : Unit) => PushNeeded s) (fun x _ => owesSwitch x = true) where
  ret := fun _ => nofun
  body := fun hcond ht => (body_orders_of_sound hcond.2 hcond.1 ht).1.needed
  work := fun hcond ht hk => (work_orders_of_sound hcond.2 hcond.1 ht hk).1.needed

/-- **The debts about the subscriptions.** -/
theorem orderShutdownDebts : Debts program
    (fun s a => OrdersInTime s a ∧ Sound program OrdersServed OrderPoint s)
    OrderKept (fun x ord => owesShutdown x = some ord) where
  ret := fun _ => nofun
  body := fun hcond ht => (body_orders_of_sound hcond.2 hcond.1 ht).1.kept _
  work := fun hcond ht hk => (work_orders_of_sound hcond.2 hcond.1 ht hk).1.kept _

omit [UnicodeTables] in
/-- When nothing is owed, the switch is right. -/
theorem orderPush_of_quiescent {s : System} (hserved : OrdersServed s.shared)
    (hswitch : Accounted (fun s (_ : Unit) => PushNeeded s) (fun x _ => owesSwitch x = true) s)
    (hkept : Accounted OrderKept (fun x ord => owesShutdown x = some ord) s) (hquiet : s.Quiescent) :
    s.shared.gateway.orderPush = true ↔ OrderLive s.shared := by
  have hneeded : PushNeeded s.shared := hswitch.quiescent (fun _ => nofun) hquiet ()
  refine ⟨fun hon => ?_, fun ⟨ord, hlt, hopen⟩ => hserved.served ?_⟩
  · obtain ⟨ord, hord⟩ := List.exists_mem_of_ne_nil _ (hneeded hon)
    exact ⟨ord, hserved.registered_lt ord hord, hserved.registered_open ord hord⟩
  · have hord := hkept.quiescent (fun _ => nofun) hquiet ord hlt
    rw [hopen] at hord
    exact List.ne_nil_of_mem (hord.resolve_right Bool.false_ne_true)

/-- **Order push is on while it is needed.** In every interleaving of `SubscribeOrders`,
`OrderSubscription.Cancel` and reconnects, with all requests accepted, in which each
`Cancel` finds its subscription registered or closed, order push is turned off only while
nothing is registered or about to be, and a reconnect turns it on only while something is
registered: whenever all threads are idle, order push is on exactly if an order
subscription is live. -/
theorem order_push_agrees {market trade transport : Bool} {n : ℤ} {run : List Action}
    (hrun : ∀ a ∈ run, OrderCalls a)
    (hsettled : EachStep step CancelsSettled (init market trade transport n) run)
    (htime : EachStep step SwitchesInTime (init market trade transport n) run) :
    Always step (fun s => s.Quiescent →
      (s.shared.gateway.orderPush = true ↔ OrderLive s.shared))
      (init market trade transport n) run := by
  have hcalls : EachStep step (fun _ a => OrderCalls a) (init market trade transport n) run :=
    EachStep.of_forall (fun a ha _ => hrun a ha) _
  have hinit : OrdersServed (init market trade transport n).shared :=
    ⟨⟨rfl, iff_of_false Bool.false_ne_true (Nat.lt_irrefl 0)⟩, List.nodup_nil, nofun, nofun,
      fun h => absurd h (Nat.lt_irrefl 0), fun h => absurd rfl h⟩
  have hall : Always step (fun s => Sound program OrdersServed OrderPoint s ∧
      Accounted (fun s (_ : Unit) => PushNeeded s) (fun x _ => owesSwitch x = true) s ∧
      Accounted OrderKept (fun x ord => owesShutdown x = some ord) s)
      (init market trade transport n) run := by
    refine (hcalls.and (hsettled.and htime)).always (fun s a s' h hcond hstep => ?_)
      ⟨sound_init hinit trivial, ?_, ?_⟩
    · exact ⟨ordersOutline.step h.1 hcond hstep, switchDebts.step h.2.1 ⟨hcond, h.1⟩ hstep,
        orderShutdownDebts.step h.2.2 ⟨hcond, h.1⟩ hstep⟩
    · exact fun _ => .inl fun hon => absurd hon Bool.false_ne_true
    · exact fun ord => .inl fun hlt => absurd hlt (Nat.not_lt_zero ord)
  exact hall.mono fun s h hquiet => orderPush_of_quiescent (s := s) h.1.inv h.2.1 h.2.2 hquiet

end

/-- The request of the last `Cancel` is overtaken by a `SubscribeOrders`. -/
def lateSwitch : List Action :=
  subscribesOrders 0 ++ .call 0 (.cancelOrder 0) :: List.replicate 4 (.run 0 none) ++
    subscribesOrders 1 ++ [.run 0 none]

/-- Order push is off under a live order subscription. -/
theorem late_switch_turns_off : (∀ a ∈ lateSwitch, OrderCalls a) ∧
    ∃ s, exec (@step asciiTables) (init true true true 0) lateSwitch = some s ∧
      s.Quiescent ∧ OrderLive s.shared ∧ s.shared.gateway.orderPush = false := by
  obtain ⟨s, hs, hidle, hlive, hoff⟩ : ∃ s,
      exec (@step asciiTables) (init true true true 0) lateSwitch = some s ∧
      (∀ a ∈ lateSwitch, s.point a.thread = .idle) ∧ OrderLive s.shared ∧
      s.shared.gateway.orderPush = false := exec_exists (by decide +kernel)
  exact ⟨by decide +kernel, s, hs, Program.quiescent_of_exec hs hidle, hlive, hoff⟩

/-- The same calls with the request of the `Cancel` in time, and a reconnect. -/
def timelySwitch : List Action :=
  subscribesOrders 0 ++ .call 0 (.cancelOrder 0) :: List.replicate 5 (.run 0 none) ++
    subscribesOrders 1 ++ .call 0 (.reconnect none) :: List.replicate 6 (.run 0 none)

theorem order_push_agrees_timelySwitch : Always (@step asciiTables) (fun s => s.Quiescent →
    (s.shared.gateway.orderPush = true ↔ OrderLive s.shared)) (init true true true 0)
    timelySwitch :=
  @order_push_agrees asciiTables true true true 0 timelySwitch (by decide +kernel)
    (by decide +kernel) (by decide +kernel)

end HstongApi.PushThreads
