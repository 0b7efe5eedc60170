import HstongApi.StreamRegistry

/-!
# Order push of a stream client

`SubscribeTrade` asks for order push if it finds no subscription for orders, and `Cancel` asks for
its end if it has deleted the last one. Both find this out under the mutex and make the request
later. So the request of a `Cancel` can arrive after a new subscription was registered, which is
then without order push (`late_unsubscribe_turns_off`).

`order_push_iff` is for the runs in which the request of a `Cancel` arrives while there is no
subscription for orders and none is about to be registered: when all calls have returned, order
push is on if and only if a subscription for orders is registered.
-/

namespace HstongApi.Stream

open Threads

/-! ## The property and the conditions -/

/-- A subscription for orders is registered. -/
def TradeSubscribed (s : Shared) : Prop := ∃ i ∈ s.subs, (s.sub i).trade = true

instance : DecidablePred TradeSubscribed := fun s =>
  inferInstanceAs (Decidable (∃ i ∈ s.subs, (s.sub i).trade = true))

/-- Calls of `SubscribeTrade` and `Cancel`, and requests that succeed. -/
def OrderCalls : Action → Prop
  | .call _ .subscribeTrade | .call _ (.cancel _) => True
  | .call _ _ => False
  | .run _ r => r.request = none

instance : DecidablePred OrderCalls
  | .call _ a => by
    cases a <;> first | exact .isTrue trivial | exact .isFalse id
  | .run _ r => inferInstanceAs (Decidable (r.request = none))

/-- About to register a subscription for orders. -/
def registers : Next → Bool
  | .enter .registerTrade => true
  | _ => false

/-- About to ask for the end of order push. -/
def switchesOff : Next → Bool
  | .go (.unsubscribeTrade _) => true
  | _ => false

/-- The request of a `Cancel` arrives while no subscription for orders is registered and none is
about to be. -/
def Timely (s : System) (a : Action) : Prop :=
  switchesOff (s.point a.thread).next = true →
    s.shared.tradeSubs = 0 ∧ ∀ t, registers (s.point t).next = false

/-! ## What the threads know -/

/-- The points of `SubscribeTrade` and `Cancel`. -/
def ofOrders : Next → Bool
  | .ret | .enter .subscribeTrade | .go .requestTrade | .enter .registerTrade
  | .enter (.cancel _) | .go (.unsubscribe _) | .go (.unsubscribeTrade _) | .go (.reply _)
  | .go (.task (.close _) [] (.cancelled _)) | .enter (.close _ [] (.cancelled _))
  | .go (.closed _ [] (.cancelled _)) => true
  | _ => false

/-- What holds in these runs. -/
structure OrdersInv (s : Shared) : Prop where
  registry : Registry s
  isOpen : s.closed = false
  manager : s.trade = true
  served : 0 < s.tradeSubs → s.orderPush = true

/-- What a thread knows about order push. -/
structure KnowsOrders (s : Shared) (x : Next) : Prop where
  ours : ofOrders x = true
  on : registers x = true → s.orderPush = true

variable {s s' : Shared} {x : Next}

theorem OrdersInv.nonneg (h : OrdersInv s) : 0 ≤ s.tradeSubs := by
  rw [h.registry.counted]
  exact Int.natCast_nonneg _

theorem knowsOrders_afterCancel {i : ℕ} {lastTrade : Bool} :
    KnowsOrders s' (s.afterCancel i lastTrade) := by
  rcases s.afterCancel_cases i lastTrade with h | h | h <;> rw [h] <;> exact ⟨rfl, nofun⟩

/-- The sections do not concern the Gateway. -/
theorem Follows.gateway {c : Section} (h : Follows s c (s', x)) :
    s'.orderPush = s.orderPush ∧ s'.trade = s.trade := by
  cases h <;> exact ⟨rfl, rfl⟩

/-- The sections of the two calls keep the invariant. -/
theorem Follows.knowsOrders {c : Section} (h : Follows s c (s', x)) (hs : OrdersInv s)
    (hc : KnowsOrders s (.enter c)) : OrdersInv s' ∧ KnowsOrders s' x := by
  have hregistry := h.registry hs.registry
  have hours := hc.ours
  cases h with
  | tradeClosed | registerTradeClosed | tradeFirst | cancelAgain => exact ⟨hs, rfl, nofun⟩
  | tradeNext hnext =>
    refine ⟨hs, rfl, fun _ => hs.served ?_⟩
    have hne : s.tradeSubs ≠ 0 := fun hzero => hnext ⟨hzero, hs.manager⟩
    have := hs.nonneg
    omega
  | registerTrade => exact ⟨⟨hregistry, hs.isOpen, hs.manager, fun _ => hc.on rfl⟩, rfl, nofun⟩
  | cancelLast => exact ⟨⟨hregistry, hs.isOpen, hs.manager, nofun⟩, knowsOrders_afterCancel⟩
  | cancelTrade hmem htrade hmore =>
    refine ⟨⟨hregistry, hs.isOpen, hs.manager, fun _ => hs.served ?_⟩, knowsOrders_afterCancel⟩
    omega
  | cancel => exact ⟨{ hs with registry := hregistry }, knowsOrders_afterCancel⟩
  | @close i tasks rest =>
    refine ⟨{ hs with registry := hregistry }, ?_, nofun⟩
    cases tasks <;> cases rest <;> exact hours
  | _ => cases hours

/-- So do their actions without a lock. -/
theorem Acts.knowsOrders {r : Input} {k : Work} (h : Acts s r k (s', x)) (hs : OrdersInv s)
    (hk : KnowsOrders s (.go k)) (hr : r.request = none)
    (htimely : switchesOff (.go k) = true → s.tradeSubs = 0) : OrdersInv s' ∧ KnowsOrders s' x := by
  have hregistry := h.registry hs.registry
  have hours := hk.ours
  cases h with
  | reply => exact ⟨{ hs with registry := hregistry }, rfl, nofun⟩
  | requestTrade => exact ⟨⟨hregistry, hs.isOpen, hs.manager, fun _ => rfl⟩, rfl, fun _ => rfl⟩
  | requestTradeRefused hrefused | unsubscribeTradeRefused hrefused =>
    exact nomatch hr.symm.trans hrefused
  | unsubscribe => exact ⟨hs, rfl, nofun⟩
  | unsubscribeTrade =>
    refine ⟨⟨hregistry, hs.isOpen, hs.manager, fun hpos => ?_⟩, rfl, nofun⟩
    exact absurd (htimely rfl) hpos.ne'
  | @close i tasks rest =>
    refine ⟨{ hs with registry := hregistry }, ?_, nofun⟩
    cases tasks <;> cases rest <;> exact hours
  | @closeAgain i tasks rest =>
    cases tasks <;> cases rest <;> first | exact ⟨hs, rfl, nofun⟩ | cases hours
  | @closed i tasks rest =>
    cases tasks <;> cases rest <;>
      first | exact ⟨{ hs with registry := hregistry }, rfl, nofun⟩ | cases hours
  | _ => cases hours

/-- Order push stays on, unless a `Cancel` asks for its end. -/
theorem Acts.stays_on {r : Input} {k : Work} (h : Acts s r k (s', x))
    (hk : switchesOff (.go k) = false) (hon : s.orderPush = true) : s'.orderPush = true := by
  cases h with
  | unsubscribeTrade => cases hk
  | requestTrade | resubscribeTrade => rfl
  | _ => exact hon

/-- What the threads know about order push. -/
theorem ordersOutline : NextOutline (τ := ℕ) program (fun s a => OrderCalls a ∧ Timely s a)
    OrdersInv KnowsOrders := by
  refine .of_acts (fun {s t a x} hcond _ hx => ?_) (fun {s t r c} hs _ ht hknows => ?_)
    fun {s t r k shared x} hs hcond ht hk hknows => ?_
  · have hcalls := hcond.1
    cases start_begins hx with
    | subscribeTrade | tradeRefused | cancel => exact ⟨rfl, by rintro ⟨⟩⟩
    | _ => exact hcalls.elim
  · have hfollows := body_follows s.shared r c
    obtain ⟨hinv, hnext⟩ := hfollows.knowsOrders hs.inv hknows
    exact ⟨hinv, hnext, fun _ _ hother =>
      ⟨hother.ours, fun h => hfollows.gateway.1.trans (hother.on h)⟩⟩
  · have htimely : switchesOff (.go k) = true → s.shared.tradeSubs = 0 ∧
        ∀ t', registers (s.point t').next = false := fun hoff =>
      hcond.2 (by rw [Event.thread, ht]; exact hoff)
    obtain ⟨hinv, hnext⟩ :=
      (work_acts hk).knowsOrders hs.inv hknows hcond.1 fun hoff => (htimely hoff).1
    refine ⟨hinv, hnext, fun t' _ hother => ⟨hother.ours, fun hregisters => ?_⟩⟩
    refine (work_acts hk).stays_on (Bool.eq_false_of_not_eq_true fun hoff => ?_) (hother.on hregisters)
    cases ((htimely hoff).2 t').symm.trans hregisters

/-! ## Order push is not left on -/

/-- Order push is on only if there is a subscription for orders. -/
def PushNeeded (s : Shared) : Prop := s.orderPush = true → 0 < s.tradeSubs

/-- A thread that will register a subscription for orders or ask for the end of order push. -/
def owesSwitch (x : Next) : Prop := registers x = true ∨ switchesOff x = true

/-- Order push is on for a subscription, or a thread has still to do something about it. -/
theorem Follows.needed {c : Section} (h : Follows s c (s', x)) (hs : OrdersInv s)
    (hc : KnowsOrders s (.enter c)) (hneeded : PushNeeded s ∨ owesSwitch (.enter c)) :
    PushNeeded s' ∨ owesSwitch x := by
  have hours := hc.ours
  have hsame : registers (.enter c) = false → PushNeeded s := fun hregisters =>
    hneeded.resolve_right fun howes => howes.elim (fun h => nomatch hregisters.symm.trans h) nofun
  cases h with
  | tradeClosed | tradeFirst | tradeNext | cancel | cancelAgain | close => exact .inl (hsame rfl)
  | registerTradeClosed hclosed => exact nomatch hs.isOpen.symm.trans hclosed
  | registerTrade => exact .inl fun _ => Int.lt_add_one_of_le hs.nonneg
  | cancelLast _ htrade =>
    refine .inr (.inr ?_)
    rw [Shared.afterCancel, hs.isOpen, htrade, hs.manager]
    rfl
  | cancelTrade _ _ hmore => exact .inl fun _ => hmore
  | _ => cases hours

theorem Acts.needed {r : Input} {k : Work} (h : Acts s r k (s', x)) (hk : KnowsOrders s (.go k))
    (hr : r.request = none) (hneeded : PushNeeded s ∨ owesSwitch (.go k)) :
    PushNeeded s' ∨ owesSwitch x := by
  have hours := hk.ours
  have hsame : switchesOff (.go k) = false → PushNeeded s := fun hoff =>
    hneeded.resolve_right fun howes => howes.elim nofun fun h => nomatch hoff.symm.trans h
  cases h with
  | reply | unsubscribe | close | closeAgain | closed => exact .inl (hsame rfl)
  | requestTrade => exact .inr (.inl rfl)
  | requestTradeRefused hrefused | unsubscribeTradeRefused hrefused =>
    exact nomatch hr.symm.trans hrefused
  | unsubscribeTrade => exact .inl nofun
  | _ => cases hours

/-- What holds in the states of these runs. -/
abbrev SoundOrders (s : System) : Prop :=
  Sound program OrdersInv (fun s p => KnowsOrders s p.next) s

theorem switchDebts : Debts (τ := ℕ) program (fun s a => SoundOrders s ∧ OrderCalls a)
    (fun s (_ : Unit) => PushNeeded s) (fun x _ => owesSwitch x) where
  ret _ h := h.elim nofun nofun
  body {s _ r c _} hcond ht hneeded :=
    (body_follows s.shared r c).needed hcond.1.inv (hcond.1.at_point ht) hneeded
  work hcond ht hk hneeded := (work_acts hk).needed (hcond.1.at_point ht) hcond.2 hneeded

/-! ## Every run -/

theorem OrdersInv.tradeSubscribed_iff (h : OrdersInv s) : TradeSubscribed s ↔ 0 < s.tradeSubs := by
  rw [h.registry.counted, Int.natCast_pos, List.length_pos_iff_exists_mem, TradeSubscribed]
  simp only [Shared.tradeRegistered, List.mem_filter]

/-- **Order push is on as long as it is needed.** In every run of `SubscribeTrade` and `Cancel`
whose requests succeed, and in which the request of a `Cancel` arrives in time. -/
theorem order_push_iff (hasClient : Bool) (buffer : ℕ) (run : List Action)
    (hcalls : ∀ a ∈ run, OrderCalls a)
    (htimely : EachStep step Timely (init hasClient true buffer) run) :
    Always step (fun s => s.Quiescent → (s.shared.orderPush = true ↔ TradeSubscribed s.shared))
      (init hasClient true buffer) run := by
  have hours : EachStep step (fun _ a => OrderCalls a) (init hasClient true buffer) run :=
    EachStep.of_forall (fun a ha _ => hcalls a ha) _
  have hinit : OrdersInv (init hasClient true buffer).shared :=
    ⟨⟨List.nodup_nil, nofun, rfl, fun _ => rfl⟩, rfl, rfl, nofun⟩
  have hall : Always step (fun s => SoundOrders s ∧
      Accounted (fun s (_ : Unit) => PushNeeded s) (fun x _ => owesSwitch x) s)
      (init hasClient true buffer) run := by
    refine (hours.and htimely).always (fun s a s' h hcond hstep => ?_)
      ⟨sound_init hinit ⟨rfl, nofun⟩, fun _ => .inl nofun⟩
    exact ⟨ordersOutline.step h.1 hcond hstep, switchDebts.step h.2 ⟨h.1, hcond.1⟩ hstep⟩
  refine hall.mono fun s h hquiet => ?_
  have hneeded : PushNeeded s.shared := h.2.quiescent (fun _ howes => howes.elim nofun nofun) hquiet ()
  rw [h.1.inv.tradeSubscribed_iff]
  exact ⟨hneeded, h.1.inv.served⟩

/-- A call of `SubscribeTrade` that asks for order push, and one that does not. -/
def subscribesTrade (t : ℕ) (first : Bool) : List Action :=
  .call t .subscribeTrade :: List.replicate (if first then 8 else 7) (.run t {})

/-- A `Cancel` up to its request. -/
def beginsCancel (t i : ℕ) : List Action := .call t (.cancel i) :: List.replicate 3 (.run t {})

/-- Two subscriptions and a third one after both were cancelled, one of them twice. -/
def timelyCancels : List Action :=
  subscribesTrade 0 true ++ subscribesTrade 1 false ++
  beginsCancel 0 0 ++ List.replicate 6 (.run 0 {}) ++ beginsCancel 0 0 ++ List.replicate 2 (.run 0 {}) ++
  beginsCancel 1 1 ++ List.replicate 7 (.run 1 {}) ++ subscribesTrade 0 true

theorem order_push_iff_timelyCancels :
    (∃ s, exec step (init true true 64) timelyCancels = some s ∧ s.shared.count = 3 ∧
      TradeSubscribed s.shared) ∧
    Always step (fun s => s.Quiescent → (s.shared.orderPush = true ↔ TradeSubscribed s.shared))
      (init true true 64) timelyCancels := by
  have hbounded : EachStep step (fun s a => switchesOff (s.point a.thread).next = true →
      s.shared.tradeSubs = 0 ∧ ∀ t ∈ [0, 1], registers (s.point t).next = false)
      (init true true 64) timelyCancels := by
    decide +kernel
  have hidle : EachStep step (fun s _ => ∀ t, t ∉ [0, 1] → s.point t = .idle)
      (init true true 64) timelyCancels := Program.eachStep_idle (by decide) fun _ _ => rfl
  have htimely : EachStep step Timely (init true true 64) timelyCancels := by
    refine (hbounded.and hidle).mono fun s a ha hoff => ⟨(ha.1 hoff).1, ?_⟩
    exact State.forall_point (p := (registers ·.next = false)) ha.2 rfl (ha.1 hoff).2
  exact ⟨exec_exists (by decide +kernel), order_push_iff true 64 timelyCancels (by decide) htimely⟩

/-- The request of the last `Cancel` is overtaken by a `SubscribeTrade`. -/
def lateUnsubscribe : List Action :=
  subscribesTrade 0 true ++ beginsCancel 0 0 ++ subscribesTrade 1 true ++
    List.replicate 7 (.run 0 {})

/-- **A late request.** All calls have returned, a subscription for orders is registered, and order
push is off. -/
theorem late_unsubscribe_turns_off : (∀ a ∈ lateUnsubscribe, OrderCalls a) ∧
    ∃ s, exec step (init true true 64) lateUnsubscribe = some s ∧ s.Quiescent ∧
      TradeSubscribed s.shared ∧ s.shared.orderPush = false := by
  obtain ⟨s, hs, hidle, hsubscribed, hoff⟩ : ∃ s,
      exec step (init true true 64) lateUnsubscribe = some s ∧
      (∀ a ∈ lateUnsubscribe, s.point a.thread = .idle) ∧
      TradeSubscribed s.shared ∧ s.shared.orderPush = false := exec_exists (by decide +kernel)
  exact ⟨by decide, s, hs, Program.quiescent_of_exec hs hidle, hsubscribed, hoff⟩

end HstongApi.Stream
