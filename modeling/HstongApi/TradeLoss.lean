import HstongApi.TradeSubscriptions
import Mathlib.Data.List.Perm.Subperm

/-!
# No fill is lost silently

Every notification that was handed over is, for every order subscription that was there at the
beginning and is live, in the queue of a dispatcher, in the hands of a thread that will deliver
it, or it has come to the subscription: received, still in its channel, or discarded. What a
subscription discards is counted, and the first time is reported. So at rest, when the queues
of the dispatchers are empty, a notification that was neither received nor is queued is
accounted for (`no_silent_loss`).

This holds as long as `dispatch` discards nothing from the queue of a dispatcher, no amount makes
`convert` panic, and `dispatchTrade` does not copy the list of subscriptions while `SubscribeOrders`
or `Cancel` changes it. `dispatch` says nothing about what it discards: with 65 notifications
before the dispatcher runs the first one is gone (`full_queue_loses`).
-/

namespace HstongApi.TradeDelivery

open Threads PushEvents DecimalPackage

/-! ## The property -/

/-- The notifications that the consumer has not received and that are not queued for it. -/
def Order.missing (ord : Order) (handed : ℕ) : List ℕ :=
  (List.range handed).filter fun k => !decide (k ∈ ord.received) && !decide (k ∈ numbers ord.updates)

/-- All threads are idle, and the dispatchers have nothing to do. -/
def Settled (s : System) : Prop :=
  s.Quiescent ∧ ∀ type ∈ tradeNotifyTypes, (s.shared.queues type).queue = []

/-- `ErrTradeBacklog` was reported for the account. -/
def Reported (s : Shared) (account : AccountId) : Prop :=
  ∃ dropped, StreamError.tradeBacklog account s.buffer dropped ∈ s.reports

/-- **No silent loss.** The process runs, and at rest the notifications that a subscription has
not got are covered by its count, and there is a report if there are any. -/
structure NoSilentLoss (s : System) : Prop where
  running : s.shared.crashed = false
  accounted : Settled s → ∀ i ∈ s.shared.orders, i < s.shared.first →
    ((s.shared.subs i).missing s.shared.handed).length ≤ (s.shared.subs i).dropped ∧
      ((s.shared.subs i).missing s.shared.handed ≠ [] →
        Reported s.shared (s.shared.subs i).accountID)

/-! ## What becomes of a notification -/

/-- The notification has come to the subscription. -/
def Order.Has (ord : Order) (k : ℕ) : Prop :=
  k ∈ ord.received ∨ k ∈ numbers ord.updates ∨ k ∈ ord.discarded

/-- The notification is in the queue of a dispatcher. -/
def Queued (s : Shared) (k : ℕ) : Prop := ∃ type ∈ tradeNotifyTypes, k ∈ numbers (s.queues type)

/-- A notification that was handed over is in the queue of a dispatcher or has come to the
subscription, if that was there at the beginning and is live. -/
def Kept (s : Shared) (i : ℕ × ℕ) : Prop :=
  i.1 < s.handed → i.2 ∈ s.orders → i.2 < s.first → Queued s i.1 ∨ (s.subs i.2).Has i.1

/-- A thread in a section has the notification and will deliver it to the subscription. -/
def Section.owes : Section → ℕ × ℕ → Prop
  | .targets u, i => i.1 = u.number
  | .deliver u j rest attempt, i =>
    i.1 = u.number ∧ i.2 ∈ j :: rest ∨ attempt = .resend (some i.1) ∧ i.2 = j
  | _, _ => False

/-- And so outside the sections. -/
def Work.owes : Work → ℕ × ℕ → Prop
  | .send d, i | .discard d, i | .resend d, i | .convert d, i => i.1 = d.number
  | .report u _ rest _, i => i.1 = u.number ∧ i.2 ∈ rest
  | .take _, _ | .receive _, _ => False

/-- The thread has the notification and will deliver it to the subscription. -/
def owes : Next → ℕ × ℕ → Prop
  | .ret, _ => False
  | .enter c, i => c.owes i
  | .go k, i => k.owes i

variable {i : ℕ × ℕ} {s s' : Shared}

theorem owes_deliverNext {u : Tagged PushUpdate} {rest : List ℕ} (hnumber : i.1 = u.number)
    (hi : i.2 ∈ rest) : owes (deliverNext u rest) i := by
  cases rest with
  | nil => cases hi
  | cons j rest => exact .inl ⟨hnumber, hi⟩

theorem Kept.mono (h : Kept s i) (hhanded : s'.handed = s.handed)
    (horders : i.2 ∈ s'.orders → i.2 < s'.first → i.2 ∈ s.orders) (hfirst : s'.first = s.first)
    (hqueued : Queued s i.1 → Queued s' i.1 ∨ (s'.subs i.2).Has i.1)
    (hhas : i.2 ∈ s.orders → (s.subs i.2).Has i.1 → (s'.subs i.2).Has i.1) : Kept s' i := by
  intro hlt hmem hi
  have hmem' : i.2 ∈ s.orders := horders hmem hi
  rcases h (hhanded ▸ hlt) hmem' (hfirst ▸ hi) with hq | hh
  · exact hqueued hq
  · exact .inr (hhas hmem' hh)

variable {ord : Order}

/-- A subscription is changed, and keeps what has come to it. -/
theorem Kept.setOrder (h : Kept s i) {j : ℕ} (hhas : i.2 = j → (s.subs j).Has i.1 → ord.Has i.1) :
    Kept (s.setOrder j ord) i := by
  refine h.mono rfl (fun hmem _ => hmem) rfl .inl fun _ hh => ?_
  by_cases hj : i.2 = j
  · rw [hj, Shared.setOrder_self]
    exact hhas hj (hj ▸ hh)
  · rw [Shared.setOrder_of_ne s hj]
    exact hh

/-- A notification that has come to a subscription is kept there. -/
theorem kept_setOrder_self {j : ℕ} (hj : i.2 = j) (h : ord.Has i.1) :
    Kept (s.setOrder j ord) i := by
  intro _ _ _
  refine .inr ?_
  rw [hj, Shared.setOrder_self]
  exact h

variable {k : ℕ}

theorem mem_trySend {α : Type} {c c' : Chan (Tagged α)} {x : Tagged α} (h : c.trySend x = some c') :
    k ∈ numbers c' ↔ k ∈ numbers c ∨ k = x.number := by
  simp only [numbers, (Chan.trySend_eq_some h).1, List.map_append, List.mem_append, List.map_cons,
    List.map_nil, List.mem_singleton]

theorem mem_tryRecv {α : Type} {c c' : Chan (Tagged α)} {x : Tagged α}
    (h : c.tryRecv = some (x, c')) : k ∈ numbers c ↔ k = x.number ∨ k ∈ numbers c' := by
  simp only [numbers, (Chan.tryRecv_eq_some h).1, List.map_cons, List.mem_cons]

/-- The third attempt of `deliver` keeps everything: the update is in the channel or discarded,
and so is what the second attempt has discarded. -/
theorem Order.has_overflow (ord : Order) (u : Tagged PushUpdate) (lost : Option ℕ)
    (h : ord.Has k ∨ k = u.number ∨ lost = some k) : (ord.overflow u lost).Has k := by
  unfold overflow
  split
  · rename_i updates hsent
    rcases h with (hreceived | hqueued | hdiscarded) | rfl | rfl
    · exact .inl hreceived
    · exact .inr (.inl ((mem_trySend hsent).mpr (.inl hqueued)))
    · exact .inr (.inr (List.mem_append_left _ hdiscarded))
    · exact .inr (.inl ((mem_trySend hsent).mpr (.inr rfl)))
    · exact .inr (.inr (List.mem_append_right _ List.mem_cons_self))
  · rcases h with (hreceived | hqueued | hdiscarded) | rfl | rfl
    · exact .inl hreceived
    · exact .inr (.inl hqueued)
    · exact .inr (.inr (List.mem_append_left _ hdiscarded))
    · exact .inr (.inr (List.mem_append_right _ (List.mem_append_right _ List.mem_cons_self)))
    · exact .inr (.inr (List.mem_append_right _ (List.mem_append_left _ List.mem_cons_self)))

/-- In a section a notification is passed on. -/
theorem Follows.owes {now : Time} {c : Section} {turn : Turn Section Work}
    (h : Follows s now c (s', turn)) (hinv : Inv s) (hi : Kept s i ∨ c.owes i) :
    Kept s' i ∨ TradeDelivery.owes (turn.point c).next i := by
  cases h with
  | lookup =>
    by_cases hnew : i.1 = s.handed
    · exact .inr hnew
    · refine .inl fun hlt => hi.resolve_right id ?_
      exact Nat.lt_of_le_of_ne (Nat.le_of_lt_succ hlt) hnew
  | targets =>
    rcases hi with hkept | howes
    · exact .inl hkept
    · by_cases hmem : i.2 ∈ s.orders
      · exact .inr (owes_deliverNext howes hmem)
      · exact .inl fun _ hmem' => absurd hmem' hmem
  | @skip u j rest hclosed =>
    rcases hi with hkept | ⟨hnumber, hmem⟩ | ⟨⟨⟩, _⟩
    · exact .inl hkept
    · rcases List.mem_cons.mp hmem with rfl | hrest
      · -- a subscription that is closed is not live
        exact .inl fun _ hlive => absurd hlive (hinv.closed _ hclosed).1
      · exact .inr (owes_deliverNext hnumber hrest)
  | @sent u j rest updates hsent =>
    rcases hi with hkept | ⟨hnumber, hmem⟩ | ⟨⟨⟩, _⟩
    · refine .inl (hkept.setOrder fun _ hhas => hhas.imp_right (Or.imp_left fun hqueued => ?_))
      exact (mem_trySend hsent).mpr (.inl hqueued)
    · rcases List.mem_cons.mp hmem with hj | hrest
      · exact .inl (kept_setOrder_self hj (.inr (.inl ((mem_trySend hsent).mpr (.inr hnumber)))))
      · exact .inr (owes_deliverNext hnumber hrest)
  | full =>
    rcases hi with hkept | ⟨hnumber, hmem⟩ | ⟨⟨⟩, _⟩
    · exact .inl (hkept.setOrder fun _ hhas => hhas)
    · exact .inr (.inl ⟨hnumber, hmem⟩)
  | @discarded u j rest oldest updates hrecv =>
    rcases hi with hkept | ⟨hnumber, hmem⟩ | ⟨⟨⟩, _⟩
    · by_cases holdest : i.1 = oldest.number ∧ i.2 = j
      · exact .inr (.inr ⟨by rw [holdest.1], holdest.2⟩)
      · refine .inl (hkept.setOrder fun hj hhas => hhas.imp_right (Or.imp_left fun hqueued => ?_))
        exact ((mem_tryRecv hrecv).mp hqueued).resolve_left fun hnumber => holdest ⟨hnumber, hj⟩
    · exact .inr (.inl ⟨hnumber, hmem⟩)
  | emptied =>
    rcases hi with hkept | ⟨hnumber, hmem⟩ | ⟨⟨⟩, _⟩
    · exact .inl hkept
    · exact .inr (.inl ⟨hnumber, hmem⟩)
  | @overflow u j rest lost =>
    rcases hi with hkept | ⟨hnumber, hmem⟩ | ⟨hlost, hj⟩
    · exact .inl (hkept.setOrder fun _ hhas => Order.has_overflow _ u lost (.inl hhas))
    · rcases List.mem_cons.mp hmem with hj | hrest
      · exact .inl (kept_setOrder_self hj
          (Order.has_overflow _ u lost (.inr (.inl hnumber))))
      · refine .inr ?_
        show TradeDelivery.owes (if (s.subs j).backlogRaised then _ else _) i
        split
        · exact owes_deliverNext hnumber hrest
        · exact ⟨hnumber, hrest⟩
    · exact .inl (kept_setOrder_self hj
        (Order.has_overflow _ u lost (.inr (.inr (Attempt.resend.inj hlost)))))
  | register =>
    refine .inl ((hi.resolve_right id).mono rfl (fun hmem hlt => ?_) rfl .inl fun hmem hhas => ?_)
    · rcases List.mem_append.mp hmem with hold | hnew
      · exact hold
      · -- a new subscription was not there at the beginning
        rw [List.mem_singleton.mp hnew] at hlt
        exact absurd hinv.first_le (Nat.not_le.mpr hlt)
    · simp only [Function.update_of_ne (Nat.ne_of_lt (hinv.listed _ hmem))]
      exact hhas
  | detach =>
    refine .inl ((hi.resolve_right id).mono rfl (fun hmem _ => ?_) rfl .inl fun _ => id)
    exact List.mem_of_mem_filter hmem
  | shutdown => exact .inl ((hi.resolve_right id).setOrder fun _ hhas => hhas)

variable {queue : Chan (Tagged Delivery)}

/-- A notification in the queue of another type stays there. -/
theorem Queued.setQueue (h : Queued s k) {type : NotifyMsgType}
    (hqueue : k ∈ numbers (s.queues type) → k ∈ numbers queue) :
    Queued (s.setQueue type queue) k := by
  obtain ⟨type', htrade, hmem⟩ := h
  refine ⟨type', htrade, ?_⟩
  by_cases htype : type' = type
  · rw [htype, Shared.setQueue_self]
    exact hqueue (htype ▸ hmem)
  · rw [Shared.setQueue_of_ne s htype]
    exact hmem

theorem Kept.setQueue (h : Kept s i) {type : NotifyMsgType}
    (hqueue : i.1 ∈ numbers (s.queues type) → i.1 ∈ numbers queue) :
    Kept (s.setQueue type queue) i :=
  h.mono rfl (fun hmem _ => hmem) rfl (fun hq => .inl (hq.setQueue hqueue)) fun _ => id

/-- A delivery that is sent to its dispatcher is in the queue, with those that were there. -/
theorem kept_send {d : Tagged Delivery} (hsent : (s.queues d.value.type).trySend d = some queue)
    (hi : Kept s i ∨ i.1 = d.number) : Kept (s.setQueue d.value.type queue) i := by
  rcases hi with hkept | hnumber
  · exact hkept.setQueue fun hmem => (mem_trySend hsent).mpr (.inl hmem)
  · refine fun _ _ _ => .inl ⟨d.value.type, d.value.isTrade, ?_⟩
    rw [Shared.setQueue_self]
    exact (mem_trySend hsent).mpr (.inr hnumber)

/-! ## Reports -/

/-- If a subscription has overflowed then that was reported. -/
def BacklogReported (s : Shared) (i : ℕ) : Prop :=
  (s.subs i).backlogRaised = true → Reported s (s.subs i).accountID

/-- The thread will report that a subscription has overflowed. -/
def reporting : Next → ℕ → Prop
  | .go (.report _ j _ _), i => i = j
  | _, _ => False

theorem BacklogReported.setOrder {i : ℕ} (h : BacklogReported s i) {j : ℕ}
    (hraised : ord.backlogRaised = (s.subs j).backlogRaised)
    (haccount : ord.accountID = (s.subs j).accountID) : BacklogReported (s.setOrder j ord) i := by
  unfold BacklogReported
  by_cases hj : i = j
  · rw [hj, Shared.setOrder_self, hraised, haccount]
    exact hj ▸ h
  · rw [Shared.setOrder_of_ne s hj]
    exact h

theorem Reported.append {account : AccountId} (h : Reported s account) (errs : List StreamError) :
    Reported { s with reports := s.reports ++ errs } account := by
  obtain ⟨dropped, hmem⟩ := h
  exact ⟨dropped, List.mem_append_left errs hmem⟩

theorem Order.overflow_accountID (ord : Order) (u : Tagged PushUpdate) (lost : Option ℕ) :
    (ord.overflow u lost).accountID = ord.accountID := by
  unfold overflow
  split <;> rfl

/-- In a section the first overflow of a subscription makes its thread report it. -/
theorem Follows.reporting {now : Time} {c : Section} {turn : Turn Section Work}
    (h : Follows s now c (s', turn)) {i : ℕ} (hi : BacklogReported s i) :
    BacklogReported s' i ∨ TradeDelivery.reporting (turn.point c).next i := by
  cases h with
  | @overflow u j rest lost =>
    by_cases hraised : (s.subs j).backlogRaised = true
    · refine .inl (hi.setOrder ?_ (Order.overflow_accountID _ u lost))
      rw [Order.overflow_raised, hraised]
    · by_cases hj : i = j
      · refine .inr ?_
        show TradeDelivery.reporting (if (s.subs j).backlogRaised then _ else _) i
        rw [if_neg hraised]
        exact hj
      · refine .inl ?_
        unfold BacklogReported
        rw [Shared.setOrder_of_ne s hj]
        exact hi
  | register =>
    refine .inl ?_
    unfold BacklogReported
    by_cases hcount : i = s.count
    · simp only [hcount, Function.update_self]
      exact nofun
    · simp only [Function.update_of_ne hcount]
      exact hi
  | sent | full | discarded | shutdown => exact .inl (hi.setOrder rfl rfl)
  | _ => exact .inl hi

/-! ## Actions without a lock -/

section

variable [DecimalPackage] [FloatText]

/-- Without a lock a notification is passed on, if `dispatch` finds what it needs and the
amounts are in order. -/
theorem Acts.owes [LawfulReading] {k : Work} {x : Next} (h : Acts s k (s', x))
    (hdiscard : ∀ d, k = .discard d → (s.queues d.value.type).queue = [])
    (hresend : ∀ d, k = .resend d →
      (s.queues d.value.type).queue.length < (s.queues d.value.type).capacity)
    (hnumeric : ∀ d, k = .convert d → d.value.Numeric) (hi : Kept s i ∨ k.owes i) :
    Kept s' i ∨ TradeDelivery.owes x i := by
  cases h with
  | sent hsent | resent hsent => exact .inl (kept_send hsent hi)
  | full | emptied | converted => exact hi
  | @discarded d oldest queue hrecv =>
    have hqueue := (Chan.tryRecv_eq_some hrecv).1
    rw [hdiscard d rfl] at hqueue
    cases hqueue
  | @lost d hfull => exact absurd hfull (Chan.trySend_ne_none (hresend d rfl))
  | @taken type d queue hrecv =>
    have hkept := hi.resolve_right id
    by_cases hnumber : i.1 = d.number
    · exact .inr hnumber
    · refine .inl (hkept.setQueue fun hmem => ?_)
      exact ((mem_tryRecv hrecv).mp hmem).resolve_left hnumber
  | @panicked d panic hpanic =>
    obtain ⟨u, hu⟩ := convert_delivery (hnumeric d rfl)
    cases hpanic.symm.trans hu
  | @refused d err hrefused =>
    obtain ⟨u, hu⟩ := convert_delivery (hnumeric d rfl)
    cases hrefused.symm.trans hu
  | report =>
    rcases hi with hkept | ⟨hnumber, hmem⟩
    · exact .inl (hkept.mono rfl (fun hmem _ => hmem) rfl .inl fun _ => id)
    · exact .inr (owes_deliverNext hnumber hmem)
  | @received j u updates hrecv =>
    refine .inl ((hi.resolve_right id).setOrder fun _ hhas => ?_)
    rcases hhas with hreceived | hqueued | hdiscarded
    · exact .inl (List.mem_append_left _ hreceived)
    · rcases (mem_tryRecv hrecv).mp hqueued with hnumber | hrest
      · exact .inl (List.mem_append_right _ (List.mem_singleton.mpr hnumber))
      · exact .inr (.inl hrest)
    · exact .inr (.inr hdiscarded)
  | drained => exact .inl (hi.resolve_right id)

/-- The steps of a run in which `dispatch` discards nothing, with what holds before them. -/
structure Guarded (s : System) (a : Action) : Prop where
  sound : Sound program Inv Holds s
  lossless : Lossless s a

/-- Every notification is kept or on its way. -/
theorem deliveryDebts [LawfulReading] : Debts (τ := ℕ) program Guarded Kept owes where
  ret _ := id
  body {s _ r c _} hcond _ hi := (body_follows s.shared r c).owes hcond.sound.inv hi
  work hcond ht hk hi :=
    (work_acts hk).owes (fun d hd => hcond.lossless.discard d (hd ▸ ht))
      (fun d hd => hcond.lossless.resend d (hd ▸ ht))
      (fun d hd => hcond.lossless.convert d (hd ▸ ht)) hi

theorem Acts.reporting {k : Work} {x : Next} (h : Acts s k (s', x)) {i : ℕ}
    (hi : BacklogReported s i ∨ TradeDelivery.reporting (.go k) i) : BacklogReported s' i := by
  cases h with
  | @report u j rest dropped =>
    rcases hi with hreported | rfl
    · exact fun hraised => (hreported hraised).append _
    · exact fun _ => ⟨dropped, List.mem_append_right _ List.mem_cons_self⟩
  | refused => exact fun hraised => (hi.resolve_right id hraised).append _
  | received => exact (hi.resolve_right id).setOrder rfl rfl
  | _ => exact hi.resolve_right id

/-- Every overflow is reported or about to be. -/
theorem reportDebts : Debts (τ := ℕ) program (fun _ _ => True) BacklogReported reporting where
  ret _ := id
  body {s _ r c _} _ _ hi := (body_follows s.shared r c).reporting (hi.resolve_right id)
  work _ _ hk hi := .inl ((work_acts hk).reporting hi)

/-! ## Runs -/

/-- What holds in every state of a run in which `dispatch` discards nothing. -/
structure Accountable (s : System) : Prop where
  sound : Sound program Inv Holds s
  delivered : Accounted Kept owes s
  reported : Accounted BacklogReported reporting s

theorem Accountable.step [LawfulReading] {s s' : System} (h : Accountable s) {a : Action} (ha : Lossless s a)
    (hstep : TradeDelivery.step s a = some s') : Accountable s' := by
  -- no copy of the list is torn, so this is a step of the program
  have hprogram : program.step s a = some s' := (if_neg ha.whole).symm.trans hstep
  exact
    { sound := subscriptionOutline.step h.sound ha hprogram
      delivered := deliveryDebts.step h.delivered ⟨h.sound, ha⟩ hprogram
      reported := reportDebts.step h.reported trivial hprogram }

theorem accountable_init (buffer : ℕ) (accounts : List AccountId) :
    Accountable (init buffer accounts) where
  sound := sound_init
    ⟨rfl, Nat.le_refl _, fun _ hi => List.mem_range.mp hi, nofun, fun _ => Nat.le_refl 0,
      fun _ hpos => absurd hpos (Nat.lt_irrefl 0)⟩ ⟨trivial, trivial⟩
  delivered _ := .inl nofun
  reported _ := .inl nofun

/-- At rest a notification that is missing was discarded by the subscription. -/
theorem Accountable.discarded {s : System} (h : Accountable s) (hsettled : Settled s) {i : ℕ}
    (hlive : i ∈ s.shared.orders) (hfirst : i < s.shared.first)
    (hk : k ∈ (s.shared.subs i).missing s.shared.handed) : k ∈ (s.shared.subs i).discarded := by
  obtain ⟨hrange, hmissing⟩ := List.mem_filter.mp hk
  simp only [Bool.and_eq_true, Bool.not_eq_true', decide_eq_false_iff_not] at hmissing
  have hkept : Kept s.shared (k, i) := h.delivered.quiescent (fun _ => id) hsettled.1 (k, i)
  rcases hkept (List.mem_range.mp hrange) hlive hfirst with ⟨type, htrade, hqueued⟩ | hhas
  · rw [numbers, hsettled.2 type htrade] at hqueued
    cases hqueued
  · rcases hhas with hreceived | hqueued | hdiscarded
    · exact absurd hreceived hmissing.1
    · exact absurd hqueued hmissing.2
    · exact hdiscarded

theorem Accountable.noSilentLoss {s : System} (h : Accountable s) : NoSilentLoss s where
  running := h.sound.inv.running
  accounted hsettled i hlive hfirst := by
    have hsubset : (s.shared.subs i).missing s.shared.handed ⊆ (s.shared.subs i).discarded :=
      fun k hk => h.discarded hsettled hlive hfirst hk
    have hnodup : ((s.shared.subs i).missing s.shared.handed).Nodup :=
      List.nodup_range.filter _
    have hle : ((s.shared.subs i).missing s.shared.handed).length ≤ (s.shared.subs i).dropped :=
      (List.subperm_of_subset hnodup hsubset).length_le.trans (h.sound.inv.counted i)
    refine ⟨hle, fun hne => ?_⟩
    have hreported : BacklogReported s.shared i := h.reported.quiescent (fun _ => id) hsettled.1 i
    exact hreported (h.sound.inv.raised i (Nat.lt_of_lt_of_le (List.length_pos_of_ne_nil hne) hle))

/-- **No fill is lost silently**, in every run in which `dispatch` discards nothing from the
queue of a dispatcher, the amounts of the deliveries are empty or read by the decimal package, and
the list of subscriptions is never copied while it is changed. -/
theorem no_silent_loss [LawfulReading] (buffer : ℕ) (accounts : List AccountId) (run : List Action)
    (h : EachStep step Lossless (init buffer accounts) run) :
    Always step NoSilentLoss (init buffer accounts) run := by
  have hall : Always step Accountable (init buffer accounts) run :=
    h.always (fun s a s' hs ha hstep => hs.step ha hstep) (accountable_init buffer accounts)
  exact hall.mono fun s hs => hs.noSilentLoss

end

/-! ## Two runs -/

section

attribute [local instance] ScaledInt.scaledInts exactTexts

/-- A delivery whose message has no field set. -/
def emptyFill : Delivery := ⟨tradeStockDeliverMsgType, by decide, [], 0, some {}⟩

theorem emptyFill_numeric : emptyFill.Numeric := by
  rintro msg hmsg
  cases hmsg
  exact ⟨.inl rfl, .inl rfl, .inl rfl⟩

/-- A thread does a number of actions. -/
def acts (t n : ℕ) : List Action := List.replicate n (.run t 0)

/-- The read loop hands over a delivery, with room in the queue. -/
def handOver : List Action := .call 0 (.dispatch emptyFill) :: acts 0 4

/-- The dispatcher brings a delivery to the only subscription, with room in its channel. -/
def handle : List Action := .call 1 (.handle tradeStockDeliverMsgType) :: acts 1 8

/-- Two deliveries for a channel with room for one; the consumer comes after them. -/
def overflowOnce : List Action :=
  handOver ++ handOver ++ handle ++
  .call 1 (.handle tradeStockDeliverMsgType) :: acts 1 11 ++
  .call 2 (.receive 0) :: acts 2 1

/-- What is done next is lossless, whatever is in the channels: a fill is converted only if it has
no field set, and nothing is discarded or sent again. -/
def plainlyLossless : Point Section Work → Bool
  | .work (.discard _) | .work (.resend _) => false
  | .work (.convert d) => decide (d.value = emptyFill)
  | _ => true

/-- In that run the first delivery is lost, and it is counted and reported. -/
theorem no_silent_loss_overflowOnce :
    EachStep step Lossless (init 1 [bytes "A"]) overflowOnce ∧
      (∃ s, exec step (init 1 [bytes "A"]) overflowOnce = some s ∧
        (s.shared.subs 0).missing s.shared.handed = [0] ∧ (s.shared.subs 0).dropped = 1 ∧
        s.shared.reports = [.tradeBacklog (bytes "A") 1 1]) ∧
      Always step NoSilentLoss (init 1 [bytes "A"]) overflowOnce := by
  have hchecked : EachStep step
      (fun s a => plainlyLossless (s.point a.thread) = true ∧ ¬ Torn s)
      (init 1 [bytes "A"]) overflowOnce := by decide +kernel
  have hlossless : EachStep step Lossless (init 1 [bytes "A"]) overflowOnce := by
    refine hchecked.mono fun s a ⟨ha, hwhole⟩ =>
      ⟨⟨fun d hd => ?_, fun d hd => ?_, fun d hd => ?_⟩, hwhole⟩
    · rw [hd] at ha
      cases ha
    · rw [hd] at ha
      cases ha
    · rw [hd] at ha
      rw [of_decide_eq_true ha]
      exact emptyFill_numeric
  exact ⟨hlossless, exec_exists (by decide +kernel),
    no_silent_loss 1 [bytes "A"] overflowOnce hlossless⟩

/-- The read loop hands over 65 deliveries before the dispatcher runs. -/
def fullQueue : List Action :=
  (List.replicate dispatchBuffer handOver).flatten ++
  .call 0 (.dispatch emptyFill) :: acts 0 6 ++
  (List.replicate dispatchBuffer handle).flatten

/-- **The queue of a dispatcher loses silently.** The subscription has room for everything, and
still the first delivery is missing at rest, not counted and not reported. -/
theorem full_queue_loses :
    ∃ s, exec step (init defaultPushBuffer [bytes "A"]) fullQueue = some s ∧
      Settled s ∧ s.shared.orders = [0] ∧ s.shared.first = 1 ∧ s.shared.handed = 65 ∧
      (s.shared.subs 0).missing s.shared.handed = [0] ∧ (s.shared.subs 0).dropped = 0 ∧
      s.shared.reports = [] ∧ ¬ NoSilentLoss s := by
  obtain ⟨s, hs, hidle, hqueues, horders, hfirst, hhanded, hmissing, hdropped, hreports⟩ :
      ∃ s, exec step (init defaultPushBuffer [bytes "A"]) fullQueue = some s ∧
        (∀ ev ∈ fullQueue, s.point ev.thread = .idle) ∧
        (∀ type ∈ tradeNotifyTypes, (s.shared.queues type).queue = []) ∧
        s.shared.orders = [0] ∧ s.shared.first = 1 ∧ s.shared.handed = 65 ∧
        (s.shared.subs 0).missing s.shared.handed = [0] ∧ (s.shared.subs 0).dropped = 0 ∧
        s.shared.reports = [] := exec_exists (by decide +kernel)
  -- nobody changes the list of subscriptions in this run
  have hwhole : EachStep step (fun s _ => ¬ Torn s) (init defaultPushBuffer [bytes "A"]) fullQueue :=
    by decide +kernel
  have hsettled : Settled s :=
    ⟨Program.quiescent_of_exec ((exec_step hwhole).symm.trans hs) hidle, hqueues⟩
  refine ⟨s, hs, hsettled, horders, hfirst, hhanded, hmissing, hdropped, hreports, fun hloss => ?_⟩
  have hlive : 0 ∈ s.shared.orders := by
    rw [horders]
    exact List.mem_cons_self
  obtain ⟨hle, -⟩ := hloss.accounted hsettled 0 hlive (by rw [hfirst]; exact Nat.one_pos)
  rw [hmissing, hdropped] at hle
  exact absurd hle (Nat.not_succ_le_zero 0)

end

end HstongApi.TradeDelivery
