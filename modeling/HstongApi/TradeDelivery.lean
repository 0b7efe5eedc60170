import HstongApi.Channels
import HstongApi.PushNormalize
import HstongApi.PushRegistry
import HstongApi.Threads

/-!
# The path of a fill

A trade delivery passes two queues on its way to a consumer. The read loop hands it to the
queue of its payload type (`Client.dispatch`). The dispatcher goroutine of the type takes it
from there, `PushAdapter.convert` makes an update of it, and `dispatchTrade` offers the update
to every order subscription (`OrderSubscription.deliver`). The consumer receives it from the
channel of the subscription.

Both queues are channels that lose their oldest element when they are full. The second one
counts what it loses and reports it; the first one does not. A send, a discard and a second
send are three actions, between which other goroutines may act: the consumer does not take the
lock of the subscription.

The list of subscriptions is copied by `dispatchTrade` under `mu` and changed by
`SubscribeOrders` and `Cancel` under `subMu`. The two mutexes do not exclude each other, so a copy
may be made while the list is changed. What such a copy holds is not defined, and a nil pointer in
it makes `deliver` panic; in the model the process ends there (`Torn`, `step`).

Notifications are numbered as they are handed over, so that it can be said what became of
each. The report of an error is one action, and the record `reports` is of all that was ever
reported.
-/

namespace HstongApi.TradeDelivery

open Threads PushEvents DecimalPackage

/-! ## Notifications -/

/-- A decoded notification of a trade type. -/
structure Delivery where
  /-- `notifyMsgType` -/
  type : NotifyMsgType
  /-- the type is one of the three that `SubscribeOrders` installs a handler for -/
  isTrade : type ∈ tradeNotifyTypes
  /-- `notifyId` -/
  id : Bytes
  /-- `notifyTime`, in milliseconds -/
  time : ℕ
  /-- the message, if the payload has one -/
  msg : Option TradeStockDeliverNotify
  deriving DecidableEq

/-- The delivery as the push client has it. -/
def Delivery.notification (d : Delivery) : Notification :=
  ⟨d.type, d.id, d.time, d.msg.map fun msg => .deliver (some msg)⟩

/-- The amounts of the delivery are empty or texts that the decimal package reads. -/
def Delivery.Numeric [DecimalPackage] (d : Delivery) : Prop := ∀ msg ∈ d.msg, msg.Numeric

theorem Delivery.selects (d : Delivery) :
    ∀ payload ∈ d.notification.payload, Selects d.notification.type payload := by
  intro payload hpayload
  obtain ⟨msg, -, rfl⟩ := Option.map_eq_some_iff.mp hpayload
  exact .deliver msg d.isTrade

/-- A body that decodes to a notification of a trade type decodes to a delivery. -/
theorem exists_delivery [Protobuf] {body : Bytes} {n : Notification}
    (h : decodeNotification body = .ok n) (ht : n.type ∈ tradeNotifyTypes) :
    ∃ d : Delivery, d.notification = n := by
  obtain ⟨type, id, time, payload⟩ := n
  cases payload with
  | none => exact ⟨⟨type, ht, id, time, none⟩, rfl⟩
  | some payload =>
    have hselects : Selects type payload := decodeNotification_selects h payload rfl
    have htrade : type ∈ tradeNotifyTypes := ht
    cases hselects with
    | deliver msg _ => exact ⟨⟨type, htrade, id, time, some msg⟩, rfl⟩
    | _ => exact absurd htrade (by decide)

/-- The code and the time stamp of an event, as the orchestration sees it. -/
def pushEvent [DecimalPackage] : Event → PushEvent
  | .quote event => .quote event.symbol.code event.timestamp
  | .ticker event => .ticker event.symbol.code event.timestamp
  | .orderBook event => .orderBook event.symbol.code event.timestamp
  | .broker event => .broker event.symbol.code event.timestamp
  | .trade event => .trade event.symbol.code event.timestamp
  | .system _ => .system

/-- `notifyTime`: the conversion to `int64` wraps. -/
def notifyTime (ms : ℕ) : Time :=
  if ms = 0 then 0 else if ms < 2 ^ 63 then (ms : ℤ) else (ms : ℤ) - 2 ^ 64

section

variable [DecimalPackage] [FloatText]

/-- `PushAdapter.convert` up to the handler: a panic, or an error to report, or an update. -/
def convert (n : Notification) : Except Panic (Except Bytes PushUpdate) := do
  let result ← normalizeNotification (some n)
  return result.map fun event => ⟨n.type, n.id, notifyTime n.time, some (pushEvent event)⟩

/-- A delivery with amounts in order becomes an update. -/
theorem convert_delivery [LawfulReading] {d : Delivery} (h : d.Numeric) :
    ∃ u, convert d.notification = .ok (.ok u) := by
  have hnumeric : d.notification.Numeric := by
    intro payload hpayload
    obtain ⟨msg, hmsg, rfl⟩ := Option.map_eq_some_iff.mp hpayload
    rintro notify hnotify
    cases hnotify
    exact h msg hmsg
  obtain ⟨event, hevent⟩ := normalize_event hnumeric d.selects
  rw [convert, hevent]
  exact ⟨_, rfl⟩

end

/-! ## State and points -/

/-- A value with the number of its notification. -/
structure Tagged (α : Type) where
  number : ℕ
  value : α
  deriving DecidableEq

/-- The numbers in a channel. -/
def numbers {α : Type} (c : Chan (Tagged α)) : List ℕ := c.queue.map (·.number)

/-- `dispatchBuffer` -/
def dispatchBuffer : ℕ := 64

/-- `OrderSubscription` -/
structure Order where
  /-- the account it was made for -/
  accountID : AccountId
  /-- the channel the consumer receives from -/
  updates : Chan (Tagged PushUpdate)
  /-- it was cancelled, and its channel is closed -/
  closed : Bool := false
  /-- how often the channel was full -/
  dropped : ℕ := 0
  /-- `ErrTradeBacklog` was raised for it -/
  backlogRaised : Bool := false
  /-- when it last accepted an update -/
  lastSeen : Time := 0
  /-- what the consumer has received -/
  received : List ℕ := []
  /-- what was taken out of the channel, or not put into it, for lack of room -/
  discarded : List ℕ := []

/-- What the threads share. -/
structure Shared where
  /-- the capacity of the channels of the subscriptions -/
  buffer : ℕ
  /-- the queues of the dispatchers -/
  queues : NotifyMsgType → Chan (Tagged Delivery)
  /-- the order subscriptions -/
  subs : ℕ → Order
  /-- the number of order subscriptions ever made -/
  count : ℕ
  /-- those that were there at the beginning -/
  first : ℕ
  /-- `orders`: those that are live -/
  orders : List ℕ
  /-- what was reported on the stream of errors -/
  reports : List StreamError := []
  /-- the number of notifications handed over so far -/
  handed : ℕ := 0
  /-- a goroutine has panicked, which ends the process -/
  crashed : Bool := false

/-- The three attempts to send, with the number of what the second one has discarded. -/
inductive Attempt
  | send
  | discard
  | resend (lost : Option ℕ)
  deriving DecidableEq

/-- The actions under a lock. -/
inductive Section
  /-- `dispatch` looks for the handler of the type -/
  | lookup (d : Delivery)
  /-- `dispatchTrade` copies the list of subscriptions -/
  | targets (u : Tagged PushUpdate)
  /-- `deliver` on a subscription, with those that come after it -/
  | deliver (u : Tagged PushUpdate) (i : ℕ) (rest : List ℕ) (attempt : Attempt)
  /-- another order subscription is made -/
  | register (account : AccountId)
  /-- an order subscription is taken from the list -/
  | detach (i : ℕ)
  /-- its channel is closed -/
  | shutdown (i : ℕ)
  deriving DecidableEq

/-- The actions without a lock. -/
inductive Work
  /-- the three attempts of `dispatch` -/
  | send (d : Tagged Delivery)
  | discard (d : Tagged Delivery)
  | resend (d : Tagged Delivery)
  /-- the dispatcher of a type takes a notification -/
  | take (type : NotifyMsgType)
  | convert (d : Tagged Delivery)
  /-- `deliver` reports the first overflow of a subscription -/
  | report (u : Tagged PushUpdate) (i : ℕ) (rest : List ℕ) (dropped : ℕ)
  /-- the consumer of a subscription receives -/
  | receive (i : ℕ)
  deriving DecidableEq

/-- How a thread goes on. -/
abbrev Next : Type := Exit Section Work

/-- The mutexes. -/
inductive Mutex
  /-- `mu` of the push client -/
  | client
  /-- `mu` of the orchestration -/
  | mu
  /-- `subMu` of the orchestration -/
  | subMu
  /-- `mu` of an order subscription -/
  | order (i : ℕ)
  deriving DecidableEq

/-- The mutex of a section. The list of subscriptions is copied under one mutex and changed under
another. -/
def Section.mutex : Section → Mutex
  | .lookup _ => .client
  | .targets _ => .mu
  | .register _ | .detach _ => .subMu
  | .deliver _ i _ _ | .shutdown i => .order i

/-- What the threads do: the read loop hands over a delivery, the dispatcher of a type handles
one, the consumer of a subscription receives; and subscriptions come and go. -/
inductive Call
  | dispatch (d : Delivery)
  | handle (type : NotifyMsgType)
  | receive (i : ℕ)
  | subscribe (account : AccountId)
  | cancel (i : ℕ)

/-! ## Actions -/

/-- The first action of a call. -/
def start (s : Shared) : Call → Option Next
  | .dispatch d => some (.enter (.lookup d))
  | .handle type => some (.go (.take type))
  | .receive i => some (.go (.receive i))
  | .subscribe account => some (.enter (.register account))
  | .cancel i => if i < s.count then some (.enter (.detach i)) else none

/-- The loop of `dispatchTrade`. -/
def deliverNext (u : Tagged PushUpdate) : List ℕ → Next
  | [] => .ret
  | i :: rest => .enter (.deliver u i rest .send)

/-- An order subscription is changed. -/
def Shared.setOrder (s : Shared) (i : ℕ) (ord : Order) : Shared :=
  { s with subs := Function.update s.subs i ord }

/-- The queue of a dispatcher is changed. -/
def Shared.setQueue (s : Shared) (type : NotifyMsgType) (queue : Chan (Tagged Delivery)) : Shared :=
  { s with queues := Function.update s.queues type queue }

@[simp] theorem Shared.setOrder_self (s : Shared) (i : ℕ) (ord : Order) :
    (s.setOrder i ord).subs i = ord := by
  simp only [setOrder, Function.update_self]

theorem Shared.setOrder_of_ne (s : Shared) {i j : ℕ} (h : j ≠ i) (ord : Order) :
    (s.setOrder i ord).subs j = s.subs j := by
  simp only [setOrder, Function.update_of_ne h]

@[simp] theorem Shared.setQueue_self (s : Shared) (type : NotifyMsgType)
    (queue : Chan (Tagged Delivery)) : (s.setQueue type queue).queues type = queue := by
  simp only [setQueue, Function.update_self]

theorem Shared.setQueue_of_ne (s : Shared) {type type' : NotifyMsgType} (h : type' ≠ type)
    (queue : Chan (Tagged Delivery)) : (s.setQueue type queue).queues type' = s.queues type' := by
  simp only [setQueue, Function.update_of_ne h]

/-- The last attempt of `deliver` and its account. -/
def Order.overflow (ord : Order) (u : Tagged PushUpdate) (lost : Option ℕ) : Order :=
  match ord.updates.trySend u with
  | some updates =>
    { ord with
      updates := updates, dropped := ord.dropped + 1, backlogRaised := true,
      discarded := ord.discarded ++ lost.toList }
  | none =>
    { ord with
      dropped := ord.dropped + 1, backlogRaised := true,
      discarded := ord.discarded ++ (lost.toList ++ [u.number]) }

/-- The action of a section, at a time. -/
def body (s : Shared) (now : Time) : Section → Shared × Turn Section Work
  -- the handlers of the trade types are installed from the beginning
  | .lookup d => ({ s with handed := s.handed + 1 }, .leave (.go (.send ⟨s.handed, d⟩)))
  | .targets u => (s, .leave (deliverNext u s.orders))
  | .deliver u i rest .send =>
    if (s.subs i).closed then (s, .leave (deliverNext u rest))
    else
      match (s.subs i).updates.trySend u with
      | some updates =>
        (s.setOrder i { s.subs i with updates := updates, lastSeen := now },
          .leave (deliverNext u rest))
      | none =>
        (s.setOrder i { s.subs i with lastSeen := now }, .stay (.deliver u i rest .discard))
  | .deliver u i rest .discard =>
    match (s.subs i).updates.tryRecv with
    | some (oldest, updates) =>
      (s.setOrder i { s.subs i with updates := updates },
        .stay (.deliver u i rest (.resend (some oldest.number))))
    | none => (s, .stay (.deliver u i rest (.resend none)))
  | .deliver u i rest (.resend lost) =>
    (s.setOrder i ((s.subs i).overflow u lost),
      .leave (if (s.subs i).backlogRaised then deliverNext u rest
        else .go (.report u i rest ((s.subs i).dropped + 1))))
  | .register account =>
    ({ s with
        subs := Function.update s.subs s.count { accountID := account, updates := .make s.buffer }
        count := s.count + 1
        orders := s.orders ++ [s.count] },
      .leave .ret)
  | .detach i => ({ s with orders := s.orders.filter (· ≠ i) }, .leave (.enter (.shutdown i)))
  | .shutdown i =>
    (s.setOrder i { s.subs i with closed := true, updates := (s.subs i).updates.close }, .leave .ret)

/-- What the action of a section can do. -/
inductive Follows (s : Shared) (now : Time) : Section → Shared × Turn Section Work → Prop
  | lookup {d} :
      Follows s now (.lookup d) ({ s with handed := s.handed + 1 }, .leave (.go (.send ⟨s.handed, d⟩)))
  | targets {u} : Follows s now (.targets u) (s, .leave (deliverNext u s.orders))
  | skip {u i rest} : (s.subs i).closed = true →
      Follows s now (.deliver u i rest .send) (s, .leave (deliverNext u rest))
  | sent {u i rest updates} : (s.subs i).updates.trySend u = some updates →
      Follows s now (.deliver u i rest .send)
        (s.setOrder i { s.subs i with updates := updates, lastSeen := now },
          .leave (deliverNext u rest))
  | full {u i rest} : Follows s now (.deliver u i rest .send)
      (s.setOrder i { s.subs i with lastSeen := now }, .stay (.deliver u i rest .discard))
  | discarded {u i rest oldest updates} : (s.subs i).updates.tryRecv = some (oldest, updates) →
      Follows s now (.deliver u i rest .discard)
        (s.setOrder i { s.subs i with updates := updates },
          .stay (.deliver u i rest (.resend (some oldest.number))))
  | emptied {u i rest} : Follows s now (.deliver u i rest .discard)
      (s, .stay (.deliver u i rest (.resend none)))
  | overflow {u i rest lost} : Follows s now (.deliver u i rest (.resend lost))
      (s.setOrder i ((s.subs i).overflow u lost),
        .leave (if (s.subs i).backlogRaised then deliverNext u rest
          else .go (.report u i rest ((s.subs i).dropped + 1))))
  | register {account} : Follows s now (.register account)
      ({ s with
          subs := Function.update s.subs s.count { accountID := account, updates := .make s.buffer }
          count := s.count + 1
          orders := s.orders ++ [s.count] },
        .leave .ret)
  | detach {i} : Follows s now (.detach i)
      ({ s with orders := s.orders.filter (· ≠ i) }, .leave (.enter (.shutdown i)))
  | shutdown {i} : Follows s now (.shutdown i)
      (s.setOrder i { s.subs i with closed := true, updates := (s.subs i).updates.close },
        .leave .ret)

theorem body_follows (s : Shared) (now : Time) (c : Section) : Follows s now c (body s now c) := by
  cases c with
  | lookup d => exact .lookup
  | targets u => exact .targets
  | deliver u i rest attempt =>
    cases attempt with
    | send =>
      simp only [body]
      split
      · exact .skip ‹_›
      · split
        · exact .sent ‹_›
        · exact .full
    | discard =>
      simp only [body]
      split
      · exact .discarded ‹_›
      · exact .emptied
    | resend lost => exact .overflow
  | register account => exact .register
  | detach i => exact .detach
  | shutdown i => exact .shutdown

variable [DecimalPackage] [FloatText]

/-- The actions without a lock. -/
def work (s : Shared) : Work → Option (Shared × Next)
  | .send d =>
    match (s.queues d.value.type).trySend d with
    | some queue => some (s.setQueue d.value.type queue, .ret)
    | none => some (s, .go (.discard d))
  | .discard d =>
    match (s.queues d.value.type).tryRecv with
    | some (_, queue) => some (s.setQueue d.value.type queue, .go (.resend d))
    | none => some (s, .go (.resend d))
  | .resend d =>
    match (s.queues d.value.type).trySend d with
    | some queue => some (s.setQueue d.value.type queue, .ret)
    | none => some (s, .ret)
  | .take type =>
    match (s.queues type).tryRecv with
    | some (d, queue) => some (s.setQueue type queue, .go (.convert d))
    | none => none
  | .convert d =>
    match convert d.value.notification with
    | .error _ => some ({ s with crashed := true }, .ret)
    | .ok (.error err) => some ({ s with reports := s.reports ++ [.transport err] }, .ret)
    | .ok (.ok u) => some (s, .enter (.targets ⟨d.number, u⟩))
  | .report u i rest dropped =>
    some ({ s with reports := s.reports ++ [.tradeBacklog (s.subs i).accountID s.buffer dropped] },
      deliverNext u rest)
  | .receive i =>
    match (s.subs i).updates.tryRecv with
    | some (u, updates) =>
      some (s.setOrder i
        { s.subs i with updates := updates, received := (s.subs i).received ++ [u.number] }, .ret)
    | none => if (s.subs i).closed then some (s, .ret) else none

/-- What an action without a lock can do. -/
inductive Acts (s : Shared) : Work → Shared × Next → Prop
  | sent {d queue} : (s.queues d.value.type).trySend d = some queue →
      Acts s (.send d) (s.setQueue d.value.type queue, .ret)
  | full {d} : Acts s (.send d) (s, .go (.discard d))
  | discarded {d oldest queue} : (s.queues d.value.type).tryRecv = some (oldest, queue) →
      Acts s (.discard d) (s.setQueue d.value.type queue, .go (.resend d))
  | emptied {d} : Acts s (.discard d) (s, .go (.resend d))
  | resent {d queue} : (s.queues d.value.type).trySend d = some queue →
      Acts s (.resend d) (s.setQueue d.value.type queue, .ret)
  | lost {d} : (s.queues d.value.type).trySend d = none → Acts s (.resend d) (s, .ret)
  | taken {type d queue} : (s.queues type).tryRecv = some (d, queue) →
      Acts s (.take type) (s.setQueue type queue, .go (.convert d))
  | panicked {d panic} : convert d.value.notification = .error panic →
      Acts s (.convert d) ({ s with crashed := true }, .ret)
  | refused {d err} : convert d.value.notification = .ok (.error err) →
      Acts s (.convert d) ({ s with reports := s.reports ++ [.transport err] }, .ret)
  | converted {d u} : Acts s (.convert d) (s, .enter (.targets ⟨d.number, u⟩))
  | report {u i rest dropped} : Acts s (.report u i rest dropped)
      ({ s with reports := s.reports ++ [.tradeBacklog (s.subs i).accountID s.buffer dropped] },
        deliverNext u rest)
  | received {i u updates} : (s.subs i).updates.tryRecv = some (u, updates) →
      Acts s (.receive i) (s.setOrder i
        { s.subs i with updates := updates, received := (s.subs i).received ++ [u.number] }, .ret)
  | drained {i} : Acts s (.receive i) (s, .ret)

theorem work_acts {s : Shared} {k : Work} {out : Shared × Next} (h : work s k = some out) :
    Acts s k out := by
  cases k with
  | send d =>
    simp only [work] at h
    split at h <;> cases h
    · exact .sent ‹_›
    · exact .full
  | discard d =>
    simp only [work] at h
    split at h <;> cases h
    · exact .discarded ‹_›
    · exact .emptied
  | resend d =>
    simp only [work] at h
    split at h <;> cases h
    · exact .resent ‹_›
    · exact .lost ‹_›
  | take type =>
    simp only [work] at h
    split at h <;> cases h
    exact .taken ‹_›
  | convert d =>
    simp only [work] at h
    split at h <;> cases h
    · exact .panicked ‹_›
    · exact .refused ‹_›
    · exact .converted
  | report u i rest dropped =>
    cases h
    exact .report
  | receive i =>
    simp only [work] at h
    split at h
    · cases h
      exact .received ‹_›
    · obtain ⟨-, heq⟩ := Option.ite_none_right_eq_some.mp h
      cases heq
      exact .drained

/-- The path as a program. What an action learns from outside is the time. -/
def program : Program Shared Time Call Section Work Mutex where
  start := fun call s => start s call
  mutex := Section.mutex
  body := fun c now s => body s now c
  work := fun k _ s => work s k
  mutex_stay := by
    intro c now s c' h
    cases c with
    | lookup | targets | register | detach | shutdown => cases h
    | deliver u i rest attempt =>
      cases attempt with
      | send =>
        simp only [body] at h
        split at h
        · cases h
        · split at h <;> cases h
          rfl
      | discard =>
        simp only [body] at h
        split at h <;> cases h <;> rfl
      | resend lost => cases h

/-- The threads are numbered. -/
abbrev System : Type := State Shared Section Work Mutex ℕ

/-- A thread is called, or does its next action. -/
abbrev Action : Type := Event Time Call ℕ

/-- The list of subscriptions is being copied and changed at once: only `dispatchTrade` takes `mu`
here, and only `SubscribeOrders` and `Cancel` take `subMu`. -/
def Torn (s : System) : Prop := s.holder .mu ≠ none ∧ s.holder .subMu ≠ none

instance (s : System) : Decidable (Torn s) := inferInstanceAs (Decidable (_ ∧ _))

/-- One step of the system. A copy of a list that is being changed is not to be relied on: its
pointers may be nil, and the process may end. -/
def step (s : System) (a : Action) : Option System :=
  if Torn s then some { s with shared := { s.shared with crashed := true } } else program.step s a

/-- As long as no copy is torn a run is one of the program. -/
theorem exec_step {s : System} {run : List Action} (h : EachStep step (fun s _ => ¬ Torn s) s run) :
    exec step s run = exec program.step s run := by
  induction run generalizing s with
  | nil => rfl
  | cons a run ih =>
    have hwhole : ¬ Torn s := fun htorn => (h _ (if_pos htorn)).1 htorn
    have hstep : step s a = program.step s a := if_neg hwhole
    rw [exec, exec, hstep]
    refine Option.bind_congr fun s' hs' => ih ?_
    exact (h s' (hstep.trans hs')).2

/-- Order subscriptions for some accounts, and empty queues. -/
def init (buffer : ℕ) (accounts : List AccountId) : System :=
  .init
    { buffer := buffer
      queues := fun _ => .make dispatchBuffer
      subs := fun i => { accountID := accounts.getD i [], updates := .make buffer }
      count := accounts.length
      first := accounts.length
      orders := List.range accounts.length }

end HstongApi.TradeDelivery
