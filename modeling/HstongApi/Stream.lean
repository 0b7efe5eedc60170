import HstongApi.Channels
import HstongApi.PushVerify
import HstongApi.Threads

/-!
# The released stream client

A client of the package `stream` has one push connection and hands the events on it to its
subscriptions. The set of subscriptions, the number of those for orders and the flags are guarded
by the mutex of the client, and the channels of a subscription by the mutex of that subscription.

`Connect` leaves the mutex to dial and takes it again, and `Subscribe` and `SubscribeTrade` do so
for their requests. The other calls look at the client under its mutex once, and then go through
a list of things to do, which are the `Task`s here: `deliver` and `broadcastError` send to the
subscriptions that they found, `onReconnect` sends notices and makes requests, and `shutdown`
closes the subscriptions. `Cancel` makes its request, if there is one, and closes one.

The push client, the Gateway and the contexts of the callers are outside: what a request or a dial
gives is an `Input`. Of the Gateway there is the flag for the push of orders. To close a channel
that is closed, and to send on one, panics. What the calls return is kept in `replies`.
-/

namespace HstongApi.Stream

open Threads PushEvents PushVerify

/-! ## State -/

/-- The errors that the client returns or sends. -/
inductive StreamError
  /-- `ErrClosed` -/
  | closed
  /-- `ErrNoClient` -/
  | noClient
  /-- of a check or a request -/
  | request (err : GoError)
  /-- of the push client -/
  | push (err : ClientError)
  /-- `newReconnectNotice`: `ErrReconnected`, with the cause if there is one -/
  | reconnected (cause : Option ClientError)
  /-- `stream: resubscribe %d: %w` -/
  | resubscribe (topicID : TopicID) (err : GoError)
  /-- `stream: resubscribe trade push: %w` -/
  | resubscribeTrade (err : GoError)
  deriving DecidableEq

/-- `Event`; the zero time is `none`, others are milliseconds since 1970. -/
structure Event where
  type : NotifyMsgType
  id : Bytes
  time : Option ℤ
  payload : Option Payload
  deriving DecidableEq

/-- `Subscription` -/
structure Sub where
  topicID : TopicID := 0
  securities : List Security := []
  trade : Bool := false
  accepts : List NotifyMsgType := []
  updates : Chan Event := .make 0
  errs : Chan StreamError := .make 0
  closed : Bool := false
  closeOnce : Once := .unused

/-- The subscription that `Subscribe` makes. -/
def Sub.market (topic : TopicID) (securities : List Security) (type : NotifyMsgType)
    (buffer : ℕ) : Sub where
  topicID := topic
  securities := securities
  accepts := [type]
  updates := .make buffer
  errs := .make buffer

/-- The subscription that `SubscribeTrade` makes. -/
def Sub.orders (buffer : ℕ) : Sub where
  trade := true
  accepts := tradeNotifyTypes
  updates := .make buffer
  errs := .make buffer

/-- The goroutines that `Connect` starts, with their context. -/
inductive Goroutine
  | run (k : ℕ)
  | watch (k : ℕ)
  | forward (k : ℕ)
  deriving DecidableEq

/-- What a call returned. -/
inductive Reply
  | connect (err : Option StreamError)
  /-- `Subscribe` or `SubscribeTrade` -/
  | subscribed (i : ℕ)
  | refused (err : StreamError)
  | cancelled (err : Option GoError)
  | closed
  deriving DecidableEq

/-- `Client`, the subscriptions and contexts that were made, and what happened outside. -/
structure Shared where
  /-- there is a `client.Client`, and with it a manager for market requests -/
  hasClient : Bool := true
  /-- there is a manager for the push of orders -/
  trade : Bool := true
  buffer : ℕ := 64
  /-- the subscriptions that are registered -/
  subs : List ℕ := []
  tradeSubs : ℤ := 0
  started : Bool := false
  closed : Bool := false
  closeOnce : Once := .unused
  /-- the channel `done` is closed -/
  done : Bool := false
  /-- the context that `cancel` ends -/
  cancel : Option ℕ := none
  wg : ℕ := 0
  /-- all subscriptions that were made, by number -/
  sub : ℕ → Sub := fun _ => {}
  count : ℕ := 0
  /-- the number of contexts, and those that have ended -/
  contexts : ℕ := 0
  ended : List ℕ := []
  pushClosed : Bool := false
  /-- the Gateway pushes orders -/
  orderPush : Bool := false
  /-- goroutines that have not begun -/
  spawned : List Goroutine := []
  /-- the contexts of the loops `Run` that were started -/
  runs : List ℕ := []
  /-- the contexts that were ended by a `Connect` that failed -/
  aborted : List ℕ := []
  replies : List Reply := []
  panicked : Bool := false

/-- Things to do outside the mutex of the client. -/
inductive Task
  | sendUpdate (i : ℕ) (e : Event)
  | sendErr (i : ℕ) (err : StreamError)
  /-- the request of `onReconnect` for a subscription -/
  | resubscribe (i : ℕ)
  /-- its request for orders, with the subscriptions that get the error -/
  | resubscribeTrade (subs : List ℕ)
  /-- `Subscription.close` -/
  | close (i : ℕ)
  deriving DecidableEq

/-- Who calls `shutdown`: `Close`, or the goroutine that watches the context. -/
inductive Caller
  | close
  | watch
  deriving DecidableEq

/-- What comes after the things to do. -/
inductive Rest
  | ret
  | cancelled (err : Option GoError)
  | shutdown (caller : Caller)
  | forward (k : ℕ)
  deriving DecidableEq

/-- The actions under a lock. -/
inductive Section
  /-- the two sections of `Connect`, the second one with the context -/
  | connect
  | started (k : ℕ)
  /-- the two sections of `Subscribe` -/
  | subscribe (topic : TopicID) (securities : List Security) (type : NotifyMsgType)
  | register (topic : TopicID) (securities : List Security) (type : NotifyMsgType)
  /-- the two sections of `SubscribeTrade` -/
  | subscribeTrade
  | registerTrade
  | cancel (i : ℕ)
  | deliver (n : Notification)
  | onReconnect (cause : Option ClientError)
  | broadcastError (err : ClientError) (k : ℕ)
  | shutdown (caller : Caller)
  /-- the sections of a subscription -/
  | sendUpdate (i : ℕ) (e : Event) (tasks : List Task) (rest : Rest)
  | sendErr (i : ℕ) (err : StreamError) (tasks : List Task) (rest : Rest)
  | close (i : ℕ) (tasks : List Task) (rest : Rest)
  deriving DecidableEq

/-- The actions without a lock. -/
inductive Work
  | reply (a : Reply)
  /-- `push.Connect`, and `cancel` after an error of it -/
  | dial (k : ℕ)
  | abort (err : ClientError)
  /-- `Connect` starts its goroutines -/
  | spawn (k : ℕ)
  /-- the requests of `Subscribe`, `SubscribeTrade` and `Cancel` -/
  | request (topic : TopicID) (securities : List Security) (type : NotifyMsgType)
  | requestTrade
  | unsubscribe (i : ℕ)
  | unsubscribeTrade (i : ℕ)
  | task (t : Task) (tasks : List Task) (rest : Rest)
  /-- the end of the function that runs once in `Subscription.close` -/
  | closed (i : ℕ) (tasks : List Task) (rest : Rest)
  /-- `shutdown`, and the function that runs once in it after its section -/
  | shutdown (caller : Caller)
  | endContext (cancel : Option ℕ) (subs : List ℕ) (caller : Caller)
  | closePush (subs : List ℕ) (caller : Caller)
  | closeDone (subs : List ℕ) (caller : Caller)
  | shutdownDone (caller : Caller)
  /-- `wg.Wait` -/
  | waitGroup
  /-- the goroutines -/
  | begin (g : Goroutine)
  | running (k : ℕ)
  | watching (k : ℕ)
  | forwarding (k : ℕ)
  | finish
  /-- the context of a caller ends -/
  | expire (k : ℕ)
  deriving DecidableEq

/-- How a thread goes on. -/
abbrev Next : Type := Exit Section Work

/-- The mutexes `mu` of the client and of each subscription. -/
inductive Mutex
  | client
  | sub (i : ℕ)
  deriving DecidableEq

/-- The mutex of a section. -/
def Section.mutex : Section → Mutex
  | .sendUpdate i _ _ _ | .sendErr i _ _ _ | .close i _ _ => .sub i
  | _ => .client

/-- What the threads do: the methods of the client, the callbacks of the push client, and the
goroutines that were started; and the context of a caller can end. -/
inductive Call
  | connect
  | subscribe (topic : TopicID) (securities : List Security)
  | subscribeTrade
  | cancel (i : ℕ)
  | close
  | deliver (n : Option Notification)
  | onReconnect (cause : Option ClientError)
  | goroutine (g : Goroutine)
  | expire (k : ℕ)
  deriving DecidableEq

/-- What an action learns from outside. -/
structure Input where
  /-- the error of the request -/
  request : Option GoError := none
  /-- the error of the dial, or the one that the push client reports -/
  push : Option ClientError := none
  /-- the order in which `range` gives the subscriptions -/
  order : List ℕ := []
  /-- the `select` of the goroutine that watches takes the context if it can -/
  context : Bool := true
  deriving DecidableEq

/-! ## Actions -/

/-- The checks of `Subscribe`. The mapping of topics is the one of the market service. -/
def checkSubscribe (s : Shared) (topic : TopicID) (securities : List Security) :
    Except StreamError NotifyMsgType :=
  let invalid (message : Bytes) : StreamError :=
    .request (GoError.new GoError.statusInvalidParam (bytes "stream.Subscribe") message)
  if s.hasClient then
    match notifyTypeForTopic topic with
    | none => .error (invalid (bytes "unknown topicId " ++ itoa topic))
    | some type =>
      if securities = [] then .error (invalid (bytes "security list must not be empty"))
      else .ok type
  else .error .noClient

/-- `isVerificationError` -/
def isVerificationError : ClientError → Bool
  | .verify (.signatureMismatch _) | .verify .missingSignature | .verify .noPublicKey => true
  | _ => false

/-- `notifyTime`: a `uint64` is taken for an `int64`. -/
def notifyTime (ms : ℕ) : Option ℤ := if ms = 0 then none else some (Int.bmod ms (2 ^ 64))

/-- The event of a notification. -/
def Event.ofNotification (n : Notification) : Event :=
  ⟨n.type, n.id, notifyTime n.time, n.payload⟩

/-- The next thing to do. -/
def next : List Task → Rest → Next
  | [], .ret => .ret
  | [], .cancelled err => .go (.reply (.cancelled err))
  | [], .shutdown caller => .go (.shutdownDone caller)
  | [], .forward k => .go (.forwarding k)
  | .sendUpdate i e :: tasks, rest => .enter (.sendUpdate i e tasks rest)
  | .sendErr i err :: tasks, rest => .enter (.sendErr i err tasks rest)
  | t :: tasks, rest => .go (.task t tasks rest)

/-- After `shutdown`. -/
def Caller.next : Caller → Next
  | .close => .go .waitGroup
  | .watch => .go .finish

/-- A subscription is changed, and the operation on its channels may panic. -/
def Shared.setSub (s : Shared) (i : ℕ) (sub : Sub) (panics : Bool) : Shared :=
  { s with sub := Function.update s.sub i sub, panicked := s.panicked || panics }

/-- A subscription is made and registered. -/
def Shared.add (s : Shared) (sub : Sub) : Shared :=
  { s with
    sub := Function.update s.sub s.count sub, count := s.count + 1, subs := s.count :: s.subs }

/-- A subscription is deleted from those that are registered. -/
def Shared.delete (s : Shared) (i : ℕ) : Shared := { s with subs := s.subs.filter (· != i) }

/-- The subscriptions as `range` gives them. -/
def Shared.snapshot (s : Shared) (r : Input) : List ℕ :=
  if r.order.Perm s.subs then r.order else s.subs

/-- A channel with a value more, and without its oldest one if it is full: a send and, if that
would block, a receive and another send. -/
def offer {α : Type} (c : Chan α) (x : α) : Chan α :=
  match c.trySend x with
  | some c => c
  | none =>
    match c.tryRecv with
    | some (_, c) => (c.trySend x).getD c
    | none => c

/-- The function that runs once in `Subscription.close`. -/
def Sub.close (sub : Sub) : Sub :=
  { sub with closed := true, updates := sub.updates.close, errs := sub.errs.close }

/-- The first action of a call. -/
def start (s : Shared) : Call → Option Next
  | .connect => some (.enter .connect)
  | .subscribe topic securities =>
    match checkSubscribe s topic securities with
    | .error err => some (.go (.reply (.refused err)))
    | .ok type => some (.enter (.subscribe topic securities type))
  | .subscribeTrade =>
    if s.hasClient then some (.enter .subscribeTrade)
    else some (.go (.reply (.refused .noClient)))
  | .cancel i => if i < s.count then some (.enter (.cancel i)) else none
  | .close => some (.go (.shutdown .close))
  | .deliver none => some .ret
  | .deliver (some n) => some (.enter (.deliver n))
  | .onReconnect cause => some (.enter (.onReconnect cause))
  | .goroutine g => some (.go (.begin g))
  | .expire k => some (.go (.expire k))

/-- What `deliver` has to do. -/
def Shared.deliverTasks (s : Shared) (subs : List ℕ) (n : Notification) : List Task :=
  (subs.filter fun i => n.type ∈ (s.sub i).accepts).map (.sendUpdate · (.ofNotification n))

/-- What `onReconnect` has to do. -/
def Shared.reconnectTasks (s : Shared) (subs : List ℕ) (cause : Option ClientError) : List Task :=
  subs.map (.sendErr · (.reconnected cause)) ++
    (subs.filter fun i => !(s.sub i).trade).map .resubscribe ++
    if 0 < s.tradeSubs ∧ s.trade = true then
      [.resubscribeTrade (subs.filter fun i => (s.sub i).trade)]
    else []

/-- What `Cancel` does after its section for a subscription that was registered; `lastTrade` says
that no other one for orders is left. -/
def Shared.afterCancel (s : Shared) (i : ℕ) (lastTrade : Bool) : Next :=
  if s.closed then next [.close i] (.cancelled none)
  else if (s.sub i).trade then
    if lastTrade && s.trade then .go (.unsubscribeTrade i) else next [.close i] (.cancelled none)
  else if s.hasClient then .go (.unsubscribe i)
  else next [.close i] (.cancelled none)

/-- The action of a section. -/
def body (s : Shared) (r : Input) : Section → Shared × Next
  | .connect =>
    if s.closed then (s, .go (.reply (.connect (some .closed))))
    else if s.started then (s, .go (.reply (.connect none)))
    else if s.hasClient then
      ({ s with contexts := s.contexts + 1, cancel := some s.contexts }, .go (.dial s.contexts))
    else (s, .go (.reply (.connect (some .noClient))))
  | .started k =>
    if s.closed then (s, .go (.reply (.connect (some .closed))))
    else ({ s with started := true, wg := s.wg + 3 }, .go (.spawn k))
  | .subscribe topic securities type =>
    if s.closed then (s, .go (.reply (.refused .closed)))
    else (s, .go (.request topic securities type))
  | .register topic securities type =>
    if s.closed then (s, .go (.reply (.refused .closed)))
    else
      (s.add (.market topic securities type s.buffer), .go (.reply (.subscribed s.count)))
  | .subscribeTrade =>
    if s.closed then (s, .go (.reply (.refused .closed)))
    else if s.tradeSubs = 0 ∧ s.trade = true then (s, .go .requestTrade)
    else (s, .enter .registerTrade)
  | .registerTrade =>
    if s.closed then (s, .go (.reply (.refused .closed)))
    else
      ({ s.add (.orders s.buffer) with tradeSubs := s.tradeSubs + 1 },
        .go (.reply (.subscribed s.count)))
  | .cancel i =>
    if i ∈ s.subs then
      if (s.sub i).trade then
        if s.tradeSubs - 1 ≤ 0 then ({ s.delete i with tradeSubs := 0 }, s.afterCancel i true)
        else ({ s.delete i with tradeSubs := s.tradeSubs - 1 }, s.afterCancel i false)
      else (s.delete i, s.afterCancel i false)
    else (s, next [.close i] (.cancelled none))
  | .deliver n => (s, next (s.deliverTasks (s.snapshot r) n) .ret)
  | .onReconnect cause =>
    if s.closed then (s, .ret) else (s, next (s.reconnectTasks (s.snapshot r) cause) .ret)
  | .broadcastError err k =>
    (s, next ((s.snapshot r).map (.sendErr · (.push err))) (.forward k))
  | .shutdown caller =>
    ({ s with closed := true, subs := [], tradeSubs := 0 },
      .go (.endContext s.cancel (s.snapshot r) caller))
  | .sendUpdate i e tasks rest =>
    if (s.sub i).closed then (s, next tasks rest)
    else
      (s.setSub i { s.sub i with updates := offer (s.sub i).updates e } (s.sub i).updates.closed,
        next tasks rest)
  | .sendErr i err tasks rest =>
    if (s.sub i).closed then (s, next tasks rest)
    else
      (s.setSub i { s.sub i with errs := offer (s.sub i).errs err } (s.sub i).errs.closed,
        next tasks rest)
  | .close i tasks rest =>
    (s.setSub i (s.sub i).close ((s.sub i).updates.closed || (s.sub i).errs.closed),
      .go (.closed i tasks rest))

/-- A thing to do. -/
def perform (s : Shared) (r : Input) (tasks : List Task) (rest : Rest) :
    Task → Option (Shared × Next)
  | .resubscribe i =>
    match r.request with
    | none => some (s, next tasks rest)
    | some err => some (s, next (.sendErr i (.resubscribe (s.sub i).topicID err) :: tasks) rest)
  | .resubscribeTrade subs =>
    match r.request with
    | none => some ({ s with orderPush := true }, next tasks rest)
    | some err => some (s, next (subs.map (.sendErr · (.resubscribeTrade err)) ++ tasks) rest)
  | .close i =>
    match (s.sub i).closeOnce with
    | .unused =>
      some (s.setSub i { s.sub i with closeOnce := .running } false, .enter (.close i tasks rest))
    -- another call of the function is waited for
    | .running => none
    | .done => some (s, next tasks rest)
  -- `next` goes to the sections of these
  | .sendUpdate i e => some (s, .enter (.sendUpdate i e tasks rest))
  | .sendErr i err => some (s, .enter (.sendErr i err tasks rest))

/-- What a goroutine does first. -/
def Goroutine.work : Goroutine → Work
  | .run k => .running k
  | .watch k => .watching k
  | .forward k => .forwarding k

/-- The actions without a lock. -/
def work (s : Shared) (r : Input) : Work → Option (Shared × Next)
  | .reply a => some ({ s with replies := a :: s.replies }, .ret)
  | .dial k =>
    match r.push with
    | none => some (s, .enter (.started k))
    | some err => some (s, .go (.abort err))
  -- `cancel` is read without the lock
  | .abort err =>
    match s.cancel with
    | none => some (s, .go (.reply (.connect (some (.push err)))))
    | some k =>
      some ({ s with ended := k :: s.ended, aborted := k :: s.aborted },
        .go (.reply (.connect (some (.push err)))))
  | .spawn k =>
    some ({ s with
      runs := k :: s.runs, spawned := .run k :: .watch k :: .forward k :: s.spawned },
      .go (.reply (.connect none)))
  | .request topic securities type =>
    match r.request with
    | none => some (s, .enter (.register topic securities type))
    | some err => some (s, .go (.reply (.refused (.request err))))
  | .requestTrade =>
    match r.request with
    | none => some ({ s with orderPush := true }, .enter .registerTrade)
    | some err => some (s, .go (.reply (.refused (.request err))))
  | .unsubscribe i => some (s, next [.close i] (.cancelled r.request))
  | .unsubscribeTrade i =>
    match r.request with
    | none => some ({ s with orderPush := false }, next [.close i] (.cancelled none))
    | some err => some (s, next [.close i] (.cancelled (some err)))
  | .task t tasks rest => perform s r tasks rest t
  | .closed i tasks rest =>
    some (s.setSub i { s.sub i with closeOnce := .done } false, next tasks rest)
  | .shutdown caller =>
    match s.closeOnce with
    | .unused => some ({ s with closeOnce := .running }, .enter (.shutdown caller))
    | .running => none
    | .done => some (s, caller.next)
  | .endContext cancel subs caller =>
    some ({ s with ended := cancel.toList ++ s.ended }, .go (.closePush subs caller))
  | .closePush subs caller => some ({ s with pushClosed := true }, .go (.closeDone subs caller))
  | .closeDone subs caller =>
    some ({ s with done := true, panicked := s.panicked || s.done },
      next (subs.map .close) (.shutdown caller))
  | .shutdownDone caller => some ({ s with closeOnce := .done }, caller.next)
  | .waitGroup => if s.wg = 0 then some (s, .go (.reply .closed)) else none
  | .begin g =>
    if g ∈ s.spawned then some ({ s with spawned := s.spawned.erase g }, .go g.work) else none
  -- `push.Run` returns when its context ends or the push client is closed
  | .running k => if k ∈ s.ended ∨ s.pushClosed = true then some (s, .go .finish) else none
  | .watching k =>
    if k ∈ s.ended ∧ r.context = true then some (s, .go (.shutdown .watch))
    else if s.done then some (s, .go .finish)
    else none
  | .forwarding k =>
    match r.push with
    | some err =>
      if isVerificationError err then some (s, .enter (.broadcastError err k))
      else some (s, .go (.forwarding k))
    | none => if k ∈ s.ended ∨ s.pushClosed = true then some (s, .go .finish) else none
  | .finish => some ({ s with wg := s.wg - 1 }, .ret)
  | .expire k => some ({ s with ended := k :: s.ended }, .ret)

/-- The program of the threads. -/
def program : Program Shared Input Call Section Work Mutex where
  start a s := start s a
  mutex := Section.mutex
  body c r s := ((body s r c).1, .leave (body s r c).2)
  work k r s := work s r k
  mutex_stay _ _ _ _ h := nomatch h

/-- A client with its threads. -/
abbrev System : Type := State Shared Section Work Mutex ℕ

/-- A step of a run. -/
abbrev Action : Type := Threads.Event Input Call ℕ

/-- `New` -/
def init (hasClient trade : Bool) (buffer : ℕ) : System :=
  .init { hasClient := hasClient, trade := trade, buffer := buffer }

/-- One step. -/
def step (s : System) (a : Action) : Option System := program.step s a

/-! ## What an action can do -/

theorem Shared.mem_snapshot {s : Shared} {r : Input} {i : ℕ} : i ∈ s.snapshot r ↔ i ∈ s.subs := by
  rw [snapshot]
  split
  · exact List.Perm.mem_iff ‹_›
  · rfl

/-- How a call can begin. -/
inductive Begins (s : Shared) : Call → Next → Prop
  | connect : Begins s .connect (.enter .connect)
  | subscribeRefused {topic securities err} :
      Begins s (.subscribe topic securities) (.go (.reply (.refused err)))
  | subscribe {topic securities type} :
      Begins s (.subscribe topic securities) (.enter (.subscribe topic securities type))
  | subscribeTrade : Begins s .subscribeTrade (.enter .subscribeTrade)
  | tradeRefused : Begins s .subscribeTrade (.go (.reply (.refused .noClient)))
  | cancel {i} : i < s.count → Begins s (.cancel i) (.enter (.cancel i))
  | close : Begins s .close (.go (.shutdown .close))
  | deliverNothing : Begins s (.deliver none) .ret
  | deliver {n} : Begins s (.deliver (some n)) (.enter (.deliver n))
  | onReconnect {cause} : Begins s (.onReconnect cause) (.enter (.onReconnect cause))
  | goroutine {g} : Begins s (.goroutine g) (.go (.begin g))
  | expire {k} : Begins s (.expire k) (.go (.expire k))

theorem start_begins {s : Shared} {a : Call} {x : Next} (h : start s a = some x) :
    Begins s a x := by
  cases a with
  | subscribe | subscribeTrade =>
    simp only [start] at h
    split at h <;> cases h <;> constructor
  | cancel i =>
    obtain ⟨hi, heq⟩ := Option.ite_none_right_eq_some.mp h
    cases heq
    exact .cancel hi
  | deliver n => cases n <;> cases h <;> constructor
  | _ =>
    cases h
    constructor

/-- After its section `Cancel` makes a request, or it closes its subscription. -/
theorem Shared.afterCancel_cases (s : Shared) (i : ℕ) (lastTrade : Bool) :
    s.afterCancel i lastTrade = next [.close i] (.cancelled none) ∨
      s.afterCancel i lastTrade = .go (.unsubscribeTrade i) ∨
      s.afterCancel i lastTrade = .go (.unsubscribe i) := by
  rw [afterCancel]
  split
  · exact .inl rfl
  · split
    · split
      · exact .inr (.inl rfl)
      · exact .inl rfl
    · split
      · exact .inr (.inr rfl)
      · exact .inl rfl

/-- What the action of a section can do. -/
inductive Follows (s : Shared) : Section → Shared × Next → Prop
  | connectReturns {err} : Follows s .connect (s, .go (.reply (.connect err)))
  | connect : s.closed = false → s.started = false →
      Follows s .connect
        ({ s with contexts := s.contexts + 1, cancel := some s.contexts }, .go (.dial s.contexts))
  | startedClosed {k} : Follows s (.started k) (s, .go (.reply (.connect (some .closed))))
  | started {k} : s.closed = false →
      Follows s (.started k) ({ s with started := true, wg := s.wg + 3 }, .go (.spawn k))
  | subscribeClosed {topic securities type} :
      Follows s (.subscribe topic securities type) (s, .go (.reply (.refused .closed)))
  | subscribe {topic securities type} :
      Follows s (.subscribe topic securities type) (s, .go (.request topic securities type))
  | registerClosed {topic securities type} :
      Follows s (.register topic securities type) (s, .go (.reply (.refused .closed)))
  | register {topic securities type} : s.closed = false →
      Follows s (.register topic securities type)
        (s.add (.market topic securities type s.buffer), .go (.reply (.subscribed s.count)))
  | tradeClosed : s.closed = true →
      Follows s .subscribeTrade (s, .go (.reply (.refused .closed)))
  | tradeFirst : s.tradeSubs = 0 → Follows s .subscribeTrade (s, .go .requestTrade)
  | tradeNext : ¬ (s.tradeSubs = 0 ∧ s.trade = true) →
      Follows s .subscribeTrade (s, .enter .registerTrade)
  | registerTradeClosed : s.closed = true →
      Follows s .registerTrade (s, .go (.reply (.refused .closed)))
  | registerTrade : s.closed = false →
      Follows s .registerTrade
        ({ s.add (.orders s.buffer) with tradeSubs := s.tradeSubs + 1 },
          .go (.reply (.subscribed s.count)))
  | cancelLast {i} : i ∈ s.subs → (s.sub i).trade = true → s.tradeSubs - 1 ≤ 0 →
      Follows s (.cancel i) ({ s.delete i with tradeSubs := 0 }, s.afterCancel i true)
  | cancelTrade {i} : i ∈ s.subs → (s.sub i).trade = true → 0 < s.tradeSubs - 1 →
      Follows s (.cancel i)
        ({ s.delete i with tradeSubs := s.tradeSubs - 1 }, s.afterCancel i false)
  | cancel {i} : i ∈ s.subs → (s.sub i).trade = false →
      Follows s (.cancel i) (s.delete i, s.afterCancel i false)
  | cancelAgain {i} : i ∉ s.subs →
      Follows s (.cancel i) (s, next [.close i] (.cancelled none))
  | deliver {n} {subs : List ℕ} : (∀ i ∈ subs, i ∈ s.subs) →
      Follows s (.deliver n) (s, next (s.deliverTasks subs n) .ret)
  | reconnectClosed {cause} : Follows s (.onReconnect cause) (s, .ret)
  | reconnect {cause} {subs : List ℕ} : (∀ i ∈ subs, i ∈ s.subs) →
      Follows s (.onReconnect cause) (s, next (s.reconnectTasks subs cause) .ret)
  | broadcast {err k} {subs : List ℕ} : (∀ i ∈ subs, i ∈ s.subs) →
      Follows s (.broadcastError err k) (s, next (subs.map (.sendErr · (.push err))) (.forward k))
  | shutdown {caller subs} : (∀ i, i ∈ subs ↔ i ∈ s.subs) →
      Follows s (.shutdown caller)
        ({ s with closed := true, subs := [], tradeSubs := 0 },
          .go (.endContext s.cancel subs caller))
  | updateSkipped {i e tasks rest} :
      Follows s (.sendUpdate i e tasks rest) (s, next tasks rest)
  | sendUpdate {i e tasks rest} : (s.sub i).closed = false →
      Follows s (.sendUpdate i e tasks rest)
        (s.setSub i { s.sub i with updates := offer (s.sub i).updates e }
          (s.sub i).updates.closed, next tasks rest)
  | errSkipped {i err tasks rest} : Follows s (.sendErr i err tasks rest) (s, next tasks rest)
  | sendErr {i err tasks rest} : (s.sub i).closed = false →
      Follows s (.sendErr i err tasks rest)
        (s.setSub i { s.sub i with errs := offer (s.sub i).errs err } (s.sub i).errs.closed,
          next tasks rest)
  | close {i tasks rest} :
      Follows s (.close i tasks rest)
        (s.setSub i (s.sub i).close ((s.sub i).updates.closed || (s.sub i).errs.closed),
          .go (.closed i tasks rest))

theorem body_follows (s : Shared) (r : Input) (c : Section) : Follows s c (body s r c) := by
  cases c with
  | connect =>
    simp only [body]
    split
    · exact .connectReturns
    · split
      · exact .connectReturns
      · split
        · exact .connect (Bool.eq_false_of_not_eq_true ‹_›) (Bool.eq_false_of_not_eq_true ‹_›)
        · exact .connectReturns
  | started | subscribe | register | sendUpdate | sendErr =>
    simp only [body]
    split <;> constructor
    all_goals exact Bool.eq_false_of_not_eq_true ‹_›
  | subscribeTrade =>
    simp only [body]
    split
    · exact .tradeClosed ‹_›
    · split
      · rename_i hfirst
        exact .tradeFirst hfirst.1
      · exact .tradeNext ‹_›
  | registerTrade =>
    simp only [body]
    split
    · exact .registerTradeClosed ‹_›
    · exact .registerTrade (Bool.eq_false_of_not_eq_true ‹_›)
  | cancel i =>
    simp only [body]
    split
    · split
      · split
        · exact .cancelLast ‹_› ‹_› ‹_›
        · exact .cancelTrade ‹_› ‹_› (Int.not_le.mp ‹_›)
      · exact .cancel ‹_› (Bool.eq_false_of_not_eq_true ‹_›)
    · exact .cancelAgain ‹_›
  | deliver n => exact .deliver fun _ => Shared.mem_snapshot.mp
  | onReconnect cause =>
    simp only [body]
    split
    · exact .reconnectClosed
    · exact .reconnect fun _ => Shared.mem_snapshot.mp
  | broadcastError err k => exact .broadcast fun _ => Shared.mem_snapshot.mp
  | shutdown caller => exact .shutdown fun _ => Shared.mem_snapshot
  | close i tasks rest => exact .close

/-- What an action without a lock can do. -/
inductive Acts (s : Shared) (r : Input) : Work → Shared × Next → Prop
  | reply {a} : Acts s r (.reply a) ({ s with replies := a :: s.replies }, .ret)
  | dial {k} : Acts s r (.dial k) (s, .enter (.started k))
  | dialFailed {k err} : Acts s r (.dial k) (s, .go (.abort err))
  | abortNothing {err} : Acts s r (.abort err) (s, .go (.reply (.connect (some (.push err)))))
  | abort {err k} : s.cancel = some k →
      Acts s r (.abort err)
        ({ s with ended := k :: s.ended, aborted := k :: s.aborted },
          .go (.reply (.connect (some (.push err)))))
  | spawn {k} :
      Acts s r (.spawn k)
        ({ s with
          runs := k :: s.runs, spawned := .run k :: .watch k :: .forward k :: s.spawned },
          .go (.reply (.connect none)))
  | request {topic securities type} :
      Acts s r (.request topic securities type) (s, .enter (.register topic securities type))
  | requestRefused {topic securities type err} :
      Acts s r (.request topic securities type) (s, .go (.reply (.refused (.request err))))
  | requestTrade : r.request = none →
      Acts s r .requestTrade ({ s with orderPush := true }, .enter .registerTrade)
  | requestTradeRefused {err} : r.request = some err →
      Acts s r .requestTrade (s, .go (.reply (.refused (.request err))))
  | unsubscribe {i} : Acts s r (.unsubscribe i) (s, next [.close i] (.cancelled r.request))
  | unsubscribeTrade {i} : r.request = none →
      Acts s r (.unsubscribeTrade i)
        ({ s with orderPush := false }, next [.close i] (.cancelled none))
  | unsubscribeTradeRefused {i err} : r.request = some err →
      Acts s r (.unsubscribeTrade i) (s, next [.close i] (.cancelled (some err)))
  | resubscribe {i tasks rest} :
      Acts s r (.task (.resubscribe i) tasks rest) (s, next tasks rest)
  | resubscribeRefused {i tasks rest err} :
      Acts s r (.task (.resubscribe i) tasks rest)
        (s, next (.sendErr i (.resubscribe (s.sub i).topicID err) :: tasks) rest)
  | resubscribeTrade {subs tasks rest} :
      Acts s r (.task (.resubscribeTrade subs) tasks rest)
        ({ s with orderPush := true }, next tasks rest)
  | resubscribeTradeRefused {subs : List ℕ} {tasks rest err} :
      Acts s r (.task (.resubscribeTrade subs) tasks rest)
        (s, next (subs.map (.sendErr · (.resubscribeTrade err)) ++ tasks) rest)
  | close {i tasks rest} : (s.sub i).closeOnce = .unused →
      Acts s r (.task (.close i) tasks rest)
        (s.setSub i { s.sub i with closeOnce := .running } false, .enter (.close i tasks rest))
  | closeAgain {i tasks rest} : (s.sub i).closeOnce = .done →
      Acts s r (.task (.close i) tasks rest) (s, next tasks rest)
  | sendUpdate {i e tasks rest} :
      Acts s r (.task (.sendUpdate i e) tasks rest) (s, .enter (.sendUpdate i e tasks rest))
  | sendErr {i err tasks rest} :
      Acts s r (.task (.sendErr i err) tasks rest) (s, .enter (.sendErr i err tasks rest))
  | closed {i tasks rest} :
      Acts s r (.closed i tasks rest)
        (s.setSub i { s.sub i with closeOnce := .done } false, next tasks rest)
  | shutdown {caller} : s.closeOnce = .unused →
      Acts s r (.shutdown caller) ({ s with closeOnce := .running }, .enter (.shutdown caller))
  | shutdownAgain {caller} : s.closeOnce = .done →
      Acts s r (.shutdown caller) (s, caller.next)
  | endContext {cancel subs caller} :
      Acts s r (.endContext cancel subs caller)
        ({ s with ended := cancel.toList ++ s.ended }, .go (.closePush subs caller))
  | closePush {subs caller} :
      Acts s r (.closePush subs caller) ({ s with pushClosed := true }, .go (.closeDone subs caller))
  | closeDone {subs : List ℕ} {caller} :
      Acts s r (.closeDone subs caller)
        ({ s with done := true, panicked := s.panicked || s.done },
          next (subs.map .close) (.shutdown caller))
  | shutdownDone {caller} :
      Acts s r (.shutdownDone caller) ({ s with closeOnce := .done }, caller.next)
  | waitGroup : s.wg = 0 → Acts s r .waitGroup (s, .go (.reply .closed))
  | begin {g} : Acts s r (.begin g) ({ s with spawned := s.spawned.erase g }, .go g.work)
  | runs {k} : Acts s r (.running k) (s, .go .finish)
  | watchShutdown {k} : Acts s r (.watching k) (s, .go (.shutdown .watch))
  | watches {k} : Acts s r (.watching k) (s, .go .finish)
  | forward {k err} : Acts s r (.forwarding k) (s, .enter (.broadcastError err k))
  | forwardSkips {k} : Acts s r (.forwarding k) (s, .go (.forwarding k))
  | forwards {k} : Acts s r (.forwarding k) (s, .go .finish)
  | finish : Acts s r .finish ({ s with wg := s.wg - 1 }, .ret)
  | expire {k} : Acts s r (.expire k) ({ s with ended := k :: s.ended }, .ret)

theorem perform_acts {s : Shared} {r : Input} {tasks : List Task} {rest : Rest} {t : Task}
    {out : Shared × Next} (h : perform s r tasks rest t = some out) :
    Acts s r (.task t tasks rest) out := by
  cases t with
  | sendUpdate | sendErr =>
    cases h
    constructor
  | _ =>
    simp only [perform] at h
    split at h <;> cases h <;> constructor <;> assumption

theorem work_acts {s : Shared} {r : Input} {k : Work} {out : Shared × Next}
    (h : work s r k = some out) : Acts s r k out := by
  cases k with
  | task t tasks rest => exact perform_acts h
  | dial | abort | request | requestTrade | unsubscribeTrade | shutdown =>
    simp only [work] at h
    split at h <;> cases h <;> constructor <;> assumption
  | waitGroup | begin | running =>
    obtain ⟨hcan, heq⟩ := Option.ite_none_right_eq_some.mp h
    cases heq
    constructor <;> assumption
  | watching k =>
    simp only [work] at h
    split at h
    · cases h
      exact .watchShutdown
    · obtain ⟨-, heq⟩ := Option.ite_none_right_eq_some.mp h
      cases heq
      exact .watches
  | forwarding k =>
    simp only [work] at h
    split at h
    · split at h <;> cases h
      · exact .forward
      · exact .forwardSkips
    · obtain ⟨-, heq⟩ := Option.ite_none_right_eq_some.mp h
      cases heq
      exact .forwards
  | _ =>
    cases h
    constructor

end HstongApi.Stream
