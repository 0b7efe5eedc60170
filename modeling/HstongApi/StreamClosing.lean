import HstongApi.StreamRegistry

/-!
# The channels of a stream client

`registry_exact` says, for all calls of a client in any order and at any time:

* `tradeSubs` is the number of the subscriptions for orders that are registered.
* No channel is closed twice or sent on after it was closed. The function that closes a
  subscription runs once, so the thread that runs it finds the subscription open; and it has the
  mutex, so that nothing is sent meanwhile. The same is so for `shutdown` and the channel `done`.
  Who runs such a function is the holder of a token (`closeTokens`), and what it knows is not
  changed by the others (`closeOutline`).
* When all calls have returned, and a `Close` among them, all subscriptions are closed: one that is
  not registered any more is closed, or some thread has still to close it (`closeDebts`).
-/

namespace HstongApi.Stream

open Threads
open Function (update_self update_of_ne update forall_update_iff)

/-! ## What a thread has still to do -/

/-- `shutdown` goes on after the things to do. -/
def Rest.isShutdown : Rest → Bool
  | .shutdown _ => true
  | _ => false

/-- The thread has still to close the subscription. -/
def Owes : Next → ℕ → Prop
  | .enter (.sendUpdate _ _ tasks _), i | .enter (.sendErr _ _ tasks _), i
  | .go (.closed _ tasks _), i => .close i ∈ tasks
  | .enter (.close j tasks _), i => .close i ∈ Task.close j :: tasks
  | .go (.task t tasks _), i => .close i ∈ t :: tasks
  | .go (.unsubscribe j), i | .go (.unsubscribeTrade j), i => i = j
  | .go (.endContext _ subs _), i | .go (.closePush subs _), i | .go (.closeDone subs _), i => i ∈ subs
  | _, _ => False

/-- The subscription that the thread closes next. -/
def closes : Next → Option ℕ
  | .enter (.close i _ _) => some i
  | _ => none

/-- The subscription that the thread has just closed. -/
def hasClosed : Next → Option ℕ
  | .go (.closed i _ _) => some i
  | _ => none

/-- Another subscription that the thread has at hand. -/
def names : Next → Option ℕ
  | .enter (.cancel i) | .go (.reply (.subscribed i)) => some i
  | _ => none

/-- In the function of `shutdown`, before `done` is closed. -/
def beforeDone : Next → Bool
  | .enter (.shutdown _) | .go (.endContext ..) | .go (.closePush ..) | .go (.closeDone ..) => true
  | _ => false

/-- In the function of `shutdown`, after its section. -/
def tearing : Next → Bool
  | .go (.endContext ..) | .go (.closePush ..) | .go (.closeDone ..) | .go (.shutdownDone _) => true
  | .enter (.sendUpdate _ _ _ rest) | .enter (.sendErr _ _ _ rest) | .enter (.close _ _ rest)
  | .go (.task _ _ rest) | .go (.closed _ _ rest) => rest.isShutdown
  | _ => false

/-- `Close` is after `shutdown`. -/
def closeEnds : Next → Bool
  | .go .waitGroup | .go (.reply .closed) => true
  | _ => false

theorem owes_next (tasks : List Task) (rest : Rest) (i : ℕ) :
    Owes (next tasks rest) i ↔ .close i ∈ tasks := by
  cases tasks with
  | nil => cases rest <;> exact iff_of_false id List.not_mem_nil
  | cons t tasks => cases t <;> simp [next, Owes]

/-- What does not depend on the things to do. -/
structure Plain (x : Next) (shutdown : Bool) : Prop where
  closes : closes x = none
  hasClosed : hasClosed x = none
  names : names x = none
  beforeDone : beforeDone x = false
  tearing : tearing x = shutdown
  closeEnds : closeEnds x = false

theorem plain_next (tasks : List Task) (rest : Rest) : Plain (next tasks rest) rest.isShutdown := by
  cases tasks with
  | nil => cases rest <;> exact ⟨rfl, rfl, rfl, rfl, rfl, rfl⟩
  | cons t tasks => cases t <;> exact ⟨rfl, rfl, rfl, rfl, rfl, rfl⟩

/-! ## Subscriptions -/

/-- The flag of a subscription is that of its channels, and says how far its `close` has come. -/
structure Sub.Tidy (sub : Sub) : Prop where
  updates : sub.updates.closed = sub.closed
  errs : sub.errs.closed = sub.closed
  unused : sub.closeOnce = .unused → sub.closed = false
  finished : sub.closeOnce = .done → sub.closed = true

theorem offer_closed {α : Type} (c : Chan α) (x : α) : (offer c x).closed = c.closed := by
  rw [offer]
  split
  · rename_i c' hsent
    exact (Chan.trySend_eq_some hsent).2.2
  · split
    · rename_i y c' hrecv
      have hclosed : c'.closed = c.closed := (Chan.tryRecv_eq_some hrecv).2.2
      cases hsent : c'.trySend x with
      | none => exact hclosed
      | some c'' => exact ((Chan.trySend_eq_some hsent).2.2).trans hclosed
    · rfl

/-- What holds of the channels and of what the calls returned. -/
structure Closing (s : Shared) : Prop where
  running : s.panicked = false
  tidy : ∀ i, (s.sub i).Tidy
  fresh : ∀ i, s.count ≤ i → (s.sub i).closeOnce = .unused
  shut : s.closeOnce = .done → s.closed = true
  undone : s.closeOnce = .unused → s.done = false
  released : Reply.closed ∈ s.replies → s.closed = true
  returned : ∀ i, Reply.subscribed i ∈ s.replies → i < s.count

variable {s s' : Shared} {x : Next} {c : Section} {r : Input} {k : Work} {sub : Sub}

variable {i : ℕ} {panics : Bool}

/-- A subscription is changed without a panic. -/
theorem Closing.setSub (h : Closing s) (hpanics : panics = false) (htidy : sub.Tidy)
    (honce : i < s.count ∨ sub.closeOnce = (s.sub i).closeOnce) :
    Closing (s.setSub i sub panics) where
  running := by rw [Shared.setSub, h.running, hpanics]; rfl
  tidy := (forall_update_iff s.sub fun _ => Sub.Tidy).mpr ⟨htidy, fun j _ => h.tidy j⟩
  fresh := by
    refine (forall_update_iff s.sub fun j sub => s.count ≤ j → sub.closeOnce = .unused).mpr
      ⟨fun hcount => ?_, fun j _ => h.fresh j⟩
    exact (honce.resolve_left (Nat.not_lt.mpr hcount)).trans (h.fresh i hcount)
  shut := h.shut
  undone := h.undone
  released := h.released
  returned := h.returned

theorem Closing.add (h : Closing s) (htidy : sub.Tidy) (n : ℤ) :
    Closing { s.add sub with tradeSubs := n } where
  running := h.running
  tidy := (forall_update_iff s.sub fun _ => Sub.Tidy).mpr ⟨htidy, fun i _ => h.tidy i⟩
  fresh i hcount := by
    show (update s.sub s.count sub i).closeOnce = .unused
    rw [update_of_ne (Nat.ne_of_gt hcount)]
    exact h.fresh i (Nat.le_of_succ_le hcount)
  shut := h.shut
  undone := h.undone
  released := h.released
  returned i hi := Nat.lt_succ_of_lt (h.returned i hi)

/-! ## What the threads know -/

/-- What a thread knows about the channels. -/
structure KnowsClosing (s : Shared) (x : Next) : Prop where
  owed : ∀ i, Owes x i → i < s.count
  named : ∀ i, names x = some i ∨ hasClosed x = some i → i < s.count
  before : ∀ i, closes x = some i → (s.sub i).closed = false
  after : ∀ i, hasClosed x = some i → (s.sub i).closed = true
  undone : beforeDone x = true → s.done = false
  shut : tearing x = true ∨ closeEnds x = true → s.closed = true

/-- What a thread knows that is not at closing anything. -/
theorem Plain.knows {shutdown : Bool} (h : Plain x shutdown) (howed : ∀ i, Owes x i → i < s.count)
    (hshutdown : shutdown = true → s.closed = true) : KnowsClosing s x where
  owed := howed
  named i hi := by
    rw [h.names, h.hasClosed] at hi
    exact nomatch hi
  before i hi := nomatch h.closes.symm.trans hi
  after i hi := nomatch h.hasClosed.symm.trans hi
  undone hdone := nomatch h.beforeDone.symm.trans hdone
  shut hx := by
    rw [h.tearing, h.closeEnds] at hx
    exact hshutdown (hx.resolve_right Bool.false_ne_true)

theorem knowsClosing_next {tasks : List Task} {rest : Rest}
    (howed : ∀ i, Task.close i ∈ tasks → i < s.count)
    (hrest : rest.isShutdown = true → s.closed = true) : KnowsClosing s (next tasks rest) :=
  (plain_next tasks rest).knows (fun i hi => howed i ((owes_next tasks rest i).mp hi)) hrest

/-- The things to do of a call that closes nothing. -/
theorem knowsClosing_sends {tasks : List Task} {rest : Rest} (htasks : ∀ i, Task.close i ∉ tasks)
    (hrest : rest.isShutdown = false) : KnowsClosing s (next tasks rest) :=
  knowsClosing_next (fun i hi => absurd hi (htasks i)) fun h => nomatch hrest.symm.trans h

theorem knowsClosing_close (hi : i < s.count) (err : Option GoError) :
    KnowsClosing s (next [.close i] (.cancelled err)) := by
  refine knowsClosing_next (fun j hj => ?_) nofun
  cases List.mem_singleton.mp hj
  exact hi

theorem plain_afterCancel (s : Shared) (i : ℕ) (lastTrade : Bool) :
    Plain (s.afterCancel i lastTrade) false := by
  rcases s.afterCancel_cases i lastTrade with h | h | h <;> rw [h]
  · exact plain_next _ _
  · exact ⟨rfl, rfl, rfl, rfl, rfl, rfl⟩
  · exact ⟨rfl, rfl, rfl, rfl, rfl, rfl⟩

/-- After its section `Cancel` has to close its subscription. -/
theorem owes_afterCancel (s : Shared) (i : ℕ) (lastTrade : Bool) (j : ℕ) :
    Owes (s.afterCancel i lastTrade) j ↔ j = i := by
  rcases s.afterCancel_cases i lastTrade with h | h | h <;> rw [h]
  · rw [owes_next, List.mem_singleton, Task.close.injEq]
  · rfl
  · rfl

theorem close_notMem_deliverTasks (s : Shared) (subs : List ℕ) (n : PushEvents.Notification) (i : ℕ) :
    Task.close i ∉ s.deliverTasks subs n := by
  simp [Shared.deliverTasks]

theorem close_notMem_reconnectTasks (s : Shared) (subs : List ℕ)
    (cause : Option PushVerify.ClientError) (i : ℕ) :
    Task.close i ∉ s.reconnectTasks subs cause := by
  rw [Shared.reconnectTasks]
  split <;> simp

theorem close_notMem_sendErr (subs : List ℕ) (err : StreamError) (i : ℕ) :
    Task.close i ∉ subs.map (Task.sendErr · err) := by
  simp

/-- A thread that goes on with something else knows nothing. -/
theorem knowsClosing_plain (h : Plain x false) (howes : ∀ i, ¬ Owes x i) : KnowsClosing s x :=
  h.knows (fun i hi => absurd hi (howes i)) nofun

theorem knowsClosing_subscribed (hi : i < s.count) :
    KnowsClosing s (.go (.reply (.subscribed i))) := by
  refine ⟨nofun, fun j hj => ?_, nofun, nofun, nofun, nofun⟩
  exact Option.some.inj (hj.resolve_right nofun) ▸ hi

/-- A section keeps the channels in order. The thread that closes a subscription is the one that
runs the function for it. -/
theorem Follows.knowsClosing (h : Follows s c (s', x)) (hregistry : Registry s) (hs : Closing s)
    (hc : KnowsClosing s (.enter c))
    (hrunning : ∀ i, closes (.enter c) = some i → (s.sub i).closeOnce = .running) :
    Closing s' ∧ KnowsClosing s' x := by
  cases h with
  | connect | started =>
    exact ⟨{ hs with }, knowsClosing_plain ⟨rfl, rfl, rfl, rfl, rfl, rfl⟩ fun _ => id⟩
  | register =>
    refine ⟨hs.add ?_ s.tradeSubs, knowsClosing_subscribed (Nat.lt_succ_self _)⟩
    exact ⟨rfl, rfl, fun _ => rfl, nofun⟩
  | registerTrade =>
    refine ⟨hs.add ?_ _, knowsClosing_subscribed (Nat.lt_succ_self _)⟩
    exact ⟨rfl, rfl, fun _ => rfl, nofun⟩
  | @cancelLast i | @cancelTrade i | @cancel i =>
    refine ⟨{ hs with }, ?_⟩
    refine (plain_afterCancel s i _).knows (fun j hj => ?_) nofun
    obtain rfl := (owes_afterCancel s i _ j).mp hj
    exact hc.named j (.inl rfl)
  | @cancelAgain i => exact ⟨hs, knowsClosing_close (hc.named i (.inl rfl)) none⟩
  | deliver => exact ⟨hs, knowsClosing_sends (close_notMem_deliverTasks s _ _) rfl⟩
  | reconnect => exact ⟨hs, knowsClosing_sends (close_notMem_reconnectTasks s _ _) rfl⟩
  | broadcast => exact ⟨hs, knowsClosing_sends (close_notMem_sendErr _ _) rfl⟩
  | shutdown hsubs =>
    refine ⟨{ hs with shut := fun _ => rfl, released := fun _ => rfl },
      fun i hi => hregistry.made i ((hsubs i).mp hi), nofun, nofun, nofun,
      fun _ => hc.undone rfl, fun _ => rfl⟩
  | updateSkipped | errSkipped =>
    exact ⟨hs, knowsClosing_next hc.owed fun hrest => hc.shut (.inl hrest)⟩
  | @sendUpdate i e tasks rest hopen =>
    have htidy := hs.tidy i
    refine ⟨hs.setSub (htidy.updates.trans hopen) ?_ (.inr rfl),
      knowsClosing_next hc.owed fun hrest => hc.shut (.inl hrest)⟩
    exact { htidy with updates := (offer_closed _ e).trans htidy.updates }
  | @sendErr i err tasks rest hopen =>
    have htidy := hs.tidy i
    refine ⟨hs.setSub (htidy.errs.trans hopen) ?_ (.inr rfl),
      knowsClosing_next hc.owed fun hrest => hc.shut (.inl hrest)⟩
    exact { htidy with errs := (offer_closed _ err).trans htidy.errs }
  | @close i tasks rest =>
    have htidy := hs.tidy i
    have hopen : (s.sub i).closed = false := hc.before i rfl
    have hpanics : ((s.sub i).updates.closed || (s.sub i).errs.closed) = false := by
      rw [htidy.updates, htidy.errs, hopen]
      rfl
    have hi : i < s.count := hc.owed i List.mem_cons_self
    refine ⟨hs.setSub hpanics ⟨rfl, rfl, fun hunused => ?_, fun _ => rfl⟩ (.inr rfl), ?_⟩
    · exact nomatch (hrunning i rfl).symm.trans hunused
    · refine ⟨fun j hj => hc.owed j (List.mem_cons_of_mem _ hj), fun j hj => ?_, nofun, fun j hj => ?_,
        nofun, fun htearing => hc.shut ?_⟩
      · exact Option.some.inj (hj.resolve_left nofun) ▸ hi
      · cases hj
        rw [Shared.setSub_self]
        rfl
      · exact .inl (htearing.resolve_right Bool.false_ne_true)
  | _ => exact ⟨hs, knowsClosing_plain ⟨rfl, rfl, rfl, rfl, rfl, rfl⟩ fun _ => id⟩

/-- After `shutdown` the client is closed. -/
theorem knowsClosing_caller (hclosed : s.closed = true) (caller : Caller) :
    KnowsClosing s caller.next := by
  cases caller with
  | close => exact ⟨nofun, nofun, nofun, nofun, nofun, fun _ => hclosed⟩
  | watch => exact knowsClosing_plain ⟨rfl, rfl, rfl, rfl, rfl, rfl⟩ fun _ => id

/-- So do the actions without a lock. The thread that closes `done` is the one that runs the
function of `shutdown`. -/
theorem Acts.knowsClosing (h : Acts s r k (s', x)) (hs : Closing s) (hk : KnowsClosing s (.go k))
    (hrunning : beforeDone (.go k) = true → s.closeOnce = .running) :
    Closing s' ∧ KnowsClosing s' x := by
  cases h with
  | @reply a =>
    refine ⟨{ hs with released := fun hmem => ?_, returned := fun i hmem => ?_ },
      knowsClosing_plain ⟨rfl, rfl, rfl, rfl, rfl, rfl⟩ fun _ => id⟩
    · rcases List.mem_cons.mp hmem with rfl | hmem
      · exact hk.shut (.inr rfl)
      · exact hs.released hmem
    · rcases List.mem_cons.mp hmem with rfl | hmem
      · exact hk.named i (.inl rfl)
      · exact hs.returned i hmem
  | @begin g =>
    exact ⟨{ hs with }, by cases g <;> exact knowsClosing_plain ⟨rfl, rfl, rfl, rfl, rfl, rfl⟩ fun _ => id⟩
  | @unsubscribe i | @unsubscribeTrade i | @unsubscribeTradeRefused i =>
    refine ⟨{ hs with }, knowsClosing_close ?_ _⟩
    exact hk.owed i rfl
  | resubscribe | resubscribeTrade | closeAgain =>
    exact ⟨{ hs with }, knowsClosing_next (fun i hi => hk.owed i (List.mem_cons_of_mem _ hi))
      fun hrest => hk.shut (.inl hrest)⟩
  | resubscribeRefused =>
    refine ⟨hs, knowsClosing_next (fun i hi => ?_) fun hrest => hk.shut (.inl hrest)⟩
    exact hk.owed i (List.mem_cons_of_mem _ ((List.mem_cons.mp hi).resolve_left nofun))
  | resubscribeTradeRefused =>
    refine ⟨hs, knowsClosing_next (fun i hi => ?_) fun hrest => hk.shut (.inl hrest)⟩
    rcases List.mem_append.mp hi with hi | hi
    · exact absurd hi (close_notMem_sendErr _ _ i)
    · exact hk.owed i (List.mem_cons_of_mem _ hi)
  | @close i tasks rest hunused =>
    have htidy := hs.tidy i
    have hopen : (s.sub i).closed = false := htidy.unused hunused
    refine ⟨hs.setSub rfl ⟨htidy.updates, htidy.errs, nofun, nofun⟩
      (.inl (hk.owed i List.mem_cons_self)), hk.owed, nofun, fun j hj => ?_, nofun, nofun, fun h => ?_⟩
    · cases hj
      rw [Shared.setSub_self]
      exact hopen
    · exact hk.shut (.inl (h.resolve_right Bool.false_ne_true))
  | sendUpdate | sendErr =>
    refine ⟨hs, fun i hi => hk.owed i (List.mem_cons_of_mem _ hi), nofun, nofun, nofun, nofun, fun h => ?_⟩
    exact hk.shut (.inl (h.resolve_right Bool.false_ne_true))
  | @closed i tasks rest =>
    have htidy := hs.tidy i
    refine ⟨hs.setSub rfl ⟨htidy.updates, htidy.errs, nofun, fun _ => hk.after i rfl⟩
      (.inl (hk.named i (.inr rfl))), knowsClosing_next hk.owed fun hrest => hk.shut (.inl hrest)⟩
  | shutdown hunused =>
    exact ⟨{ hs with shut := nofun, undone := nofun }, nofun, nofun, nofun,
      nofun, fun _ => hs.undone hunused, nofun⟩
  | shutdownAgain hdone => exact ⟨hs, knowsClosing_caller (hs.shut hdone) _⟩
  | endContext | closePush =>
    exact ⟨{ hs with }, hk.owed, nofun, nofun, nofun, fun _ => hk.undone rfl, fun _ => hk.shut (.inl rfl)⟩
  | @closeDone subs caller =>
    refine ⟨{ hs with running := ?_, undone := fun hunused => ?_ },
      knowsClosing_next (fun i hi => ?_) fun _ => hk.shut (.inl rfl)⟩
    · rw [hs.running, hk.undone rfl]
      rfl
    · exact nomatch (hrunning rfl).symm.trans hunused
    · obtain ⟨j, hj, heq⟩ := List.mem_map.mp hi
      obtain rfl := Task.close.inj heq
      exact hk.owed j hj
  | @shutdownDone caller =>
    have hclosed : s.closed = true := hk.shut (.inl rfl)
    refine ⟨{ hs with shut := fun _ => hclosed, undone := nofun }, knowsClosing_caller ?_ caller⟩
    exact hclosed
  | waitGroup =>
    exact ⟨hs, nofun, nofun, nofun, nofun, nofun, fun _ => hk.shut (.inr rfl)⟩
  | _ => exact ⟨{ hs with }, knowsClosing_plain ⟨rfl, rfl, rfl, rfl, rfl, rfl⟩ fun _ => id⟩

/-! ## Functions that run once -/

/-- The thread runs the function of `shutdown`, or the one that closes a subscription. -/
def Holds (x : Next) : Option ℕ → Prop
  | none => tearing x = true ∨ beforeDone x = true
  | some i => closes x = some i ∨ hasClosed x = some i

/-- No thread runs it. -/
def Idle (s : Shared) : Option ℕ → Prop
  | none => s.closeOnce ≠ .running
  | some i => (s.sub i).closeOnce ≠ .running

theorem Plain.holds {shutdown : Bool} (h : Plain x shutdown) {i : Option ℕ} (hx : Holds x i) :
    i = none ∧ shutdown = true := by
  cases i with
  | none =>
    rw [Holds, h.tearing, h.beforeDone] at hx
    exact ⟨rfl, hx.resolve_right Bool.false_ne_true⟩
  | some i =>
    rw [Holds, h.closes, h.hasClosed] at hx
    exact nomatch hx

theorem Plain.not_holds (h : Plain x false) {i : Option ℕ} (hx : Holds x i) : False :=
  nomatch (h.holds hx).2

theorem idle_setSub (honce : sub.closeOnce = (s.sub i).closeOnce) (j : Option ℕ) :
    Idle (s.setSub i sub panics) j ↔ Idle s j := by
  cases j with
  | none => rfl
  | some j => rw [Idle, Idle, Shared.setSub_congr Sub.closeOnce honce]

theorem Closing.idle_add (h : Closing s) {n : ℤ} (honce : sub.closeOnce = .unused) (j : Option ℕ) :
    Idle { s.add sub with tradeSubs := n } j ↔ Idle s j := by
  cases j with
  | none => rfl
  | some j =>
    show (update s.sub s.count sub j).closeOnce ≠ .running ↔ _
    by_cases hj : j = s.count
    · rw [Idle, hj, update_self, honce, h.fresh _ (Nat.le_refl _)]
    · rw [Idle, update_of_ne hj]

/-- A section begins and ends none of these functions. -/
theorem Follows.once (h : Follows s c (s', x)) (hs : Closing s) (j : Option ℕ) :
    Idle s' j ↔ Idle s j := by
  cases h with
  | register => exact hs.idle_add (n := s.tradeSubs) rfl j
  | registerTrade => exact hs.idle_add rfl j
  | sendUpdate | sendErr | close =>
    refine idle_setSub ?_ j
    rfl
  | _ => cases j <;> rfl

variable {j : Option ℕ}

/-- After a section the thread runs what it ran before. -/
theorem Follows.holds (h : Follows s c (s', x)) (hx : Holds x j) : Holds (.enter c) j := by
  cases h with
  | register | registerTrade => cases j <;> exact hx
  | @cancelLast i | @cancelTrade i | @cancel i => exact ((plain_afterCancel s i _).not_holds hx).elim
  | cancelAgain | deliver | reconnect | broadcast => exact ((plain_next _ _).not_holds hx).elim
  | shutdown =>
    cases j with
    | none => exact .inr rfl
    | some j => exact nomatch hx
  | updateSkipped | errSkipped | sendUpdate | sendErr =>
    obtain ⟨rfl, hrest⟩ := (plain_next _ _).holds hx
    exact .inl hrest
  | close =>
    cases j with
    | none => exact hx
    | some j => exact .inl (hx.resolve_left nofun)
  | _ => exact (Plain.not_holds ⟨rfl, rfl, rfl, rfl, rfl, rfl⟩ hx).elim

theorem not_holds_caller (caller : Caller) (j : Option ℕ) : ¬ Holds caller.next j := by
  cases caller <;> cases j <;> exact nofun

/-- A function is begun when it was not, and then by the thread that runs it. -/
theorem Acts.takes (h : Acts s r k (s', x)) (hx : Holds x j)
    (hheld : Holds (.go k) j → ¬ Idle s j) : ¬ Idle s' j ∧ (Holds (.go k) j ∨ Idle s j) := by
  cases h with
  | @begin g => cases g <;> cases j <;> exact nomatch hx
  | unsubscribe | unsubscribeTrade | unsubscribeTradeRefused =>
    exact ((plain_next _ _).not_holds hx).elim
  | shutdownAgain | shutdownDone => exact absurd hx (not_holds_caller _ j)
  | resubscribe | resubscribeRefused | resubscribeTrade | resubscribeTradeRefused | closeAgain
  | closed =>
    obtain ⟨rfl, hrest⟩ := (plain_next _ _).holds hx
    exact ⟨hheld (.inl hrest), .inl (.inl hrest)⟩
  | sendUpdate | sendErr =>
    cases j with
    | none => exact ⟨hheld hx, .inl hx⟩
    | some j => exact nomatch hx
  | closeDone =>
    obtain ⟨rfl, -⟩ := (plain_next _ _).holds hx
    exact ⟨hheld (.inl rfl), .inl (.inl rfl)⟩
  | endContext | closePush =>
    cases j with
    | none => exact ⟨hheld (.inl rfl), .inl (.inl rfl)⟩
    | some j => exact nomatch hx
  | shutdown hunused =>
    cases j with
    | none => exact ⟨fun hidle => hidle rfl, .inr (by rw [Idle, hunused]; exact nofun)⟩
    | some j => exact nomatch hx
  | @close i tasks rest hunused =>
    cases j with
    | none => exact ⟨hheld hx, .inl hx⟩
    | some j =>
      cases hx.resolve_right nofun
      refine ⟨fun hidle => hidle ?_, .inr ?_⟩
      · rw [Shared.setSub_self]
      · rw [Idle, hunused]
        exact nofun
  | _ =>
    cases j <;> exact nomatch hx

/-- A function is ended by the thread that runs it. -/
theorem Acts.gives (h : Acts s r k (s', x)) (hidle : Idle s' j) : Idle s j ∨ Holds (.go k) j := by
  cases h with
  | shutdown =>
    cases j with
    | none => exact absurd rfl hidle
    | some j => exact .inl hidle
  | shutdownDone =>
    cases j with
    | none => exact .inr (.inl rfl)
    | some j => exact .inl hidle
  | @close i tasks rest hunused =>
    cases j with
    | none => exact .inl hidle
    | some j =>
      by_cases hj : j = i
      · rw [Idle, hj, Shared.setSub_self] at hidle
        exact absurd rfl hidle
      · rw [Idle, Shared.setSub_of_ne s hj] at hidle
        exact .inl hidle
  | @closed i tasks rest =>
    cases j with
    | none => exact .inl hidle
    | some j =>
      by_cases hj : j = i
      · exact .inr (.inr (hj ▸ rfl))
      · rw [Idle, Shared.setSub_of_ne s hj] at hidle
        exact .inl hidle
  | _ => cases j <;> exact .inl hidle

/-- A call begins with something else, or it is a `Cancel`. -/
theorem start_plain {a : Call} (h : start s a = some x) :
    (Plain x false ∧ ∀ i, ¬ Owes x i) ∨ ∃ i < s.count, x = .enter (.cancel i) := by
  cases start_begins h with
  | @cancel i hi => exact .inr ⟨i, hi, rfl⟩
  | _ => exact .inl ⟨⟨rfl, rfl, rfl, rfl, rfl, rfl⟩, fun _ => id⟩

/-- Each of these functions is run by at most one thread, and only after it was begun. -/
theorem closeTokens : Tokens (τ := ℕ) program (fun s _ => Closing s.shared) Idle Holds where
  start {s t a x j} _ hx := by
    rcases start_plain hx with ⟨hplain, -⟩ | ⟨i, -, rfl⟩
    · exact hplain.not_holds
    · cases j <;> exact nofun
  body_take {s t r c j} hheld hs ht hx := by
    have hfollows := body_follows s.shared r c
    have hbefore : Holds (.enter c) j := hfollows.holds hx
    exact ⟨fun hidle => hheld.not_free j ht hbefore ((hfollows.once hs j).mp hidle), .inl hbefore⟩
  body_give {s t r c j} hs _ hidle := .inl (((body_follows s.shared r c).once hs j).mp hidle)
  work_take {s t r k shared x j} hheld _ ht hk hx :=
    (work_acts hk).takes hx fun hbefore => hheld.not_free j ht hbefore
  work_give _ _ hk hidle := (work_acts hk).gives hidle

/-- Who runs which function. -/
abbrev CloseHeld (s : System) : Prop := Held Idle Holds s

/-- What holds of the shared state. -/
structure Kept (s : Shared) : Prop where
  registry : Registry s
  closing : Closing s

/-! ## Non-interference -/

theorem owes_of_closes (h : closes x = some i) : Owes x i := by
  unfold closes at h
  split at h <;> cases h
  exact List.mem_cons_self

/-- What a thread knows stays so, if no other thread does what it is doing. -/
theorem KnowsClosing.mono (h : KnowsClosing s x) (hcount : s.count ≤ s'.count)
    (hclosed : s.closed = true → s'.closed = true) (hdone : beforeDone x = true → s'.done = s.done)
    (hsub : ∀ i < s.count, closes x = some i ∨ hasClosed x = some i →
      (s'.sub i).closed = (s.sub i).closed) :
    KnowsClosing s' x where
  owed i hi := Nat.lt_of_lt_of_le (h.owed i hi) hcount
  named i hi := Nat.lt_of_lt_of_le (h.named i hi) hcount
  before i hi := by
    rw [hsub i (h.owed i (owes_of_closes hi)) (.inl hi)]
    exact h.before i hi
  after i hi := by
    rw [hsub i (h.named i (.inr hi)) (.inr hi)]
    exact h.after i hi
  undone hx := by
    rw [hdone hx]
    exact h.undone hx
  shut hx := hclosed (h.shut hx)

/-- What the sections do to the channels that they do not close. -/
theorem Follows.channels (h : Follows s c (s', x)) :
    s.count ≤ s'.count ∧ (s.closed = true → s'.closed = true) ∧ s'.done = s.done ∧
      ∀ i < s.count, closes (.enter c) ≠ some i → (s'.sub i).closed = (s.sub i).closed := by
  cases h with
  | register | registerTrade =>
    refine ⟨Nat.le_succ _, id, rfl, fun i hi _ => ?_⟩
    show (update s.sub s.count _ i).closed = _
    rw [update_of_ne hi.ne]
  | sendUpdate | sendErr =>
    refine ⟨Nat.le_refl _, id, rfl, fun i _ _ => Shared.setSub_congr Sub.closed ?_ i⟩
    rfl
  | close =>
    refine ⟨Nat.le_refl _, id, rfl, fun i _ hne => ?_⟩
    rw [Shared.setSub_of_ne s fun hi => hne (congrArg some hi.symm)]
  | shutdown => exact ⟨Nat.le_refl _, fun _ => rfl, rfl, fun _ _ _ => rfl⟩
  | _ => exact ⟨Nat.le_refl _, id, rfl, fun _ _ _ => rfl⟩

/-- The actions without a lock close no subscription. -/
theorem Acts.channels (h : Acts s r k (s', x)) :
    s'.count = s.count ∧ s'.closed = s.closed ∧ s'.subs = s.subs ∧
      (beforeDone (.go k) = false → s'.done = s.done) ∧
      ∀ i, (s'.sub i).closed = (s.sub i).closed := by
  cases h with
  | close | closed =>
    refine ⟨rfl, rfl, rfl, fun _ => rfl, Shared.setSub_congr Sub.closed ?_⟩
    rfl
  | closeDone => exact ⟨rfl, rfl, rfl, nofun, fun _ => rfl⟩
  | _ => exact ⟨rfl, rfl, rfl, fun _ => rfl, fun _ => rfl⟩

/-- What the threads know about the channels. -/
theorem closeOutline : NextOutline (τ := ℕ) program (fun s _ => CloseHeld s) Kept KnowsClosing := by
  refine .of_acts (fun {s t a x} _ _ hx => ?_) (fun {s t r c} hs hheld ht hknows => ?_)
    fun {s t r k shared x} hs hheld ht hk hknows => ?_
  · rcases start_plain hx with ⟨hplain, howes⟩ | ⟨i, hi, rfl⟩
    · exact knowsClosing_plain hplain howes
    · refine ⟨nofun, fun j hj => ?_, nofun, nofun, nofun, nofun⟩
      exact Option.some.inj (hj.resolve_right nofun) ▸ hi
  · have hfollows := body_follows s.shared r c
    have hrunning : ∀ i, closes (.enter c) = some i → (s.shared.sub i).closeOnce = .running :=
      fun i hi => Decidable.not_not.mp (hheld.not_free (some i) ht (.inl hi))
    obtain ⟨hclosing, hx⟩ := hfollows.knowsClosing hs.inv.registry hs.inv.closing hknows hrunning
    refine ⟨⟨hfollows.registry hs.inv.registry, hclosing⟩, hx, fun t' hne hother => ?_⟩
    obtain ⟨hcount, hclosed, hdone, hsub⟩ := hfollows.channels
    refine hother.mono hcount hclosed (fun _ => hdone) fun i hi hx => hsub i hi fun hc => ?_
    -- two threads that close one subscription are one thread
    exact hne ((hheld (some i)).2 t' t hx (by rw [ht]; exact .inl hc))
  · have hacts := work_acts hk
    have hrunning : beforeDone (.go k) = true → s.shared.closeOnce = .running :=
      fun hdone => Decidable.not_not.mp (hheld.not_free none ht (.inr hdone))
    obtain ⟨hclosing, hx⟩ := hacts.knowsClosing hs.inv.closing hknows hrunning
    refine ⟨⟨hacts.registry hs.inv.registry, hclosing⟩, hx, fun t' hne hother => ?_⟩
    obtain ⟨hcount, hclosed, -, hdone, hsub⟩ := hacts.channels
    refine hother.mono hcount.ge (fun h => hclosed.trans h) (fun hbefore => hdone ?_)
      fun i _ _ => hsub i
    refine Bool.eq_false_of_not_eq_true fun hk => ?_
    exact hne ((hheld none).2 t' t (.inr hbefore) (by rw [ht]; exact .inr hk))

/-! ## Nothing is left open -/

/-- The subscription is registered or closed, or was not made. -/
def Settled (s : Shared) (i : ℕ) : Prop :=
  s.count ≤ i ∨ i ∈ s.subs ∨ (s.sub i).closed = true

/-- A subscription that is made is registered. -/
theorem Settled.add (h : Settled s i) {n : ℤ} : Settled { s.add sub with tradeSubs := n } i := by
  by_cases hi : i = s.count
  · exact .inr (.inl (hi ▸ List.mem_cons_self))
  · rcases h with hcount | hmem | hclosed
    · exact .inl (Nat.lt_of_le_of_ne hcount (Ne.symm hi))
    · exact .inr (.inl (List.mem_cons_of_mem _ hmem))
    · refine .inr (.inr ?_)
      show (update s.sub s.count sub i).closed = true
      rw [update_of_ne hi]
      exact hclosed

/-- A subscription that is deleted is closed by the thread that deletes it. -/
theorem Settled.delete {j : ℕ} (h : Settled s i) {lastTrade : Bool} {n : ℤ} :
    Settled { s.delete j with tradeSubs := n } i ∨ Owes (s.afterCancel j lastTrade) i := by
  by_cases hij : i = j
  · exact .inr ((owes_afterCancel s j lastTrade i).mpr hij)
  · refine .inl (h.imp_right (Or.imp_left fun hmem => ?_))
    exact List.mem_filter.mpr ⟨hmem, bne_iff_ne.mpr hij⟩

/-- No subscription is opened again. -/
theorem Settled.setSub {j : ℕ} (h : Settled s i)
    (hsub : (s.sub j).closed = true → sub.closed = true) : Settled (s.setSub j sub panics) i := by
  refine h.imp_right (Or.imp_right fun hclosed => ?_)
  by_cases hij : i = j
  · rw [hij, Shared.setSub_self]
    exact hsub (hij ▸ hclosed)
  · rw [Shared.setSub_of_ne s hij]
    exact hclosed

/-- A subscription that is not registered any more is closed, or a thread has still to close it. -/
theorem Follows.settles (h : Follows s c (s', x)) (hi : Settled s i ∨ Owes (.enter c) i) :
    Settled s' i ∨ Owes x i := by
  cases h with
  | register => exact .inl (Settled.add (n := s.tradeSubs) (hi.resolve_right id))
  | registerTrade => exact .inl (Settled.add (hi.resolve_right id))
  | cancelLast | cancelTrade => exact Settled.delete (hi.resolve_right id)
  | cancel => exact Settled.delete (n := s.tradeSubs) (hi.resolve_right id)
  | shutdown hsubs =>
    rcases hi.resolve_right id with hcount | hmem | hclosed
    · exact .inl (.inl hcount)
    · exact .inr ((hsubs i).mpr hmem)
    · exact .inl (.inr (.inr hclosed))
  | updateSkipped | errSkipped => exact hi.imp_right (owes_next _ _ i).mpr
  | sendUpdate | sendErr =>
    refine hi.imp (fun hi => hi.setSub fun hclosed => ?_) (owes_next _ _ i).mpr
    exact hclosed
  | @close j tasks rest =>
    rcases hi with hi | hi
    · exact .inl (hi.setSub fun _ => rfl)
    · rcases List.mem_cons.mp hi with hj | htasks
      · refine .inl (.inr (.inr ?_))
        rw [Task.close.inj hj, Shared.setSub_self]
        rfl
      · exact .inr htasks
  | _ => exact .inl (hi.resolve_right id)

/-- The actions without a lock pass on what is to be closed. -/
theorem Acts.settles (h : Acts s r k (s', x)) (hs : Closing s) (hi : Settled s i ∨ Owes (.go k) i) :
    Settled s' i ∨ Owes x i := by
  have hsettled : Settled s i → Settled s' i := by
    obtain ⟨hcount, -, hsubs, -, hsub⟩ := h.channels
    rw [Settled, Settled, hcount, hsubs, hsub]
    exact id
  refine hi.elim (fun hi => .inl (hsettled hi)) fun hk => ?_
  cases h with
  | unsubscribe | unsubscribeTrade | unsubscribeTradeRefused =>
    refine .inr ((owes_next _ _ i).mpr (List.mem_singleton.mpr ?_))
    exact congrArg Task.close hk
  | resubscribe | resubscribeTrade =>
    exact .inr ((owes_next _ _ i).mpr ((List.mem_cons.mp hk).resolve_left nofun))
  | resubscribeRefused =>
    refine .inr ((owes_next _ _ i).mpr (List.mem_cons_of_mem _ ?_))
    exact (List.mem_cons.mp hk).resolve_left nofun
  | resubscribeTradeRefused =>
    refine .inr ((owes_next _ _ i).mpr (List.mem_append_right _ ?_))
    exact (List.mem_cons.mp hk).resolve_left nofun
  | close | endContext | closePush => exact .inr hk
  | @closeAgain j tasks rest hdone =>
    rcases List.mem_cons.mp hk with hj | htasks
    · exact .inl (.inr (.inr (Task.close.inj hj ▸ (hs.tidy j).finished hdone)))
    · exact .inr ((owes_next tasks rest i).mpr htasks)
  | sendUpdate | sendErr => exact .inr ((List.mem_cons.mp hk).resolve_left nofun)
  | closed => exact .inr ((owes_next _ _ i).mpr hk)
  | closeDone => exact .inr ((owes_next _ _ i).mpr (List.mem_map_of_mem hk))
  | _ => exact hk.elim

theorem closeDebts : Debts (τ := ℕ) program (fun s _ => Closing s.shared) Settled Owes where
  ret _ := id
  body {s _ r c _} _ _ hi := (body_follows s.shared r c).settles hi
  work hs _ hk hi := (work_acts hk).settles hs hi

/-! ## Every run -/

/-- `tradeSubs` is exact, and no channel was closed twice or sent on after it was closed. -/
structure Exact (s : Shared) : Prop where
  nodup : s.subs.Nodup
  counted : s.tradeSubs = s.tradeRegistered.length
  running : s.panicked = false

/-- When all calls have returned, and a `Close` among them, every subscription that was returned
has its two channels closed. -/
def Released (s : System) : Prop :=
  s.Quiescent → Reply.closed ∈ s.shared.replies → ∀ i, Reply.subscribed i ∈ s.shared.replies →
    (s.shared.sub i).updates.closed = true ∧ (s.shared.sub i).errs.closed = true

/-- What holds in every state. -/
structure Guarded (s : System) : Prop where
  held : CloseHeld s
  sound : Sound program Kept (fun s p => KnowsClosing s p.next) s
  settled : Accounted Settled Owes s

theorem guarded_init (hasClient trade : Bool) (buffer : ℕ) :
    Guarded (init hasClient trade buffer) where
  held := held_init _ fun j => by cases j <;> exact nofun
  sound := by
    refine sound_init ⟨⟨List.nodup_nil, nofun, rfl, fun _ => rfl⟩, ?_⟩
      (knowsClosing_plain ⟨rfl, rfl, rfl, rfl, rfl, rfl⟩ fun _ => id)
    exact ⟨rfl, fun _ => ⟨rfl, rfl, fun _ => rfl, nofun⟩, fun _ _ => rfl, nofun, fun _ => rfl, nofun, nofun⟩
  settled i := .inl (.inl (Nat.zero_le i))

theorem Guarded.step {s s' : System} (h : Guarded s) {a : Action}
    (hstep : Stream.step s a = some s') : Guarded s' where
  held := closeTokens.step h.held h.sound.inv.closing hstep
  sound := closeOutline.step h.sound h.held hstep
  settled := closeDebts.step h.settled h.sound.inv.closing hstep

theorem Guarded.exact {s : System} (h : Guarded s) : Exact s.shared :=
  { h.sound.inv.registry with running := h.sound.inv.closing.running }

theorem Guarded.released {s : System} (h : Guarded s) : Released s := by
  intro hquiet hreply i hi
  obtain ⟨hregistry, hclosing⟩ := h.sound.inv
  have hsettled : Settled s.shared i := h.settled.quiescent (fun _ => id) hquiet i
  have hclosed : (s.shared.sub i).closed = true := by
    rcases hsettled with hlt | hmem | hclosed
    · exact absurd (hclosing.returned i hi) (Nat.not_lt.mpr hlt)
    · -- a client that is closed has no subscriptions
      rw [hregistry.emptied (hclosing.released hreply)] at hmem
      cases hmem
    · exact hclosed
  have htidy := hclosing.tidy i
  exact ⟨htidy.updates.trans hclosed, htidy.errs.trans hclosed⟩

/-- **The registry is exact and nothing leaks**, in every run. -/
theorem registry_exact (hasClient trade : Bool) (buffer : ℕ) (run : List Action) :
    Always step (fun s => Exact s.shared ∧ Released s) (init hasClient trade buffer) run := by
  have hall : Always step Guarded (init hasClient trade buffer) run :=
    always_of_step (fun s a s' h hstep => h.step hstep) (guarded_init hasClient trade buffer) run
  exact hall.mono fun s h => ⟨h.exact, h.released⟩

end HstongApi.Stream
