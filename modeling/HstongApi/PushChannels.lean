import HstongApi.PushOutline

/-!
# Channels under the locks of the orchestration

The threads of `PushSystem` use their channels safely and keep account of what they send.

* **Channels are safe** (`channels_safe`): none is closed twice, and none is sent on after it was
  closed.
* **Order and freshness** (`updates_in_order`): what is received was accepted, in this order, and
  the newest update is received, queued, or in the hands of the thread that is delivering it.
* **Conservation**: when no delivery is under way, `Dropped` is exact if and only if no delivery
  found the channel full and then empty (`dropped_exact_iff`). The count of lost errors is exact
  (`errors_conserved`).
-/

namespace HstongApi.PushSystem

open Locks

/-! ## Safety -/

/-- `closeCh` is closed at most once. -/
theorem Good.closeCh_le {s : System} (h : Good s) : s.shared.closeCh ≤ 1 := by
  rcases h.owns .closeOnce with ⟨hch, -⟩ | ⟨t, ht⟩
  · simp only [Shared.view_closeCh, Shared.view_closeDone] at hch
    rw [hch]
    exact Bool.toNat_le _
  · have hknows := h.knows t
    simp only [plan_kept] at ht
    cases hguard : (s.code t).next.guard with
    | closing stage =>
      rw [hguard] at hknows
      cases stage with
      | flag => exact hknows.2.trans_le (Nat.zero_le 1)
      | channel => exact hknows.2.1.trans_le (Nat.zero_le 1)
      | _ => exact hknows.2.1.le
    | _ => simp [hguard, Guard.locks] at ht

section

variable [UnicodeTables]

/-- **Channels are safe.** In every run, no `Updates` channel, nor the error stream, nor `closeCh` is
closed twice, and nothing is sent on a channel that is closed. -/
theorem channels_safe (market trade transport : Bool) (n : ℤ) (run : List Action) :
    Always step (fun s =>
      (∀ p, (s.shared.inbox p).chan.closes ≤ 1 ∧ (s.shared.inbox p).chan.broken = false) ∧
      s.shared.errc.closes ≤ 1 ∧ s.shared.errc.broken = false ∧ s.shared.closeCh ≤ 1)
      (init market trade transport n) run := by
  refine (good_run market trade transport n run).mono fun s hs => ⟨fun p => ?_, ?_⟩
  · have hp := hs.inv.inbox p
    refine ⟨?_, hp.whole⟩
    have hcloses : (s.shared.inbox p).chan.closes = (s.shared.inbox p).closed.toNat := hp.closes
    rw [hcloses]
    exact Bool.toNat_le _
  · exact ⟨hs.inv.errCloses, hs.inv.errWhole, hs.closeCh_le⟩

/-! ## Order and freshness -/

/-- **Order and freshness.** In every run, what is received from a subscription is, in this order, a
part of what was accepted. The newest update is the last one that was received or queued, or its
delivery is still under way. -/
theorem updates_in_order (market trade transport : Bool) (n : ℤ) (run : List Action) :
    Always step (fun s => ∀ p,
      (s.shared.inbox p).chan.received.Sublist (s.shared.inbox p).chan.accepted ∧
      ((s.shared.inbox p).chan.through.getLast? = (s.shared.inbox p).chan.accepted.getLast? ∨
        ∃ t u discarded, (s.code t).next.guard = .offering p u discarded ∧
          (s.shared.inbox p).chan.accepted.getLast? = some u))
      (init market trade transport n) run := by
  refine (good_run market trade transport n run).mono fun s hs p => ⟨?_, ?_⟩
  · exact (List.sublist_append_left _ _).trans (hs.inv.inbox p).fits.order
  · rcases hs.owns (.port p) with hsettled | ⟨t, ht⟩
    · exact .inl hsettled.chan.last
    · have hknows := hs.knows t
      simp only [plan_kept] at ht
      cases hguard : (s.code t).next.guard with
      | offering q u discarded =>
        rw [hguard] at ht hknows
        obtain rfl : p = q := Mutex.port.inj (List.mem_singleton.mp ht)
        obtain ⟨before, haccepted, -⟩ := hknows.chan
        refine .inr ⟨t, u, discarded, hguard, ?_⟩
        have hlast : (s.shared.inbox p).chan.accepted = before ++ [u] := haccepted
        rw [hlast, List.getLast?_concat]
      | _ => simp [hguard, Guard.locks] at ht

/-! ## Conservation of updates -/

/-- No delivery to the subscription is under way. -/
def Quiet (p : Port) (s : System) : Prop :=
  ∀ t u discarded, (s.code t).next.guard ≠ .offering p u discarded

omit [UnicodeTables] in
theorem Good.settled_of_quiet {s : System} {p : Port} (h : Good s) (hquiet : Quiet p s) :
    (s.shared.inbox p).Settled := by
  refine h.owns_of_rest (m := .port p) fun t ht => ?_
  simp only [plan_kept] at ht
  cases hguard : (s.code t).next.guard with
  | offering q u discarded =>
    rw [hguard] at ht
    obtain rfl : p = q := Mutex.port.inj (List.mem_singleton.mp ht)
    exact hquiet t u discarded hguard
  | _ => simp [hguard, Guard.locks] at ht

theorem quiet_of_exec {market trade transport : Bool} {n : ℤ} {run : List Action} {s : System}
    {p : Port} (hrun : exec step (init market trade transport n) run = some s)
    (h : ∀ ev ∈ run, (s.code ev.thread).next.guard.isOffering = false) : Quiet p s := by
  intro t u discarded hguard
  have hnone := Program.forall_next (p := fun a => a.guard.isOffering = false) hrun (fun t => by
    simp only [init]
    split <;> rfl) h t
  rw [hguard] at hnone
  cases hnone

/-- The action is the discard of a delivery to the subscription, and there is nothing to discard:
the consumer has emptied the channel since the delivery found it full. -/
def Guard.isVain (v : View) (p : Port) : Guard → Bool
  | .offering q _ false => q = p && (v.inbox p).chan.queue.isEmpty
  | _ => false

/-- The event is such a discard. -/
def discardsInVain (p : Port) (s : System) (ev : Action) : Bool :=
  match s.code ev.thread with
  | .act a => a.guard.isVain s.shared.view p
  | _ => false

omit [UnicodeTables] in
theorem Effect.vain {held : List Mutex} {v v' : View} {g g' : Guard} (h : Effect held v g v' g')
    (p : Port) :
    (v'.inbox p).chan.vain = (v.inbox p).chan.vain + (g.isVain v p).toNat := by
  have hset : ∀ {q : Port} {b : Inbox}, b.chan.vain = (v.inbox q).chan.vain →
      ((v.setInbox q b).inbox p).chan.vain = (v.inbox p).chan.vain := fun hb =>
    View.rel_setInbox (P := fun b b' => b'.chan.vain = b.chan.vain) (fun _ => rfl) hb
  cases h with
  | quiet hg =>
    cases g with
    | offering => cases hg
    | _ => rfl
  | send | sendFull => exact hset rfl
  | @discard q u =>
    by_cases hpq : p = q
    · subst hpq
      rw [v.inbox_self]
      cases hqueue : (v.inbox p).chan.queue with
      | _ => simp [Lossy.discard, Guard.isVain, hqueue]
    · rw [v.inbox_of_ne hpq]
      simp [Guard.isVain, Ne.symm hpq]
  | @resend q u =>
    refine hset ?_
    simp only [Lossy.resend]
    split <;> rfl
  | shutdown _ _ hg =>
    cases g with
    | offering => cases hg
    | _ => exact hset rfl
  | @receive q => exact hset (v.inbox q).chan.receive_same.2.2.2.2.1
  | _ => rfl

theorem vain_step {s s' : System} {ev : Action} (p : Port) (h : step s ev = some s') :
    (s'.shared.inbox p).chan.vain =
      (s.shared.inbox p).chan.vain + (discardsInVain p s ev).toNat := by
  have hcases := Program.step_cases h
  cases hcases with
  | act ht hdoes =>
    simp only [discardsInVain, ht]
    exact (does_spec hdoes).effect.vain p
  | lock ht | unlock ht => simp [discardsInVain, ht]

/-- In a whole run, nothing was discarded in vain if and only if no step did so. -/
theorem vain_run {s s' : System} {run : List Action} (p : Port) (h : exec step s run = some s') :
    (s.shared.inbox p).chan.vain ≤ (s'.shared.inbox p).chan.vain ∧
      ((s'.shared.inbox p).chan.vain = (s.shared.inbox p).chan.vain ↔
        EachStep step (fun s ev => discardsInVain p s ev = false) s run) := by
  induction run generalizing s with
  | nil =>
    cases h
    exact ⟨le_rfl, iff_of_true rfl trivial⟩
  | cons ev run ih =>
    obtain ⟨s₁, hstep, hrun⟩ := exec_eq_some.mp h
    obtain ⟨hle, hiff⟩ := ih hrun
    have hone := vain_step p hstep
    refine ⟨by omega, fun heq s₂ hstep₂ => ?_, fun heach => ?_⟩
    · cases hstep.symm.trans hstep₂
      have hfalse : discardsInVain p s ev = false := by
        cases hev : discardsInVain p s ev with
        | false => rfl
        | true =>
          rw [hev, Bool.toNat_true] at hone
          omega
      rw [hfalse, Bool.toNat_false] at hone
      exact ⟨hfalse, hiff.mp (by omega)⟩
    · obtain ⟨hfalse, hrest⟩ := heach s₁ hstep
      rw [hfalse, Bool.toNat_false] at hone
      have hsame := hiff.mpr hrest
      omega

/-- **When `Dropped` is exact.** In a state without a delivery to the subscription under way, the
updates that were accepted are those received, those queued and those counted by `Dropped`, and
`ErrTradeBacklog` was raised for a discarded update only, if and only if every delivery that found
the channel full also found something to discard. -/
theorem dropped_exact_iff {market trade transport : Bool} {n : ℤ} {run : List Action} {s : System}
    (p : Port) (hrun : exec step (init market trade transport n) run = some s)
    (hquiet : Quiet p s) :
    ((s.shared.inbox p).chan.accepted.length = (s.shared.inbox p).chan.received.length +
          (s.shared.inbox p).chan.queue.length + (s.shared.inbox p).dropped ∧
        (s.shared.raised p = true → (s.shared.inbox p).chan.discarded ≠ [])) ↔
      EachStep step (fun s ev => discardsInVain p s ev = false) (init market trade transport n)
        run := by
  have hgood := (good_run market trade transport n run).last hrun
  have hsettled := hgood.settled_of_quiet hquiet
  have hcount := hsettled.chan.count
  have hdropped := hsettled.dropped
  obtain ⟨-, hiff⟩ := vain_run p hrun
  have hzero : ((init market trade transport n).shared.inbox p).chan.vain = 0 := by
    cases p <;> rfl
  rw [← hiff, hzero]
  refine ⟨fun ⟨hsum, _⟩ => by omega, fun hvain => ⟨by omega, fun hraised hnil => ?_⟩⟩
  have hpos : (s.shared.inbox p).dropped ≠ 0 := hgood.inv.raised p hraised
  rw [hnil, List.length_nil] at hdropped
  omega

end

/-- A fill. -/
def fill : PushUpdate := ⟨tradeStockDeliverMsgType, [], 0, some (.trade (bytes "00700.HK") [])⟩

/-- Thread 1 subscribes to orders and then delivers a fill. -/
def firstFill : List Action :=
  .call 1 (.subscribeOrders (bytes "A")) :: List.replicate 6 (.run 1 none) ++
    .call 1 (.dispatch fill 1) :: List.replicate 9 (.run 1 none)

/-- A second delivery finds the channel full. The consumer empties it before the discard. -/
def emptiedBetween : List Action :=
  firstFill ++ .call 1 (.dispatch fill 2) :: List.replicate 7 (.run 1 none) ++
    .call 2 (.receiveOrder 0) :: List.replicate 3 (.run 1 none)

/-- An update is counted as dropped, and `ErrTradeBacklog` is raised, though nothing was lost. -/
theorem emptied_between_counts : ∃ s,
    exec (@step asciiTables) (init false true true 1) emptiedBetween = some s ∧
      Quiet (.order 0) s ∧ (s.shared.inbox (.order 0)).chan.accepted = [fill, fill] ∧
      (s.shared.inbox (.order 0)).chan.received = [fill] ∧
      (s.shared.inbox (.order 0)).chan.queue = [fill] ∧
      (s.shared.inbox (.order 0)).chan.discarded = [] ∧
      (s.shared.inbox (.order 0)).dropped = 1 ∧ s.shared.raised (.order 0) = true := by
  obtain ⟨s, hs, hquiet, hrest⟩ : ∃ s,
      exec (@step asciiTables) (init false true true 1) emptiedBetween = some s ∧
      (∀ ev ∈ emptiedBetween, (s.code ev.thread).next.guard.isOffering = false) ∧
      (s.shared.inbox (.order 0)).chan.accepted = [fill, fill] ∧
      (s.shared.inbox (.order 0)).chan.received = [fill] ∧
      (s.shared.inbox (.order 0)).chan.queue = [fill] ∧
      (s.shared.inbox (.order 0)).chan.discarded = [] ∧
      (s.shared.inbox (.order 0)).dropped = 1 ∧ s.shared.raised (.order 0) = true :=
    exec_exists (by decide +kernel)
  exact ⟨s, hs, @quiet_of_exec asciiTables _ _ _ _ _ s (.order 0) hs hquiet, hrest⟩

/-- The same deliveries, with the consumer after the discard. -/
def emptiedAfter : List Action :=
  firstFill ++ .call 1 (.dispatch fill 2) :: List.replicate 9 (.run 1 none) ++
    [.call 2 (.receiveOrder 0), .run 1 none]

theorem dropped_exact_emptiedAfter : ∃ s,
    exec (@step asciiTables) (init false true true 1) emptiedAfter = some s ∧
      Quiet (.order 0) s ∧ (s.shared.inbox (.order 0)).dropped = 1 ∧
      (s.shared.inbox (.order 0)).chan.accepted.length =
        (s.shared.inbox (.order 0)).chan.received.length +
          (s.shared.inbox (.order 0)).chan.queue.length + (s.shared.inbox (.order 0)).dropped := by
  obtain ⟨s, hs, hquiet, hdropped⟩ : ∃ s,
      exec (@step asciiTables) (init false true true 1) emptiedAfter = some s ∧
      (∀ ev ∈ emptiedAfter, (s.code ev.thread).next.guard.isOffering = false) ∧
      (s.shared.inbox (.order 0)).dropped = 1 := exec_exists (by decide +kernel)
  have hq := @quiet_of_exec asciiTables _ _ _ _ _ s (.order 0) hs hquiet
  exact ⟨s, hs, hq, hdropped,
    ((@dropped_exact_iff asciiTables _ _ _ _ _ s (.order 0) hs hq).mpr (by decide +kernel)).1⟩

/-! ## Conservation of errors -/

/-- The reports that have not decided yet about their error. -/
def Guard.inHand : Guard → ℕ
  | .asking | .reporting _ .send => 1
  | _ => 0

/-- **The reports are accounted for**: each was accepted, refused, or is in the hands of its
thread. -/
theorem Effect.balance {held : List Mutex} {v v' : View} {g g' : Guard}
    (h : Effect held v g v' g') :
    ((v'.reports : ℤ) - v'.errors.chan.accepted.length - v'.errors.refused) -
      (v.reports - v.errors.chan.accepted.length - v.errors.refused) = g'.inHand - g.inHand := by
  cases h with
  | report =>
    simp only [Guard.inHand]
    push_cast
    ring
  | refuse =>
    simp only [Guard.inHand, View.setErrors_reports, View.setErrors_errors]
    push_cast
    ring
  | errSend | errSendFull =>
    simp only [Guard.inHand, View.setErrors_reports, View.setErrors_errors, Lossy.send,
      List.length_append, List.length_singleton]
    push_cast
    ring
  | errDiscard | errDiscardVain => simp [Guard.inHand, v.errors.chan.discard_same.2.2.1]
  | @errResend err => simp [Guard.inHand, Lossy.resend_accepted]
  | receiveError => simp [Guard.inHand, v.errors.chan.receive_same.1]
  | closeErrors => simp [Guard.inHand, Lossy.close]
  | _ => simp [Guard.inHand]

section

variable [UnicodeTables]

/-- The reports that are in the hands of threads. -/
abbrev Accounted : System → Prop :=
  Balanced (fun s : Shared => (s.reports : ℤ) - s.errc.accepted.length - s.refused)
    fun a => a.guard.inHand

theorem accounted_run (market trade transport : Bool) (n : ℤ) (run : List Action) :
    Always step (fun s => Good s ∧ Accounted s) (init market trade transport n) run := by
  refine always_of_step (fun s ev s' h hstep => ⟨good_step h.1 hstep, ?_⟩)
    ⟨good_init market trade transport n, ∅, fun t _ => ?_, rfl⟩ run
  · exact Balanced.step (fun _ _ hdoes => (does_spec hdoes).effect.balance) h.1 h.2 hstep
  · simp only [init]
    split <;> rfl

/-- No report is under way. -/
def Reported (s : System) : Prop :=
  ∀ t, (s.code t).next.guard.inHand = 0 ∧ ∀ err stage, (s.code t).next.guard ≠ .reporting err stage

/-- **Errors are conserved.** In a state before `Close` without a report under way, the errors that
were reported are those received, those queued and those counted by `ErrorsDropped`, and what is
received is a part of what was reported, in the order in which the reports took the lock. -/
theorem errors_conserved {market trade transport : Bool} {n : ℤ} {run : List Action} {s : System}
    (hrun : exec step (init market trade transport n) run = some s)
    (hopen : s.shared.orch.closed = false) (hreported : Reported s) :
    s.shared.reports = s.shared.errc.received.length + s.shared.errc.queue.length +
        s.shared.orch.errsDrop ∧
      s.shared.taken.length = s.shared.reports ∧
      s.shared.errc.received.Sublist s.shared.taken := by
  obtain ⟨hgood, hbalance⟩ := (accounted_run market trade transport n run).last hrun
  have hsettled : s.shared.view.errors.Settled := by
    refine hgood.owns_of_rest (m := .errcMu) fun t ht => ?_
    simp only [plan_kept] at ht
    cases hguard : (s.code t).next.guard with
    | reporting err stage => exact (hreported t).2 err stage hguard
    | _ => simp [hguard, Guard.locks] at ht
  have hrefused : s.shared.refused = 0 := by
    by_contra hne
    have hclosed : s.shared.orch.closed = true := hgood.inv.refused hne
    rw [hopen] at hclosed
    cases hclosed
  have htaken : s.shared.taken = s.shared.errc.accepted := hsettled.taken hrefused
  have hzero := hbalance.rest fun t => (hreported t).1
  have hcount : s.shared.errc.accepted.length = s.shared.errc.received.length +
    s.shared.errc.queue.length + s.shared.errc.discarded.length := hsettled.chan.count
  have hlost : s.shared.orch.errsDrop = s.shared.errc.discarded.length := hsettled.dropped
  rw [htaken]
  refine ⟨by omega, by omega, ?_⟩
  exact (List.sublist_append_left _ _).trans hgood.inv.errFits.order

theorem reported_of_exec {market trade transport : Bool} {n : ℤ} {run : List Action} {s : System}
    (hrun : exec step (init market trade transport n) run = some s)
    (h : ∀ ev ∈ run, (s.code ev.thread).next.guard = .free) : Reported s := by
  intro t
  have hfree := Program.forall_next (p := fun a => a.guard = .free) hrun (fun t => by
    simp only [init]
    split <;> rfl) h t
  rw [hfree]
  exact ⟨rfl, by rintro _ _ ⟨⟩⟩

end

/-- Two errors of the transport, the first of which is received. -/
def twoErrors : List Action :=
  .call 0 (.transportError (some (bytes "eof"))) :: List.replicate 5 (.run 0 none) ++
    .call 0 (.transportError (some (bytes "reset"))) :: List.replicate 5 (.run 0 none) ++
    [.call 1 .receiveError]

theorem errors_conserved_twoErrors : ∃ s,
    exec (@step asciiTables) (init true true true 0) twoErrors = some s ∧
      s.shared.orch.closed = false ∧ Reported s ∧ s.shared.reports = 2 ∧
      s.shared.reports = s.shared.errc.received.length + s.shared.errc.queue.length +
        s.shared.orch.errsDrop := by
  obtain ⟨s, hs, hfree, hopen, htwo⟩ : ∃ s,
      exec (@step asciiTables) (init true true true 0) twoErrors = some s ∧
      (∀ ev ∈ twoErrors, (s.code ev.thread).next.guard = .free) ∧
      s.shared.orch.closed = false ∧ s.shared.reports = 2 := exec_exists (by decide +kernel)
  have hreported := @reported_of_exec asciiTables _ _ _ _ _ s hs hfree
  exact ⟨s, hs, hopen, hreported, htwo,
    (@errors_conserved asciiTables _ _ _ _ _ s hs hopen hreported).1⟩

end HstongApi.PushSystem
