import HstongApi.PushThreads

/-!
# The count of order subscriptions

`tradeSubs` counts the order subscriptions and `tradeOn` says that order push is on. An
`OrderSubscription.Cancel` decides by the closed flag whether there is anything to do,
but the flag is set only after the lock is released. A second `Cancel` of the same
subscription, or a `Cancel` of one that a reconnect has killed, can fall between the two
and counts down once more.

`order_count_iff` says that this is the only way to a wrong count: the count is right
throughout exactly when each `Cancel` finds its subscription registered or closed.
-/

namespace HstongApi.PushThreads

open Threads

/-- The count and the flag agree with the registered order subscriptions. -/
def Counted (s : Shared) : Prop :=
  s.orch.tradeSubs = s.orch.orders.length ∧ (s.orch.tradeOn = true ↔ 0 < s.orch.orders.length)

instance : DecidablePred Counted := fun s =>
  inferInstanceAs (Decidable (s.orch.tradeSubs = s.orch.orders.length ∧
    (s.orch.tradeOn = true ↔ 0 < s.orch.orders.length)))

/-- The order subscription is closed, or registered. -/
def Settled (s : Shared) (ord : OrderId) : Prop :=
  (s.orch.orderSubs.get ord).closed = true ∨ ord ∈ s.orch.orders

/-- The order subscription whose `Cancel` is in its critical section. -/
def cancelling : Point Section Work → Option OrderId
  | .inside (.cancelOrder ord) => some ord
  | _ => none

theorem cancelling_eq_some {p : Point Section Work} {ord : OrderId} :
    cancelling p = some ord ↔ p = .inside (.cancelOrder ord) := by
  refine ⟨fun h => ?_, fun h => h ▸ rfl⟩
  unfold cancelling at h
  split at h <;> cases h
  rfl

/-- A `Cancel` in its critical section finds its subscription closed or registered. -/
def CancelsSettled (s : System) : Action → Prop
  | .run t _ => ∀ ord ∈ cancelling (s.point t), Settled s.shared ord
  | .call _ _ => True

instance (s : System) : DecidablePred (CancelsSettled s) := by
  rintro (_ | _) <;> dsimp only [CancelsSettled, Settled] <;> infer_instance

theorem Counted.keeps {s s' : Shared} (h : Counted s) (hkeeps : KeepsOrders s s') : Counted s' := by
  rw [Counted, hkeeps.tradeSubs, hkeeps.orders, hkeeps.tradeOn]
  exact h

theorem Counted.registerOrder {s : Shared} (h : Counted s) (account : AccountId) :
    Counted (s.withOrch (s.orch.registerOrder account)) := by
  have hsubs : (s.orch.registerOrder account).tradeSubs = s.orch.tradeSubs + 1 := by
    rw [PushOrchestration.registerOrder]
    split <;> rfl
  have horders : (s.orch.registerOrder account).orders.length = s.orch.orders.length + 1 := by
    rw [PushOrchestration.registerOrder]
    split <;> simp
  have hon : (s.orch.registerOrder account).tradeOn = true := by
    rw [PushOrchestration.registerOrder]
    split <;> first | assumption | rfl
  refine ⟨?_, iff_of_true hon ?_⟩
  · simp only [Shared.withOrch, hsubs, horders, h.1]
    push_cast
    rfl
  · simp only [Shared.withOrch, horders]
    exact Nat.succ_pos _

/-- Counting down is right exactly when there was something to count. -/
theorem Counted.cancelOrder_iff {s : Shared} (h : Counted s) {ord : OrderId} :
    Counted (s.withOrch (s.orch.cancelOrderSection ord)) ↔ ord ∈ s.orch.orders := by
  obtain ⟨hsubs, hon⟩ := h
  have hcount : (s.orch.cancelOrderSection ord).tradeSubs = s.orch.orders.length - 1 := by
    rw [← hsubs]
    rfl
  have horders : (s.orch.cancelOrderSection ord).orders = s.orch.orders.erase ord := rfl
  have hflag : (s.orch.cancelOrderSection ord).tradeOn =
      if s.orch.tradeSubs - 1 ≤ 0 then false else s.orch.tradeOn := rfl
  simp only [Counted, Shared.withOrch, hcount, horders, hflag, hsubs]
  by_cases hmem : ord ∈ s.orch.orders
  · have hpos := List.length_pos_of_mem hmem
    rw [List.length_erase_of_mem hmem]
    refine iff_of_true ⟨by omega, ?_⟩ hmem
    split
    · exact iff_of_false Bool.false_ne_true (by omega)
    · exact iff_of_true (hon.mpr hpos) (by omega)
  -- the count goes down although nothing is removed
  · rw [List.erase_of_not_mem hmem]
    exact iff_of_false (fun hc => by omega) hmem

section

variable [UnicodeTables]

/-- A section other than the one of `Close` keeps the count right, if a `Cancel` finds its
subscription closed or registered. -/
theorem Counted.body {s : Shared} (h : Counted s) {c : Section} (hc : c.kind ≠ .close)
    (hsettled : ∀ ord, c = .cancelOrder ord → Settled s ord) (r : Reply) :
    Counted (body c r s).1 := by
  cases hmodifies : c.modifies .orders with
  | false => exact h.keeps ((body_frame c r s).orders hmodifies)
  | true =>
    cases c with
    | lookupOrders account =>
      simp only [PushThreads.body]
      split
      · exact h
      · split <;> exact h
    | requestOrders account => cases r <;> exact h
    | registerOrders account => exact h.registerOrder account
    | cancelOrder ord =>
      simp only [PushThreads.body]
      split
      · exact h
      · rename_i hopen
        exact h.cancelOrder_iff.mpr ((hsettled ord rfl).resolve_left hopen)
    | killOrders => exact ⟨rfl, iff_of_false Bool.false_ne_true (Nat.lt_irrefl 0)⟩
    | closeAll => exact absurd rfl hc
    | _ => cases hmodifies

/-- The count stays right in the steps of all calls but `Close`. -/
theorem countOutline : Outline program
    (fun s a => CallsIn (· ≠ .close) a ∧ CancelsSettled s a) Counted
    (fun _ => InCalls (· ≠ .close)) where
  start := by
    intro s t a x hcond _ hx
    exact (start_kind (K := (· ≠ .close)) hcond.1 hx).point
  lock := fun _ h => h
  unlock := fun _ h => h.2.point
  body := by
    intro s t r c h hcond ht
    have hc : InCalls (· ≠ .close) (.inside c) := h.at_point ht
    refine ⟨h.inv.body hc (fun ord hord => hcond.2 ord ?_) r, ?_⟩
    · exact cancelling_eq_some.mpr (hord ▸ ht)
    · exact (body_frame c r s.shared).inCalls hc
  body_other := fun h _ _ _ => h.assert _
  work := by
    intro s t r k shared x h _ ht hk
    have hc : InCalls (· ≠ .close) (.work k) := h.at_point ht
    exact ⟨h.inv.keeps (work_frame hk).orders, (exitIn_of_kind (work_frame hk).kind hc).point⟩
  work_other := fun h _ _ _ _ => h.assert _

theorem cancelsSettled_of_counted {s s' : System} {a : Action} (h : Counted s.shared)
    (hstep : step s a = some s') (h' : Counted s'.shared) : CancelsSettled s a := by
  cases a with
  | call t a => trivial
  | run t r =>
    intro ord hord
    have ht := cancelling_eq_some.mp hord
    cases Program.step_cases hstep with
    | @body _ _ c hc =>
      obtain rfl : c = .cancelOrder ord := Point.inside.inj (hc.symm.trans ht)
      cases hclosed : (s.shared.orch.orderSubs.get ord).closed with
      | true => exact .inl hclosed
      | false =>
        refine .inr (h.cancelOrder_iff.mp ?_)
        have hbody : (body (.cancelOrder ord) r s.shared).1 =
            s.shared.withOrch (s.shared.orch.cancelOrderSection ord) := by
          simp only [body, hclosed, if_neg Bool.false_ne_true]
        exact hbody ▸ h'
    | lock hc _ | unlock hc | work hc _ =>
      rw [ht] at hc
      cases hc

/-- **The order count, exactly.** In every run without `Close` the count is right
throughout exactly when each `Cancel` finds its subscription closed or registered. -/
theorem order_count_iff {market trade transport : Bool} {n : ℤ} {run : List Action}
    (hrun : ∀ a ∈ run, CallsIn (· ≠ .close) a) :
    Always step (fun s => Counted s.shared) (init market trade transport n) run ↔
      EachStep step CancelsSettled (init market trade transport n) run := by
  have hside : EachStep step (fun _ a => CallsIn (· ≠ .close) a)
      (init market trade transport n) run := EachStep.of_forall (fun a ha _ => hrun a ha) _
  refine hside.always_iff
    (fun s (h : Sound program Counted (fun _ => InCalls (· ≠ .close)) s) => h.inv)
    (fun s a s' h ha hcond hstep => countOutline.step h ⟨ha, hcond⟩ hstep)
    (fun s a s' h _ hstep h' => cancelsSettled_of_counted h.inv hstep h')
    (sound_init ⟨rfl, ?_⟩ trivial)
  exact iff_of_false Bool.false_ne_true (Nat.lt_irrefl 0)

end

/-- A thread subscribes to order push, for the first time or again. -/
def subscribesOrders (t : ℕ) : List Action :=
  .call t (.subscribeOrders (bytes "A1")) :: List.replicate 6 (.run t none)

/-- Two order subscriptions, and two `Cancel`s of the first one that overlap. -/
def overlappingCancels : List Action :=
  subscribesOrders 0 ++ (subscribesOrders 1).dropLast ++
    [.call 0 (.cancelOrder 0), .call 1 (.cancelOrder 0), .run 0 none, .run 0 none, .run 0 none,
      .run 1 none, .run 1 none, .run 1 none, .run 0 none, .run 1 none, .run 1 none]

/-- Order push is off and counted as unused while a subscription is registered. -/
theorem overlapping_cancels_miscount : ∃ s,
    exec (@step asciiTables) (init true true true 0) overlappingCancels = some s ∧ s.Quiescent ∧
      s.shared.orch.orders = [1] ∧ s.shared.orch.tradeSubs = 0 ∧ s.shared.orch.tradeOn = false ∧
      ¬ Counted s.shared := by
  obtain ⟨s, hs, hidle, hcount⟩ : ∃ s,
      exec (@step asciiTables) (init true true true 0) overlappingCancels = some s ∧
      (∀ a ∈ overlappingCancels, s.point a.thread = .idle) ∧
      s.shared.orch.orders = [1] ∧ s.shared.orch.tradeSubs = 0 ∧ s.shared.orch.tradeOn = false ∧
      ¬ Counted s.shared := exec_exists (by decide +kernel)
  exact ⟨s, hs, Program.quiescent_of_exec hs hidle, hcount⟩

/-- The same `Cancel`s one after the other. -/
def repeatedCancels : List Action :=
  subscribesOrders 0 ++ (subscribesOrders 1).dropLast ++
    [.call 0 (.cancelOrder 0), .call 1 (.cancelOrder 0), .run 0 none, .run 0 none, .run 0 none,
      .run 0 none, .run 1 none, .run 1 none, .run 1 none]

theorem order_count_repeatedCancels :
    Always (@step asciiTables) (fun s => Counted s.shared) (init true true true 0) repeatedCancels :=
  (@order_count_iff asciiTables true true true 0 repeatedCancels (by decide +kernel)).mpr
    (by decide +kernel)

end HstongApi.PushThreads
