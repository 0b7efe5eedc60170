import HstongApi.PushExactness

/-!
# What an update may reach

Two questions about `dispatchMarket` in a run of atomic operations: does a subscription
only get updates of the payload type its topic delivers, and does the market suffix of
an instrument keep the markets apart?

The routing index is keyed by instrument alone and is shared by all topics, and the
dispatch never looks at the payload type of a subscription. So an update reaches every
live subscription of its instrument, whatever the topic. `typedQueues_iff` gives the
exact condition under which no subscription ever holds an update of a foreign type.

The market suffix is stripped from every routing key, by design: the Gateway may or may
not append it. `market_isolation` says what is left of the isolation of markets: an
update reaches a live subscription exactly when one of its instruments has the same bare
code.
-/

namespace HstongApi

/-! ## Queues that only shrink

Apart from a dispatch, no operation adds an update to a channel. -/

namespace PushOrchestration

/-- The channels of `o'` hold nothing that those of `o` do not hold, for one and the same
topic. A new subscription has an empty channel. -/
structure QueuesShrink (o o' : PushOrchestration) : Prop where
  buffer : o'.buffer = o.buffer
  queue : ∀ i, (o'.subs.get i).updates = [] ∨
    (o'.subs.get i).topic = (o.subs.get i).topic ∧
      (o'.subs.get i).updates.Sublist (o.subs.get i).updates

theorem Keeps.queuesShrink {o o' : PushOrchestration} (h : o.Keeps o') : o.QueuesShrink o' :=
  ⟨h.buffer, fun i => .inr ⟨h.topic i, h.updates i⟩⟩

end PushOrchestration

section

variable [UnicodeTables]

theorem PushOrchestration.queuesShrink_register (o : PushOrchestration) (found : Option EntryId)
    (topic : TopicID) (msgType : NotifyMsgType) (securities : List Security) :
    o.QueuesShrink (o.register found topic msgType securities) := by
  refine ⟨by cases found <;> rfl, fun i => ?_⟩
  rw [register_subs, Heap.get_alloc]
  split
  · exact .inl rfl
  · exact .inr ⟨rfl, List.Sublist.refl _⟩

/-- Everything but a dispatch leaves the channels alone or takes something off them. -/
theorem World.queuesShrink_step {w w' : World} {op : Operation} (hstep : w.step op = some w')
    (hop : ∀ u now, op ≠ .dispatch u now) : w.orch.QueuesShrink w'.orch := by
  by_cases hsub : ∀ topic sec reply, op ≠ .subscribe topic sec reply
  · exact (step_keeps hstep hsub hop).queuesShrink
  · simp only [not_forall, not_not] at hsub
    obtain ⟨topic, sec, reply, rfl⟩ := hsub
    cases hstep
    rcases w.subscribe_cases topic sec reply with heq | ⟨msgType, securities, found, -, -, heq⟩
    · rw [heq]
      exact (PushOrchestration.Keeps.refl _).queuesShrink
    · rw [heq]
      exact PushOrchestration.queuesShrink_register ..

/-! ## Payload types -/

/-- No channel holds more than its depth. -/
def QueuesFit (w : World) : Prop :=
  ∀ i, (w.orch.subs.get i).updates.length ≤ w.orch.buffer

/-- Every update in the channel of a subscription has the payload type of its topic. -/
def TypedQueues (w : World) : Prop :=
  ∀ i, ∀ u ∈ (w.orch.subs.get i).updates,
    notifyTypeForTopic (w.orch.subs.get i).topic = some u.type

/-- A dispatched market update meets, in the buckets of its routing keys, only open
subscriptions whose topic delivers its payload type. -/
def TypeSafe (w : World) : Operation → Prop
  | .dispatch u _ => u.event ≠ none → isTradeNotifyType u.type = false →
    ∀ k ∈ updateRoutingKeys u, ∀ i ∈ w.orch.byKey.get k, (w.orch.subs.get i).closed = false →
      notifyTypeForTopic (w.orch.subs.get i).topic = some u.type
  | _ => True

omit [UnicodeTables] in
/-- The channel of an open subscription after a delivery. -/
theorem deliver_updates {sub : Subscription} {buffer : ℕ} {now : Time} {u : PushUpdate}
    (hopen : sub.closed = false) :
    (sub.deliver buffer now u).updates = (sendDropOldest buffer sub.updates u).1 := by
  rw [Subscription.deliver, hopen]
  rfl

/-- No operation overfills a channel. -/
theorem queuesFit_step {w w' : World} {op : Operation} (h : QueuesFit w)
    (hstep : w.step op = some w') : QueuesFit w' := by
  by_cases hop : ∀ u now, op ≠ .dispatch u now
  · have hshrink := World.queuesShrink_step hstep hop
    intro i
    rw [hshrink.buffer]
    rcases hshrink.queue i with hnil | ⟨-, hsub⟩
    · rw [hnil]
      exact Nat.zero_le _
    · exact hsub.length_le.trans (h i)
  · simp only [not_forall, not_not] at hop
    obtain ⟨u, now, rfl⟩ := hop
    obtain ⟨-, heq⟩ := Option.ite_none_right_eq_some.mp hstep
    cases heq
    by_cases hother : u.event = none ∨ isTradeNotifyType u.type = true
    · have hsame := w.orch.handle_other now hother
      intro i
      simp only [hsame.buffer, hsame.subs]
      exact h i
    · obtain ⟨hevent, hmarket⟩ := not_or.mp hother
      have hmarket := Bool.eq_false_of_not_eq_true hmarket
      obtain ⟨hbuffer, -, hget⟩ := w.orch.handle_market now hevent hmarket
      intro i
      simp only [hbuffer, hget]
      split
      · cases hclosed : (w.orch.subs.get i).closed with
        | true =>
          rw [Subscription.deliver, hclosed]
          exact h i
        | false =>
          rw [deliver_updates hclosed]
          exact (sendDropOldest_spec w.orch.buffer_pos (h i) u).2.2
      · exact h i

/-- A dispatch from a well-typed state leads to a well-typed state exactly when it is
type safe. -/
theorem typedQueues_dispatch {w : World} (hfit : QueuesFit w) (htyped : TypedQueues w)
    (u : PushUpdate) (now : Time) :
    TypedQueues { w with orch := w.orch.handle now u } ↔ TypeSafe w (.dispatch u now) := by
  by_cases hother : u.event = none ∨ isTradeNotifyType u.type = true
  · have hsame := w.orch.handle_other now hother
    refine iff_of_true ?_ fun hevent hmarket => ?_
    · intro i
      simp only [hsame.subs]
      exact htyped i
    · rcases hother with hnone | htrade
      · exact absurd hnone hevent
      · rw [hmarket] at htrade
        cases htrade
  · obtain ⟨hevent, hmarket⟩ := not_or.mp hother
    have hmarket := Bool.eq_false_of_not_eq_true hmarket
    have hget := (w.orch.handle_market now hevent hmarket).2.2
    constructor
    · -- the update is now in the channel of each open target
      intro h _ _ k hk i hi hopen
      have htarget : i ∈ w.orch.marketTargets u :=
        PushOrchestration.mem_marketTargets.mpr ⟨k, hk, hi⟩
      have hi' := h i u
      simp only [hget, if_pos htarget, deliver_updates hopen,
        ((w.orch.subs.get i).deliver_same w.orch.buffer now u).1] at hi'
      exact hi' (sendDropOldest_spec w.orch.buffer_pos (hfit i) u).2.1
    · intro hsafe i u' hu'
      simp only [hget] at hu' ⊢
      split at hu'
      · rename_i htarget
        rw [if_pos htarget, ((w.orch.subs.get i).deliver_same w.orch.buffer now u).1]
        cases hclosed : (w.orch.subs.get i).closed with
        | true =>
          rw [Subscription.deliver, hclosed] at hu'
          exact htyped i u' hu'
        | false =>
          rw [deliver_updates hclosed] at hu'
          rcases (sendDropOldest_spec w.orch.buffer_pos (hfit i) u).1 u' hu' with hold | rfl
          · exact htyped i u' hold
          · obtain ⟨k, hk, hi⟩ := PushOrchestration.mem_marketTargets.mp htarget
            exact hsafe hevent hmarket k hk i hi hclosed
      · rename_i htarget
        rw [if_neg htarget]
        exact htyped i u' hu'

/-- **Payload types, exactly.** Throughout a run every update in a channel has the payload
type of the subscription's topic, exactly when no dispatched update meets an open
subscription of another payload type under one of its routing keys. -/
theorem typedQueues_iff (market trade transport : Bool) (n : ℤ) (run : List Operation) :
    Always World.step TypedQueues (World.init market trade transport n) run ↔
      EachStep World.step TypeSafe (World.init market trade transport n) run := by
  have hexact : ∀ w op w', QueuesFit w → TypedQueues w → w.step op = some w' →
      (TypedQueues w' ↔ TypeSafe w op) := by
    intro w op w' hfit htyped hstep
    by_cases hop : ∀ u now, op ≠ .dispatch u now
    · have hshrink := World.queuesShrink_step hstep hop
      refine iff_of_true ?_ ?_
      · intro i u hu
        rcases hshrink.queue i with hnil | ⟨htopic, hsub⟩
        · rw [hnil] at hu
          cases hu
        · rw [htopic]
          exact htyped i u (hsub.subset hu)
      · cases op with
        | dispatch u now => exact absurd rfl (hop u now)
        | _ => trivial
    · simp only [not_forall, not_not] at hop
      obtain ⟨u, now, rfl⟩ := hop
      obtain ⟨-, heq⟩ := Option.ite_none_right_eq_some.mp hstep
      cases heq
      exact typedQueues_dispatch hfit htyped u now
  refine always_iff_eachStep (fun w (h : QueuesFit w ∧ TypedQueues w) => h.2)
    (fun w op w' h hcond hstep => ⟨queuesFit_step h.1 hstep, (hexact w op w' h.1 h.2 hstep).mpr hcond⟩)
    (fun w op w' h hstep htyped => (hexact w op w' h.1 h.2 hstep).mp htyped) ⟨?_, ?_⟩ run
  · exact fun i => Nat.zero_le _
  · exact fun i u hu => absurd hu List.not_mem_nil

end

/-- A tick of one instrument. -/
def tick : PushUpdate :=
  ⟨tickerNotifyMsgType, bytes "00700.HK", 0, some (.ticker (bytes "00700.HK") [])⟩

/-- A quote and a ticker subscription of one instrument: the quote subscriber is handed
the tick. -/
theorem tick_reaches_quote_subscriber : ∃ w,
    exec (@World.step asciiTables) (World.init true true true 0)
      [.subscribe topicBasicQot [some ⟨10000, bytes "00700.HK"⟩] none,
        .subscribe topicTicker [some ⟨10000, bytes "00700.HK"⟩] none, .dispatch tick 1] = some w ∧
    (w.orch.subs.get 0).topic = topicBasicQot ∧ tick ∈ (w.orch.subs.get 0).updates ∧
    ¬ TypedQueues w := by
  obtain ⟨w, hw, htopic, hmem⟩ : ∃ w, exec (@World.step asciiTables) (World.init true true true 0)
      [.subscribe topicBasicQot [some ⟨10000, bytes "00700.HK"⟩] none,
        .subscribe topicTicker [some ⟨10000, bytes "00700.HK"⟩] none, .dispatch tick 1] = some w ∧
      (w.orch.subs.get 0).topic = topicBasicQot ∧ tick ∈ (w.orch.subs.get 0).updates :=
    exec_exists (by decide +kernel)
  refine ⟨w, hw, htopic, hmem, fun htyped => ?_⟩
  have htype := htyped 0 tick hmem
  rw [htopic] at htype
  exact absurd htype (by decide)

/-! ## Market suffixes -/

section

variable [UnicodeTables]

/-- The instrument has the code of the update, or of its payload, once both are in upper
case and without a market suffix. -/
def SharesBareCode (u : PushUpdate) (s : Security) : Prop :=
  s.code ≠ [] ∧ ∃ code ∈ [u.id, u.securityCode], code ≠ [] ∧
    normaliseRoutingKey code = normaliseRoutingKey s.code

theorem wants_iff {o : PushOrchestration} {u : PushUpdate} {i : SubId} :
    o.Wants u i ↔ ∃ s ∈ (o.subs.get i).securities, SharesBareCode u s := by
  simp only [PushOrchestration.Wants, updateRoutingKeys, securityKeys, mem_routingKeys,
    List.mem_map]
  constructor
  · rintro ⟨k, ⟨code, hcode, hne, rfl⟩, _, ⟨s, hs, rfl⟩, hne', hk⟩
    exact ⟨s, hs, hne', code, hcode, hne, hk.symm⟩
  · rintro ⟨s, hs, hne', code, hcode, hne, hk⟩
    exact ⟨_, ⟨code, hcode, hne, rfl⟩, s.code, ⟨s, hs, rfl⟩, hne', hk.symm⟩

/-- **Bare codes isolate, suffixes do not.** In every registry that a run over plain codes
reaches, an update is enqueued to a live subscription when one of its instruments has the
same bare code, and leaves every other subscription as it is. -/
theorem market_isolation {market trade transport : Bool} {n : ℤ} {run : List Operation}
    {w : World} (hplain : ∀ op ∈ run, op.Plain)
    (hrun : exec World.step (World.init market trade transport n) run = some w) {i : SubId}
    (hi : i ∈ w.orch.live) (now : Time) (u : PushUpdate) :
    ((∃ s ∈ (w.orch.subs.get i).securities, SharesBareCode u s) →
      (w.orch.dispatchMarket now u).subs.get i =
        ((w.orch.subs.get i).noteTimes now u).enqueue w.orch.buffer u) ∧
    ((∀ s ∈ (w.orch.subs.get i).securities, ¬ SharesBareCode u s) →
      (w.orch.dispatchMarket now u).subs.get i = w.orch.subs.get i) := by
  have h := (World.exact_run hplain hrun).dispatchMarket now u
  constructor
  · exact fun hshares => h.delivered i hi (wants_iff.mpr hshares)
  · intro hnone
    refine h.untouched i fun hwants => ?_
    obtain ⟨s, hs, hshares⟩ := wants_iff.mp hwants.2
    exact hnone s hs hshares

end

/-- A quote of the Shenzhen instrument 000001. -/
def shenzhenQuote : PushUpdate :=
  ⟨basicQotNotifyMsgType, bytes "000001.SZ", 0, some (.quote (bytes "000001.SZ") [])⟩

/-- A subscriber of the Shanghai instrument with the same number gets it. -/
theorem suffix_does_not_isolate : ∃ w,
    exec (@World.step asciiTables) (World.init true true true 0)
      [.subscribe topicBasicQot [some ⟨30000, bytes "000001.SH"⟩] none] = some w ∧
    (w.orch.subs.get 0).securities = [⟨30000, bytes "000001.SH"⟩] ∧
    shenzhenQuote ∈
      ((@PushOrchestration.dispatchMarket asciiTables w.orch 1 shenzhenQuote).subs.get 0).updates :=
  exec_exists (by decide +kernel)

/-- An update of another code leaves the Shanghai subscriber alone. -/
theorem market_isolation_shanghai : ∃ w,
    exec (@World.step asciiTables) (World.init true true true 0)
      [.subscribe topicBasicQot [some ⟨30000, bytes "600000.SH"⟩] none] = some w ∧
    (@PushOrchestration.dispatchMarket asciiTables w.orch 1 shenzhenQuote).subs.get 0 =
      w.orch.subs.get 0 := by
  obtain ⟨w, hw, hsize, hopen, hsec⟩ : ∃ w,
      exec (@World.step asciiTables) (World.init true true true 0)
        [.subscribe topicBasicQot [some ⟨30000, bytes "600000.SH"⟩] none] = some w ∧
      0 < w.orch.subs.size ∧ (w.orch.subs.get 0).closed = false ∧
      (w.orch.subs.get 0).securities = [⟨30000, bytes "600000.SH"⟩] :=
    exec_exists (by decide +kernel)
  refine ⟨w, hw, (@market_isolation asciiTables _ _ _ _ _ w (by decide +kernel) hw 0 ⟨hsize, hopen⟩
    1 shenzhenQuote).2 ?_⟩
  rw [hsec]
  rintro s hs ⟨-, hshares⟩
  rw [List.mem_singleton.mp hs] at hshares
  revert hshares
  decide +kernel

end HstongApi
