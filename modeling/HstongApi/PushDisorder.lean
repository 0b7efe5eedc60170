import HstongApi.HighWater
import HstongApi.PushChannels

/-!
# Updates out of order

`Subscription.deliver` compares the wire time of an update with `lastWire`, the greatest
one that it has accepted, and counts the updates that are behind it. The count and the
time are changed in the first action of a delivery only (`MarketStep`), which accepts the
update as well, so that they are the disorder and the high-water mark of what was accepted
(`Stamped`).

The first update out of order is reported when the lock of the subscription was given
back. From the action that counts it to the report it is in the hands of one thread, and
`Pending` says that there is one report then, and later one that was made.
-/

namespace HstongApi.PushSystem

open Locks HighWater

/-! ## What an action does to a subscription -/

/-- The action belongs to a delivery to the subscription. -/
def Act.delivers (sub : SubId) : Act → Bool
  | .deliverTo _ _ sub' _ _ | .wireStamp _ _ sub' _ => sub' = sub
  | _ => false

/-- The action belongs to the delivery of the first update out of order, which is not
reported yet. -/
def Act.late (sub : SubId) : Act → Bool
  | .deliverTo _ _ sub' _ (.discard late) | .deliverTo _ _ sub' _ (.resend late) =>
    sub' = sub && late
  | .wireStamp _ _ sub' _ => sub' = sub
  | _ => false

/-- The error that the action hands to `report` for the subscription: `wireStamp` is read
for its text. -/
def Act.lateError (sub : SubId) (s : Shared) : Act → List StreamError
  | .wireStamp u _ sub' _ =>
    if sub' = sub then
      [.updateOutOfOrder (s.orch.subs.get sub).topic u.time (s.markets sub).lastWire]
    else []
  | _ => []

/-- What the order of updates depends on. -/
def MarketInbox.stamps (b : MarketInbox) : ℕ × Time × List PushUpdate :=
  (b.outOfOrder, b.lastWire, b.chan.accepted)

/-- **What an action does to the stamps of a subscription**, from one action to the next. -/
inductive MarketStep (sub : SubId) (s : Shared) (a : Act) (s' : Shared) (b : Act) : Prop
  | quiet : (s'.markets sub).stamps = (s.markets sub).stamps → b.late sub = a.late sub →
      a.lateError sub s = [] → MarketStep sub s a s' b
  | accept (u : PushUpdate) (now : Time) :
      (s'.markets sub).stamps = (((s.markets sub).noteTimes now u).outOfOrder,
        ((s.markets sub).noteTimes now u).lastWire, (s.markets sub).chan.accepted ++ [u]) →
      a.late sub = false →
      b.late sub = ((s.markets sub).isLate u && (s.markets sub).outOfOrder = 0) →
      a.lateError sub s = [] → MarketStep sub s a s' b
  | stamp (err : StreamError) : (s'.markets sub).stamps = (s.markets sub).stamps →
      a.late sub = true → b.late sub = false → a.lateError sub s = [err] → MarketStep sub s a s' b

variable {u : PushUpdate}

section

variable {sub sub' : SubId} {s s' : Shared} {a b : Act}

theorem markets_setMarket (c : MarketInbox) :
    (s.setMarket sub' c).markets = Function.update s.markets sub' c := rfl

theorem stamps_setMarket_of_eq {c : MarketInbox} (h : c.stamps = (s.markets sub').stamps) :
    ((s.setMarket sub' c).markets sub).stamps = (s.markets sub).stamps := by
  by_cases heq : sub = sub'
  · subst heq
    rw [markets_setMarket, Function.update_self, h]
  · rw [markets_setMarket, Function.update_of_ne heq]

theorem After.code_late (after : After) : after.code.next.late sub = false := by
  cases after <;> rfl

theorem Release.code_late (o : PushOrchestration) (after : Release) :
    (after.code o).next.late sub = false := by
  cases after with
  | cancel last =>
    cases last with
    | none => rfl
    | some e =>
      rw [Release.code]
      split <;> rfl
  | cancelOrder last account =>
    rw [Release.code]
    split <;> rfl
  | _ => rfl

theorem delivered_late {now : Time} {targets : List SubId} (late : Bool) :
    (delivered u now sub' targets late).next.late sub = (sub' = sub && late) := by
  cases late with
  | _ => simp [delivered, Act.late]

variable [UnicodeTables] {r : Reply} {k : Next}

/-- **A market delivery.** -/
theorem deliverTo_market {now : Time} {targets : List SubId} {attempt : Attempt}
    (h : act (.deliverTo u now sub' targets attempt) r s = some (s', k)) :
    MarketStep sub s (.deliverTo u now sub' targets attempt) s' k.next := by
  cases attempt with
  | send =>
    simp only [act] at h
    split at h <;> cases h
    · exact .quiet rfl rfl rfl
    · by_cases heq : sub' = sub
      · subst heq
        refine .accept u now ?_ rfl ?_ rfl
        · simp [Shared.setMarket, MarketInbox.stamps, Lossy.send]
        · split
          · rw [Code.next, delivered_late]
            simp
          · simp [Act.late]
      · refine .quiet ?_ ?_ rfl
        · rw [markets_setMarket, Function.update_of_ne (Ne.symm heq)]
        · split
          · rw [Code.next, delivered_late]
            simp [heq, Act.late]
          · simp [Act.late, heq]
  | discard late =>
    cases h
    refine .quiet (stamps_setMarket_of_eq ?_) rfl rfl
    simp [MarketInbox.stamps, (s.markets sub').chan.discard_same.2.2.1]
  | resend late =>
    cases h
    refine .quiet (stamps_setMarket_of_eq ?_) ?_ rfl
    · simp [MarketInbox.stamps, Lossy.resend_accepted]
    · rw [Code.next, delivered_late]
      rfl

/-- **What an action does to the stamps.** -/
theorem act_market (h : act a r s = some (s', k)) : MarketStep sub s a s' k.next := by
  cases a with
  | deliverTo u now sub' targets attempt => exact deliverTo_market h
  | wireStamp u now sub' targets =>
    cases h
    by_cases heq : sub' = sub
    · subst heq
      exact .stamp _ rfl (by simp [Act.late]) rfl (if_pos rfl)
    · exact .quiet rfl (by simp [Act.late, heq]) (if_neg heq)
  | shutdown sub' subs orders after =>
    cases h
    refine .quiet (stamps_setMarket_of_eq ?_) rfl rfl
    rw [MarketInbox.shutdown]
    split <;> rfl
  | shutdowns subs orders after =>
    cases subs <;> cases orders <;> cases h
    · exact .quiet rfl (after.code_late s.orch) rfl
    all_goals exact .quiet rfl rfl rfl
  | report err after =>
    cases err <;> cases h
    · exact .quiet rfl after.code_late rfl
    · exact .quiet rfl rfl rfl
  | reportCheck err after =>
    simp only [act] at h
    split at h <;> cases h
    · exact .quiet rfl after.code_late rfl
    · exact .quiet rfl rfl rfl
  | reportSend err after =>
    cases h
    refine .quiet rfl ?_ rfl
    split
    · exact after.code_late
    · rfl
  | reportResend err after =>
    cases h
    exact .quiet rfl after.code_late rfl
  | resubscribe rest =>
    obtain ⟨entries, account⟩ := rest
    cases entries <;> cases account <;> cases r <;> cases h <;> exact .quiet rfl rfl rfl
  | deliver u now targets | deliverOrder u now targets =>
    cases targets <;> cases h <;> exact .quiet rfl rfl rfl
  | deliverOrderTo u now ord targets attempt =>
    cases attempt with
    | send =>
      simp only [act] at h
      split at h <;> cases h
      · exact .quiet rfl rfl rfl
      · refine .quiet rfl ?_ rfl
        split <;> rfl
    | discard late =>
      cases h
      exact .quiet rfl rfl rfl
    | resend late =>
      cases h
      refine .quiet rfl ?_ rfl
      rw [Code.next]
      split <;> rfl
  | reportDiscard | isClosed | orderIsClosed =>
    cases h
    refine .quiet rfl ?_ rfl
    split <;> rfl
  -- the other actions have nothing to do with a delivery
  | _ =>
    cases r <;> simp only [act] at h <;> (repeat' split at h) <;> cases h <;>
      exact .quiet rfl rfl rfl

omit [UnicodeTables] in
/-- **What a call does to the stamps**: a consumer may receive. -/
theorem call_market {c : Call} (h : call c a s = some (s', k)) : MarketStep sub s a s' k.next := by
  unfold call at h
  split at h
  case h_10 sub' =>
    obtain ⟨-, heq⟩ := Option.ite_none_left_eq_some.mp h
    cases heq
    refine .quiet (stamps_setMarket_of_eq ?_) rfl rfl
    simp [MarketInbox.stamps, (s.markets sub').chan.receive_same.1]
  case h_11 ord =>
    obtain ⟨-, heq⟩ := Option.ite_none_left_eq_some.mp h
    cases heq
    exact .quiet rfl rfl rfl
  all_goals
    (repeat' split at h) <;> cases h <;> exact .quiet rfl rfl rfl

theorem does_market (sub : SubId) (h : program.Does a s s' k) :
    MarketStep sub s a s' k.next := by
  cases h with
  | call h => exact call_market h
  | act h => exact act_market h

end

/-! ## The count -/

/-- The wire time of an update, if it has one. -/
def stampOf (u : PushUpdate) : Option Time := if u.time = 0 then none else some u.time

/-- The count of a subscription is the disorder of what it has accepted, and its time is the
high-water mark. -/
structure Stamped (b : MarketInbox) : Prop where
  count : b.outOfOrder = disorder (b.chan.accepted.map stampOf)
  mark : b.lastWire = (highWater (b.chan.accepted.map stampOf)).unbotD 0

theorem Stamped.of_eq {b b' : MarketInbox} (h : Stamped b) (heq : b'.stamps = b.stamps) :
    Stamped b' := by
  obtain ⟨hcount, hmark, haccepted⟩ : b'.outOfOrder = b.outOfOrder ∧ b'.lastWire = b.lastWire ∧
      b'.chan.accepted = b.chan.accepted := by
    simpa [MarketInbox.stamps] using heq
  refine ⟨?_, ?_⟩
  · rw [hcount, haccepted, h.count]
  · rw [hmark, haccepted, h.mark]

/-- No stamp is zero, so the mark is zero only when there is none. -/
theorem highWater_ne_zero (l : List PushUpdate) : highWater (l.map stampOf) ≠ ((0 : Time) : WithBot Time) := by
  intro h
  have hmem := List.maximum_mem h
  rw [List.reduceOption_mem_iff, List.mem_map] at hmem
  obtain ⟨u, -, hu⟩ := hmem
  rw [stampOf] at hu
  split at hu
  · cases hu
  · rename_i hne
    exact hne (Option.some.inj hu)

/-- **An update is late** if it is behind the mark. -/
theorem Stamped.isLate_eq {b : MarketInbox} (h : Stamped b) (u : PushUpdate) :
    b.isLate u = isBehind (highWater (b.chan.accepted.map stampOf)) (stampOf u) := by
  have hne := highWater_ne_zero b.chan.accepted
  rw [MarketInbox.isLate, h.mark, stampOf]
  split
  · rename_i hzero
    simp [hzero, isBehind]
  · rename_i htime
    cases hmark : highWater (b.chan.accepted.map stampOf) with
    | bot => simp [isBehind]
    | coe m =>
      rw [hmark] at hne
      have hm : m ≠ 0 := fun heq => hne (congrArg _ heq)
      simp only [isBehind, htime, hm, WithBot.unbotD_coe, WithBot.coe_lt_coe, ne_eq,
        not_false_eq_true, decide_true, Bool.true_and]
      exact decide_eq_decide.mpr Iff.rfl

/-- **The first action of a delivery** keeps count and mark. -/
theorem Stamped.accept {b b' : MarketInbox} (h : Stamped b) {now : Time}
    (heq : b'.stamps = ((b.noteTimes now u).outOfOrder, (b.noteTimes now u).lastWire,
      b.chan.accepted ++ [u])) : Stamped b' := by
  obtain ⟨hcount, hmark, haccepted⟩ : b'.outOfOrder = (b.noteTimes now u).outOfOrder ∧
      b'.lastWire = (b.noteTimes now u).lastWire ∧ b'.chan.accepted = b.chan.accepted ++ [u] := by
    simpa [MarketInbox.stamps] using heq
  have hlate := h.isLate_eq u
  refine ⟨?_, ?_⟩
  · rw [hcount, haccepted, List.map_append, List.map_singleton, disorder_concat, ← hlate, ← h.count,
      MarketInbox.noteTimes]
    cases b.isLate u <;> rfl
  · rw [hmark, haccepted, List.map_append, List.map_singleton, MarketInbox.noteTimes]
    by_cases hzero : u.time = 0
    · rw [stampOf, if_pos hzero, highWater_concat_none, ← h.mark]
      simp [hzero]
    · rw [stampOf, if_neg hzero] at hlate ⊢
      rw [highWater_concat_some, ← hlate]
      cases hbehind : b.isLate u with
      | true => simp [h.mark]
      | false => simp [hzero]

variable {ev : Action}

section

variable [UnicodeTables]

theorem stamped_step {s s' : System} {sub : SubId} (h : Stamped (s.shared.markets sub))
    (hstep : step s ev = some s') : Stamped (s'.shared.markets sub) := by
  have hcases := Program.step_cases hstep
  cases hcases with
  | act ht hdoes =>
    cases does_market sub hdoes with
    | quiet heq | stamp err heq => exact h.of_eq heq
    | accept u now heq => exact h.accept heq
  | lock ht => exact h
  | unlock ht => exact h

/-- **The count is the disorder** of what was accepted, in every state of every run. -/
theorem stamped_run (market trade transport : Bool) (n : ℤ) (run : List Action) :
    Always step (fun s => ∀ sub, Stamped (s.shared.markets sub))
      (init market trade transport n) run :=
  always_of_step (fun _ _ _ h hstep sub => stamped_step (h sub) hstep) (fun _ => ⟨rfl, rfl⟩) run

/-! ## The report -/

/-- The error that an event hands to `report` for the subscription. -/
def lateError (sub : SubId) (s : System) (ev : Action) (_ : System) : List StreamError :=
  match s.code ev.thread with
  | .act a => a.lateError sub s.shared
  | _ => []

/-- **Where the report of the first update out of order is**: there is none yet, one thread has
it in hand, or it was made. -/
inductive Pending (sub : SubId) (s : System) : List StreamError → Prop
  | none : (s.shared.markets sub).outOfOrder = 0 → (∀ t, (s.code t).next.late sub = false) →
      Pending sub s []
  | first (t : ℕ) : 0 < (s.shared.markets sub).outOfOrder → (s.code t).next.late sub = true →
      (∀ t', t' ≠ t → (s.code t').next.late sub = false) → Pending sub s []
  | made (err : StreamError) : 0 < (s.shared.markets sub).outOfOrder →
      (∀ t, (s.code t).next.late sub = false) → Pending sub s [err]

variable {s s' : System} {sub : SubId} {made : List StreamError}

omit [UnicodeTables] in
/-- An event that does not touch the report. -/
theorem Pending.of_eq (h : Pending sub s made)
    (hzero : (s'.shared.markets sub).outOfOrder = 0 ↔ (s.shared.markets sub).outOfOrder = 0)
    (hlate : ∀ t, (s'.code t).next.late sub = (s.code t).next.late sub) : Pending sub s' made := by
  have hpos : 0 < (s.shared.markets sub).outOfOrder → 0 < (s'.shared.markets sub).outOfOrder := by
    omega
  cases h with
  | none hcount hnone =>
    exact .none (hzero.mpr hcount) fun t => (hlate t).trans (hnone t)
  | first t hcount ht hothers =>
    exact .first t (hpos hcount) ((hlate t).trans ht) fun t' ht' => (hlate t').trans (hothers t' ht')
  | made err hcount hnone => exact .made err (hpos hcount) fun t => (hlate t).trans (hnone t)

omit [UnicodeTables] in
/-- The first update out of order is counted, and its report is in hand. -/
theorem Pending.count (h : Pending sub s made) {t : ℕ}
    (hzero : (s.shared.markets sub).outOfOrder = 0)
    (hcount : 0 < (s'.shared.markets sub).outOfOrder) (ht : (s'.code t).next.late sub = true)
    (hothers : ∀ t', t' ≠ t → s'.code t' = s.code t') : Pending sub s' made := by
  cases h with
  | none _ hnone =>
    refine .first t hcount ht fun t' ht' => ?_
    rw [hothers t' ht']
    exact hnone t'
  | first _ hpos | made _ hpos => exact absurd hzero hpos.ne'

omit [UnicodeTables] in
/-- The report is made by the thread that has it in hand. -/
theorem Pending.make (h : Pending sub s made) {t : ℕ} {err : StreamError}
    (hcount : (s'.shared.markets sub).outOfOrder = (s.shared.markets sub).outOfOrder)
    (ht : (s.code t).next.late sub = true) (ht' : (s'.code t).next.late sub = false)
    (hothers : ∀ t', t' ≠ t → s'.code t' = s.code t') : Pending sub s' (made ++ [err]) := by
  cases h with
  | none _ hnone | made _ _ hnone => exact absurd ht (ne_true_of_eq_false (hnone t))
  | first t₀ hpos _ hrest =>
    have htt : t = t₀ := by
      by_contra hne
      exact absurd ht (ne_true_of_eq_false (hrest t hne))
    subst htt
    refine .made err (hcount ▸ hpos) fun t' => ?_
    by_cases heq : t' = t
    · rw [heq, ht']
    · rw [hothers t' heq]
      exact hrest t' heq

/-- **One event**, and the report that it makes. -/
theorem Pending.step (h : Pending sub s made) (hstep : step s ev = some s') :
    Pending sub s' (made ++ lateError sub s ev s') := by
  rcases Program.step_acts hstep with ⟨a, shared, k, ht, hdoes, rfl⟩ | ⟨hnot, hshared, hnext⟩
  · have hother : ∀ t', t' ≠ ev.thread → ((s.write shared).move ev.thread k).code t' = s.code t' :=
      fun t' => Program.code_step hstep
    generalize hthread : ev.thread = t at ht hother
    have hself : (((s.write shared).move t k).code t).next = k.next := by
      rw [State.move_code_self]
    have hlate : k.next.late sub = a.late sub → ∀ t',
        (((s.write shared).move t k).code t').next.late sub = (s.code t').next.late sub := by
      intro heq t'
      by_cases htt : t' = t
      · rw [htt, hself, ht]
        exact heq
      · rw [hother t' htt]
    simp only [lateError, hthread, ht]
    cases does_market sub hdoes with
    | quiet heq hsame herr =>
      rw [herr, List.append_nil]
      have hcount : (((s.write shared).move t k).shared.markets sub).outOfOrder =
          (s.shared.markets sub).outOfOrder := (Prod.ext_iff.mp heq).1
      exact h.of_eq (by rw [hcount]) (hlate hsame)
    | accept u now heq ha hb herr =>
      rw [herr, List.append_nil]
      have hcount : (((s.write shared).move t k).shared.markets sub).outOfOrder =
          ((s.shared.markets sub).noteTimes now u).outOfOrder := (Prod.ext_iff.mp heq).1
      by_cases hfirst : (s.shared.markets sub).isLate u = true ∧
          (s.shared.markets sub).outOfOrder = 0
      · refine h.count hfirst.2 ?_ ?_ hother
        · rw [hcount]
          simp [MarketInbox.noteTimes, hfirst.1]
        · rw [hself, hb]
          simp [hfirst]
      · refine h.of_eq ?_ (hlate ?_)
        · rw [hcount]
          simp only [MarketInbox.noteTimes]
          split
          · rename_i hbehind
            exact iff_of_false (Nat.succ_ne_zero _) fun hzero => hfirst ⟨hbehind, hzero⟩
          · rfl
        · rw [ha, hb]
          simpa using hfirst
    | stamp err heq ha hb herr =>
      rw [herr]
      refine h.make (Prod.ext_iff.mp heq).1 ?_ ?_ hother
      · rw [ht]
        exact ha
      · rw [hself]
        exact hb
  · have hnone : lateError sub s ev s' = [] := by
      rw [lateError]
      split
      · rename_i a ha
        exact absurd ha (hnot a)
      · rfl
    rw [hnone, List.append_nil]
    exact h.of_eq (by rw [hshared]) fun t => by rw [hnext t]

/-! ## The channel -/

/-- The update that a delivery has in hand for the subscription. -/
def Guard.inHandFor (p : Port) : Guard → List PushUpdate
  | .offering q u _ => if q = p then [u] else []
  | _ => []

/-- What an event puts into the channel of the subscription. -/
def enqueued (p : Port) (s : System) (_ : Action) (s' : System) : List PushUpdate :=
  (s'.shared.inbox p).chan.through.drop (s.shared.inbox p).chan.through.length

variable {held : List Mutex} {v v' : View} {g g' : Guard} {p : Port} {before : List PushUpdate}

omit [UnicodeTables] in
/-- **A delivery puts its update into the channel**, at once or with its second attempt: what was
accepted is what was put into the channel, and what is in hand. -/
theorem Effect.enqueue (h : Effect held v g v' g') (hknows : Knows v g)
    (haccepted : (v.inbox p).chan.accepted = before ++ g.inHandFor p) :
    (v'.inbox p).chan.accepted = before ++
      (v'.inbox p).chan.through.drop (v.inbox p).chan.through.length ++ g'.inHandFor p := by
  have hquiet : (v'.inbox p).chan.accepted = (v.inbox p).chan.accepted ∧
      (v'.inbox p).chan.through.length ≤ (v.inbox p).chan.through.length →
      g'.inHandFor p = g.inHandFor p → (v'.inbox p).chan.accepted = before ++
        (v'.inbox p).chan.through.drop (v.inbox p).chan.through.length ++ g'.inHandFor p := by
    intro ⟨hsame, hle⟩ hhand
    rw [List.drop_eq_nil_of_le hle, List.append_nil, hhand, hsame, haccepted]
  have hset {q : Port} {b : Inbox} := View.rel_setInbox (v := v) (p := p) (q := q) (b := b)
    (P := fun b b' =>
      b'.chan.accepted = b.chan.accepted ∧ b'.chan.through.length ≤ b.chan.through.length)
    fun _ => ⟨rfl, le_rfl⟩
  cases h with
  | @send q u now _ _ hroom =>
    by_cases hpq : p = q
    · subst hpq
      have hnow : (v.inbox p).chan.accepted = before := by rw [haccepted]; exact List.append_nil _
      rw [v.inbox_self, Lossy.send_through hroom, List.drop_left]
      simp [Lossy.send, hnow, Guard.inHandFor]
    · exact hquiet (by simp [hpq]) rfl
  | @sendFull q u now _ _ hfull =>
    by_cases hpq : p = q
    · subst hpq
      have hnow : (v.inbox p).chan.accepted = before := by rw [haccepted]; exact List.append_nil _
      rw [v.inbox_self, Lossy.send_through_full hfull, List.drop_length]
      simp [Lossy.send, hnow, Guard.inHandFor]
    · exact hquiet (by simp [hpq]) (if_neg (Ne.symm hpq))
  | discard =>
    exact hquiet (hset ⟨(Lossy.discard_same _).2.2.1, (Lossy.discard_through _).length_le⟩) rfl
  | @resend q u raised hraised =>
    by_cases hpq : p = q
    · subst hpq
      have hroom := hknows.room rfl
      rw [Guard.inHandFor, if_pos rfl] at haccepted
      rw [v.inbox_self, Lossy.resend_through hroom, List.drop_left, Lossy.resend_accepted, haccepted]
      exact (List.append_nil _).symm
    · exact hquiet (by simp [hpq]) (if_neg (Ne.symm hpq)).symm
  | shutdown => exact hquiet (hset ⟨rfl, le_rfl⟩) rfl
  | receive =>
    exact hquiet (hset ⟨(Lossy.receive_same _).1, (congrArg _ (Lossy.receive_through _)).le⟩) rfl
  | _ => exact hquiet ⟨rfl, le_rfl⟩ rfl

omit [UnicodeTables] in
/-- Without the lock of the subscription nothing is accepted. -/
theorem Effect.accepted_of_free (h : Effect held v g v' g') (hfree : .port p ∉ held) :
    (v'.inbox p).chan.accepted = (v.inbox p).chan.accepted := by
  have hset {q : Port} {b : Inbox} := View.rel_setInbox (v := v) (p := p) (q := q) (b := b)
    (P := fun b b' => b'.chan.accepted = b.chan.accepted) fun _ => rfl
  cases h with
  | @send q u now hheld | @sendFull q u now hheld =>
    have hpq : p ≠ q := fun hpq => hfree (hpq ▸ hheld)
    rw [v.inbox_of_ne hpq]
  | discard => exact hset (Lossy.discard_same _).2.2.1
  | resend => exact hset (Lossy.resend_accepted _ _ _)
  | shutdown => exact hset rfl
  | receive => exact hset (Lossy.receive_same _).1
  | _ => rfl

/-- What was accepted is what was put into the channel, and what one thread has in hand. -/
def Enqueued (p : Port) (s : System) (before : List PushUpdate) : Prop :=
  ∃ t, (s.shared.inbox p).chan.accepted = before ++ (s.code t).next.guard.inHandFor p ∧
    ∀ t', t' ≠ t → (s.code t').next.guard.inHandFor p = []

omit [UnicodeTables] in
/-- A thread with an update in hand holds the lock of the subscription. -/
theorem Good.port_held (h : Good s) {t : ℕ} (ht : (s.code t).next.guard.inHandFor p ≠ []) :
    .port p ∈ plan.heldAt (s.code t) := by
  refine (h.locked.fits t).kept _ ?_
  rw [plan_kept]
  cases hguard : (s.code t).next.guard with
  | offering q u discarded =>
    rw [hguard, Guard.inHandFor] at ht
    obtain rfl : q = p := by
      by_contra hne
      exact ht (if_neg hne)
    exact List.mem_singleton_self _
  | _ =>
    rw [hguard] at ht
    exact absurd rfl ht

/-- **One event**, and what it puts into the channel. -/
theorem Enqueued.step (h : Enqueued p s before) (hgood : Good s) (hstep : step s ev = some s') :
    Enqueued p s' (before ++ enqueued p s ev s') := by
  obtain ⟨t₀, haccepted, hrest⟩ := h
  rcases Program.step_acts hstep with ⟨a, shared, k, ht, hdoes, rfl⟩ | ⟨-, hshared, hnext⟩
  · have hother : ∀ t', t' ≠ ev.thread → ((s.write shared).move ev.thread k).code t' = s.code t' :=
      fun t' => Program.code_step hstep
    rw [enqueued]
    generalize ev.thread = t at ht hother ⊢
    have heffect := (does_spec hdoes).effect
    have hknows := hgood.knows_act ht
    have hnone : t₀ ≠ t → a.guard.inHandFor p = [] := by
      intro hne
      have hempty := hrest t hne.symm
      rwa [ht] at hempty
    by_cases hhand : t₀ ≠ t ∧ (s.code t₀).next.guard.inHandFor p ≠ []
    · -- another thread has an update in hand, and with it the lock of the subscription
      have hfree : .port p ∉ a.held := by
        intro hheld
        refine hhand.1 (hgood.locked.exclusive (hgood.port_held hhand.2) ?_)
        rw [ht]
        exact hheld
      have hsame : (shared.inbox p).chan.accepted = (s.shared.inbox p).chan.accepted :=
        heffect.accepted_of_free hfree
      have hadded : (shared.inbox p).chan.accepted = (s.shared.inbox p).chan.accepted ++
          (shared.inbox p).chan.through.drop (s.shared.inbox p).chan.through.length ++
            k.next.guard.inHandFor p := by
        refine heffect.enqueue hknows ?_
        rw [hnone hhand.1, List.append_nil]
        rfl
      rw [hsame, List.append_assoc, List.self_eq_append_right, List.append_eq_nil_iff] at hadded
      refine ⟨t₀, ?_, fun t' ht' => ?_⟩
      · rw [hother t₀ hhand.1, State.move_shared, State.write_shared, hadded.1, List.append_nil, hsame]
        exact haccepted
      · by_cases htt : t' = t
        · rw [htt, State.move_code_self]
          exact hadded.2
        · rw [hother t' htt]
          exact hrest t' ht'
    · -- this thread has one in hand, or none has
      have hempty : t₀ ≠ t → (s.code t₀).next.guard.inHandFor p = [] := by
        intro hne
        by_contra hsome
        exact hhand ⟨hne, hsome⟩
      have hmine : (s.shared.inbox p).chan.accepted = before ++ a.guard.inHandFor p := by
        by_cases hself : t₀ = t
        · rw [hself, ht] at haccepted
          exact haccepted
        · rw [haccepted, hempty hself, hnone hself]
      refine ⟨t, ?_, fun t' ht' => ?_⟩
      · rw [State.move_code_self]
        exact heffect.enqueue hknows hmine
      · rw [hother t' ht']
        by_cases hself : t' = t₀
        · rw [hself]
          exact hempty (hself ▸ ht')
        · exact hrest t' hself
  · refine ⟨t₀, ?_, fun t' ht' => ?_⟩
    · rw [enqueued, hshared, hnext, List.drop_length, List.append_nil]
      exact haccepted
    · rw [hnext]
      exact hrest t' ht'

/-! ## Whole runs -/

/-- What a run has put into the channel of a subscription. -/
def enqueuedBy (p : Port) (s : System) (run : List Action) : List PushUpdate :=
  gather step (enqueued p) s run

/-- The reports of `ErrUpdateOutOfOrder` that a run has made for a subscription. -/
def lateReports (sub : SubId) (s : System) (run : List Action) : List StreamError :=
  gather step (lateError sub) s run

variable {market trade transport : Bool} {n : ℤ} {run : List Action}

omit [UnicodeTables] in
/-- At first every thread is at rest. -/
theorem init_code (market trade transport : Bool) (n : ℤ) (t : ℕ) :
    (init market trade transport n).code t = .act .idle ∨
      (init market trade transport n).code t = .act .drain := by
  by_cases h : t = 0 ∧ transport = true
  · exact .inr (if_pos h)
  · exact .inl (if_neg h)

theorem enqueued_run (p : Port) (hrun : exec step (init market trade transport n) run = some s) :
    Enqueued p s (enqueuedBy p (init market trade transport n) run) := by
  have hhand : ∀ t, ((init market trade transport n).code t).next.guard.inHandFor p = [] := by
    intro t
    rcases init_code market trade transport n t with h | h <;> rw [h] <;> rfl
  have hempty : ((init market trade transport n).shared.inbox p).chan.accepted = [] := by
    cases p <;> rfl
  have hinit : Good (init market trade transport n) ∧
      Enqueued p (init market trade transport n) [] := by
    refine ⟨good_init market trade transport n, 0, ?_, fun t _ => hhand t⟩
    rw [hempty, hhand, List.append_nil]
  have hkeep : ∀ (s : System) (ev : Action) (s' : System) (before : List PushUpdate),
      Good s ∧ Enqueued p s before → step s ev = some s' →
        Good s' ∧ Enqueued p s' (before ++ enqueued p s ev s') :=
    fun s ev s' before h hstep => ⟨good_step h.1 hstep, h.2.step h.1 hstep⟩
  exact (gather_inv hkeep hinit hrun).2

theorem pending_run (sub : SubId) (hrun : exec step (init market trade transport n) run = some s) :
    Pending sub s (lateReports sub (init market trade transport n) run) := by
  refine gather_inv (fun s ev s' before h hstep => h.step hstep) (.none rfl fun t => ?_) hrun
  rcases init_code market trade transport n t with h | h <;> rw [h] <;> rfl

omit [UnicodeTables] in
theorem Act.delivers_of_late {a : Act} (h : a.late sub = true) : a.delivers sub = true := by
  cases a with
  | deliverTo u now sub' targets attempt =>
    cases attempt with
    | send => cases h
    | _ => exact (Bool.and_eq_true_iff.mp h).1
  | wireStamp u now sub' targets => exact h
  | _ => cases h

omit [UnicodeTables] in
theorem Act.inHandFor_eq_nil {a : Act} (h : a.delivers sub = false) :
    a.guard.inHandFor (.market sub) = [] := by
  cases a with
  | deliverTo u now sub' targets attempt =>
    have hne : Port.market sub' ≠ .market sub := by
      rintro ⟨⟩
      simp [Act.delivers] at h
    cases attempt with
    | send => rfl
    | _ => exact if_neg hne
  | deliverOrderTo u now ord targets attempt => cases attempt <;> rfl
  | shutdowns _ _ after | shutdown _ _ _ after | shutdownOrder _ _ after => cases after <;> rfl
  | _ => rfl

/-- **`OutOfOrder` is the disorder count.** At the end of every run without a delivery to the
subscription under way, the count is the number of updates that are stamped before the latest stamp
accepted before them, every update that was accepted was put into the channel, and
`ErrUpdateOutOfOrder` was reported once if the count is positive and not at all otherwise. -/
theorem outOfOrder_exact (sub : SubId)
    (hrun : exec step (init market trade transport n) run = some s)
    (hidle : ∀ t, (s.code t).next.delivers sub = false) :
    (s.shared.markets sub).outOfOrder =
        disorder ((s.shared.markets sub).chan.accepted.map stampOf) ∧
      enqueuedBy (.market sub) (init market trade transport n) run =
        (s.shared.markets sub).chan.accepted ∧
      (lateReports sub (init market trade transport n) run).length =
        if 0 < (s.shared.markets sub).outOfOrder then 1 else 0 := by
  refine ⟨((stamped_run market trade transport n run).last hrun sub).count, ?_, ?_⟩
  · obtain ⟨t, haccepted, -⟩ := enqueued_run (.market sub) hrun
    rw [Act.inHandFor_eq_nil (hidle t), List.append_nil] at haccepted
    exact haccepted.symm
  · have hpending := pending_run sub hrun
    generalize lateReports sub (init market trade transport n) run = made at hpending ⊢
    cases hpending with
    | none hzero => simp [hzero]
    | first t _ hlate => exact absurd (Act.delivers_of_late hlate) (ne_true_of_eq_false (hidle t))
    | made err hpos => simp [hpos]

end

/-- A quote with a wire time. -/
def quoteAt (time : Time) : PushUpdate :=
  ⟨basicQotNotifyMsgType, bytes "00700.HK", time, some (.quote (bytes "00700.HK") [])⟩

/-- A subscription gets a quote that is stamped 2 and then one that is stamped 1. -/
def lateQuote : List Action :=
  .call 1 (.subscribe topicBasicQot [some ⟨10000, bytes "00700.HK"⟩]) ::
    List.replicate 6 (.run 1 none) ++ .call 1 (.dispatch (quoteAt 2) 1) ::
    List.replicate 9 (.run 1 none) ++ .call 1 (.dispatch (quoteAt 1) 2) ::
    List.replicate 17 (.run 1 none)

theorem outOfOrder_exact_lateQuote : ∃ s,
    exec (@step asciiTables) (init true true true 0) lateQuote = some s ∧
      (∀ t, (s.code t).next.delivers 0 = false) ∧
      (s.shared.markets 0).chan.accepted = [quoteAt 2, quoteAt 1] ∧
      (s.shared.markets 0).outOfOrder = 1 ∧
      (s.shared.markets 0).outOfOrder = disorder ([quoteAt 2, quoteAt 1].map stampOf) ∧
      @enqueuedBy asciiTables (.market 0) (init true true true 0) lateQuote =
        [quoteAt 2, quoteAt 1] ∧
      (@lateReports asciiTables 0 (init true true true 0) lateQuote).length = 1 := by
  obtain ⟨s, hs, hidle, haccepted, hcount⟩ : ∃ s,
      exec (@step asciiTables) (init true true true 0) lateQuote = some s ∧
      (∀ ev ∈ lateQuote, (s.code ev.thread).next.delivers 0 = false) ∧
      (s.shared.markets 0).chan.accepted = [quoteAt 2, quoteAt 1] ∧
      (s.shared.markets 0).outOfOrder = 1 := exec_exists (by decide +kernel)
  have hrest : ∀ t, (s.code t).next.delivers 0 = false := by
    refine Program.forall_next (p := fun a => a.delivers 0 = false) hs (fun t => ?_) hidle
    rcases init_code true true true 0 t with h | h <;> rw [h] <;> rfl
  obtain ⟨hdisorder, henqueued, hreports⟩ :=
    @outOfOrder_exact asciiTables s true true true 0 lateQuote 0 hs hrest
  rw [haccepted] at hdisorder henqueued
  rw [hcount, if_pos Nat.zero_lt_one] at hreports
  exact ⟨s, hs, hrest, haccepted, hcount, hdisorder, henqueued, hreports⟩

end HstongApi.PushSystem
