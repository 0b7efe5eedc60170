import HstongApi.PushExactness
import Mathlib.Data.Fintype.Basic

/-!
# What the Gateway serves

The Gateway keeps one set of subscribed pairs of a topic and an instrument. The registry
counts subscribers per canonical key, that is per list of instruments: the first one of a
list asks the Gateway to subscribe it and the last one asks to unsubscribe it.

Lists overlap. When the last subscriber of a list leaves, every instrument of the list
goes, also one that a live subscription with another list still asks for. `coverage`
says that this is the only way in which sequential, successful calls lose an instrument
a live subscription asks for, given that equal keys come from equal lists.
-/

namespace HstongApi

section

variable [UnicodeTables]

/-- A `Subscribe` or a `Cancel` whose requests are accepted. -/
def Operation.Succeeds : Operation → Prop
  | .subscribe _ _ reply | .cancel _ reply => reply = none
  | _ => False

instance : DecidablePred Operation.Succeeds
  | .subscribe _ _ reply | .cancel _ reply => inferInstanceAs (Decidable (reply = none))
  | .subscribeOrders .. | .cancelOrder .. | .reconnect .. | .close | .dispatch ..
  | .transportError _ | .receive _ | .receiveOrder _ | .receiveError => .isFalse nofun

namespace World

open PushOrchestration

/-- The Gateway serves all that live subscriptions ask for. -/
def Covered (w : World) : Prop :=
  ∀ i ∈ w.orch.live, ∀ s ∈ (w.orch.subs.get i).securities,
    ((w.orch.subs.get i).topic, s) ∈ w.gateway.pairs

/-- A cancel takes the last subscriber off an entry, and asks the Gateway to unsubscribe
it. -/
structure Releases (w : World) (sub : SubId) (e : EntryId) : Prop where
  isOpen : (w.orch.subs.get sub).closed = false
  found : w.orch.entries.lookup (w.orch.subs.get sub).key = some e
  last : (w.orch.heap.get e).subs.erase sub = []
  subscribed : (w.orch.heap.get e).subscribed = true
  market : w.orch.market = true

/-- No other live subscription of the topic asks for an instrument of the entry that a
cancel releases. -/
def ReleasesAlone (w : World) : Operation → Prop
  | .cancel sub _ => ∀ e, w.Releases sub e → ∀ j ∈ w.orch.live, j ≠ sub →
      (w.orch.subs.get j).topic = (w.orch.heap.get e).topic →
      ∀ s ∈ (w.orch.subs.get j).securities, s ∉ (w.orch.heap.get e).securities
  | _ => True

instance (w : World) : DecidablePred w.FindsSame
  | .subscribe topic sec _ => inferInstanceAs (Decidable (∀ e ∈ w.orch.entries.lookup
      (canonicalPushKey topic sec.reduceOption),
      (w.orch.heap.get e).securities.Perm sec.reduceOption))
  | .cancel .. | .subscribeOrders .. | .cancelOrder .. | .reconnect .. | .close | .dispatch ..
  | .transportError _ | .receive _ | .receiveOrder _ | .receiveError => .isTrue trivial

instance (w : World) (sub : SubId) (e : EntryId) : Decidable (w.Releases sub e) :=
  decidable_of_iff ((w.orch.subs.get sub).closed = false ∧
      w.orch.entries.lookup (w.orch.subs.get sub).key = some e ∧
      (w.orch.heap.get e).subs.erase sub = [] ∧ (w.orch.heap.get e).subscribed = true ∧
      w.orch.market = true)
    ⟨fun ⟨h₁, h₂, h₃, h₄, h₅⟩ => ⟨h₁, h₂, h₃, h₄, h₅⟩, fun ⟨h₁, h₂, h₃, h₄, h₅⟩ => ⟨h₁, h₂, h₃, h₄, h₅⟩⟩

instance (w : World) : DecidablePred w.ReleasesAlone
  | .cancel sub _ =>
    decidable_of_iff (∀ e ∈ w.orch.entries.lookup (w.orch.subs.get sub).key, w.Releases sub e →
        ∀ j ∈ List.range w.orch.subs.size, (w.orch.subs.get j).closed = false → j ≠ sub →
        (w.orch.subs.get j).topic = (w.orch.heap.get e).topic →
        ∀ s ∈ (w.orch.subs.get j).securities, s ∉ (w.orch.heap.get e).securities)
      ⟨fun h e he j hj => h e he.found he j (List.mem_range.mpr hj.1) hj.2,
        fun h e _ he j hlt hj => h e he j ⟨List.mem_range.mp hlt, hj⟩⟩
  | .subscribe .. | .subscribeOrders .. | .cancelOrder .. | .reconnect .. | .close | .dispatch ..
  | .transportError _ | .receive _ | .receiveOrder _ | .receiveError => .isTrue trivial

variable {w : World}

/-- What an accepted cancel of an open subscription does to the Gateway. -/
theorem cancel_gateway {sub : SubId} (hopen : (w.orch.subs.get sub).closed = false) :
    (w.cancel sub none).1.gateway = w.gateway ∧ (∀ e, ¬ w.Releases sub e) ∨
      ∃ e, w.Releases sub e ∧ (w.cancel sub none).1.gateway =
        w.gateway.unsubscribe (w.orch.heap.get e).topic (w.orch.heap.get e).securities := by
  rw [cancel, hopen, if_neg Bool.false_ne_true]
  cases hfound : w.orch.entries.lookup (w.orch.subs.get sub).key with
  | none =>
    rw [detachLocked_of_lookup_none hfound]
    refine .inl ⟨rfl, fun e h => ?_⟩
    rw [h.found] at hfound
    cases hfound
  | some e =>
    have huniq : ∀ e', w.Releases sub e' → e' = e := fun e' h =>
      Option.some.inj (h.found.symm.trans hfound)
    rw [detachLocked_of_lookup hfound]
    by_cases hlast : (w.orch.heap.get e).subs.erase sub = []
    · have hentry : (w.orch.heap.modify e fun entry =>
          { entry with subs := (w.orch.heap.get e).subs.erase sub }).get e =
          { w.orch.heap.get e with subs := (w.orch.heap.get e).subs.erase sub } := by
        rw [Heap.get_modify, if_pos rfl]
      simp only [if_pos hlast, PushOrchestration.shutdown, hentry]
      by_cases hsent : (w.orch.heap.get e).subscribed = true ∧ w.orch.market = true
      · refine .inr ⟨e, ⟨hopen, hfound, hlast, hsent.1, hsent.2⟩, ?_⟩
        simp [hsent.1, hsent.2]
      · refine .inl ⟨?_, fun e' h => hsent ?_⟩
        · rw [if_pos]
          simpa [Bool.or_eq_true, imp_iff_not_or] using hsent
        · exact huniq e' h ▸ ⟨h.subscribed, h.market⟩
    · simp only [if_neg hlast]
      exact .inl ⟨trivial, fun e' h => hlast (huniq e' h ▸ h.last)⟩

/-- A subscribe for instruments that are registered finds them served. -/
theorem covered_subscribe (h : w.orch.Exact) (hcovered : w.Covered) {topic : TopicID}
    {sec : List (Option Security)} (hsame : w.FindsSame (.subscribe topic sec none)) :
    (w.subscribe topic sec none).1.Covered := by
  rcases w.subscribe_cases topic sec none with heq | ⟨msgType, securities, found, hcheck, hfound, heq⟩
  · rw [heq]
    exact hcovered
  obtain ⟨-, -, -, rfl, -, -⟩ := checkSubscribe_ok hcheck
  rw [FindsSame, reduceOption_map_some] at hsame
  rw [heq]
  intro i hi s hs
  simp only [live_register, register_subs] at hi hs ⊢
  rw [Heap.get_alloc] at hs ⊢
  rcases hi with rfl | hi
  · rw [if_pos rfl] at hs ⊢
    cases found with
    | none => exact Gateway.mem_subscribe.mpr (.inl ⟨rfl, hs⟩)
    | some e =>
      -- some subscription of the entry is live, so the Gateway serves the entry's list
      obtain ⟨j, hj⟩ := List.exists_mem_of_ne_nil _ (h.noEmptyEntry _ e hfound)
      obtain ⟨hlive, hkey⟩ := (h.holds.mem_entry _ e hfound j).mp hj
      have hperm := h.holds.same j hlive e (hkey ▸ hfound)
      have hj := hcovered j hlive s (hperm.subset ((hsame e hfound).symm.subset hs))
      rw [(canonicalPushKey_cut hkey).1] at hj
      exact hj
  · have hne : i ≠ w.orch.subs.size := fun heq => Nat.lt_irrefl _ (heq ▸ hi.1)
    rw [if_neg hne] at hs ⊢
    have hserved := hcovered i hi s hs
    split
    · exact hserved
    · exact Gateway.mem_subscribe.mpr (.inr hserved)

/-- A cancel loses nothing a live subscription asks for exactly when it releases alone. -/
theorem covered_cancel_iff (hcovered : w.Covered) {sub : SubId}
    (hsub : sub < w.orch.subs.size) :
    (w.cancel sub none).1.Covered ↔ w.ReleasesAlone (.cancel sub none) := by
  cases hopen : (w.orch.subs.get sub).closed with
  | true =>
    refine iff_of_true ?_ fun e he => ?_
    · rw [cancel, hopen]
      exact hcovered
    · rw [he.isOpen] at hopen
      cases hopen
  | false =>
    have hstep : w.step (.cancel sub none) = some (w.cancel sub none).1 := if_pos hsub
    have hkeeps := step_keeps hstep (by rintro _ _ _ ⟨⟩) (by rintro _ _ ⟨⟩)
    rw [Covered]
    simp only [live_cancel w hopen, hkeeps.topic, hkeeps.securities]
    rcases cancel_gateway hopen with ⟨hgateway, hnone⟩ | ⟨e, he, hgateway⟩
    · rw [hgateway]
      exact iff_of_true (fun i hi => hcovered i hi.1) fun e he => absurd he (hnone e)
    · rw [hgateway]
      -- the request takes out exactly the pairs of the released entry
      refine ⟨fun h e' he' j hj hne htopic s hs hmem => ?_, fun h i hi s hs => ?_⟩
      · obtain rfl : e' = e := Option.some.inj (he'.found.symm.trans he.found)
        exact (Gateway.mem_unsubscribe.mp (h j ⟨hj, hne⟩ s hs)).2 ⟨htopic, hmem⟩
      · refine Gateway.mem_unsubscribe.mpr ⟨hcovered i hi.1 s hs, ?_⟩
        rintro ⟨htopic, hmem⟩
        exact h e he i hi.1 hi.2 htopic s hs hmem

/-- **One call.** From a covered state a successful call leads to a covered state exactly
when it releases alone. -/
theorem covered_step_iff (h : w.orch.Exact) (hcovered : w.Covered) {op : Operation}
    (hsucceeds : op.Succeeds) (hsame : w.FindsSame op) {w' : World} (hstep : w.step op = some w') :
    w'.Covered ↔ w.ReleasesAlone op := by
  cases op with
  | subscribe topic sec reply =>
    obtain rfl : reply = none := hsucceeds
    cases hstep
    exact iff_of_true (covered_subscribe h hcovered hsame) trivial
  | cancel sub reply =>
    obtain rfl : reply = none := hsucceeds
    obtain ⟨hsub, heq⟩ := Option.ite_none_right_eq_some.mp hstep
    cases heq
    exact covered_cancel_iff hcovered hsub
  | _ => exact hsucceeds.elim

end World

/-- **Coverage, exactly.** Consider successful calls of which each subscribe finds an entry
for its own instruments, or none. The Gateway serves all live subscriptions throughout
when each cancel releases alone, and only then. -/
theorem coverage {market trade transport : Bool} {n : ℤ} {run : List Operation}
    (hrun : ∀ op ∈ run, op.Succeeds) :
    (EachStep World.step (fun w op => w.FindsSame op ∧ w.ReleasesAlone op)
        (World.init market trade transport n) run →
      Always World.step World.Covered (World.init market trade transport n) run) ∧
    (EachStep World.step World.FindsSame (World.init market trade transport n) run →
      Always World.step World.Covered (World.init market trade transport n) run →
      EachStep World.step World.ReleasesAlone (World.init market trade transport n) run) := by
  have hiff : EachStep World.step World.FindsSame (World.init market trade transport n) run →
      (Always World.step World.Covered (World.init market trade transport n) run ↔
        EachStep World.step World.ReleasesAlone (World.init market trade transport n) run) := by
    intro hsame
    have hsucceed : EachStep World.step (fun _ op => op.Succeeds)
        (World.init market trade transport n) run :=
      EachStep.of_forall (fun op hop _ => hrun op hop) _
    refine (hsucceed.and hsame).always_iff
      (fun w (h : w.orch.Exact ∧ w.Covered) => h.2)
      (fun w op w' h ha hcond hstep => ⟨World.exact_step h.1 ha.2 hstep,
        (World.covered_step_iff h.1 h.2 ha.1 ha.2 hstep).mpr hcond⟩)
      (fun w op w' h ha hstep => (World.covered_step_iff h.1 h.2 ha.1 ha.2 hstep).mp)
      ⟨World.exact_init market trade transport n, ?_⟩
    exact fun i hi => absurd hi.1 (Nat.not_lt_zero i)
  refine ⟨fun h => ?_, fun hsame => (hiff hsame).mp⟩
  exact (hiff (h.mono fun _ _ ha => ha.1)).mpr (h.mono fun _ _ ha => ha.2)

end

/-- Two subscribers of one list and one of another; two of them leave, and the list that
is left is asked for again. -/
def sharedRun : List Operation :=
  [.subscribe topicTicker [some ⟨10000, bytes "00700"⟩, some ⟨20000, bytes "AAPL"⟩] none,
    .subscribe topicTicker [some ⟨20000, bytes "AAPL"⟩, some ⟨10000, bytes "00700"⟩] none,
    .subscribe topicTicker [some ⟨10000, bytes "00005"⟩] none, .cancel 0 none, .cancel 2 none,
    .subscribe topicTicker [some ⟨20000, bytes "AAPL"⟩, some ⟨10000, bytes "00700"⟩] none]

theorem coverage_sharedRun :
    Always (@World.step asciiTables) World.Covered (World.init true true true 0) sharedRun :=
  (@coverage asciiTables true true true 0 sharedRun (by decide)).1 (by decide +kernel)

/-- A list, a longer list, and a cancel of the longer one. -/
def overlapRun : List Operation :=
  [.subscribe topicTicker [some ⟨10000, bytes "00700"⟩] none,
    .subscribe topicTicker [some ⟨10000, bytes "00700"⟩, some ⟨10000, bytes "00005"⟩] none,
    .cancel 1 none]

/-- The Gateway drops an instrument that the first subscription still asks for. -/
theorem overlap_uncovers : (∀ op ∈ overlapRun, op.Succeeds) ∧
    ∃ w, exec (@World.step asciiTables) (World.init true true true 0) overlapRun = some w ∧
      ¬ w.Covered := by
  obtain ⟨w, hw, hlive, hasks, hlost⟩ : ∃ w,
      exec (@World.step asciiTables) (World.init true true true 0) overlapRun = some w ∧
      (0 < w.orch.subs.size ∧ (w.orch.subs.get 0).closed = false) ∧
      ⟨10000, bytes "00700"⟩ ∈ (w.orch.subs.get 0).securities ∧
      ((w.orch.subs.get 0).topic, ⟨10000, bytes "00700"⟩) ∉ w.gateway.pairs :=
    exec_exists (by decide +kernel)
  exact ⟨by decide, w, hw, fun h => hlost (h 0 hlive _ hasks)⟩

end HstongApi
