import HstongApi.PushEntries
import HstongApi.PushThreads

/-!
# Registry and Gateway agree on one key, if no unsubscribe comes late

`Subscribe` makes its request inside the critical section, so no other `Subscribe` or
`Cancel` of the key comes between the request and the registration. The last `Cancel`
makes its request after the section. By then a `Subscribe` may have found the key free,
made its request and registered: the late request turns the Gateway off under a live
subscription.

All calls here are for one topic and one list of instruments, and all requests are
accepted. `agreement` says that registry and Gateway agree whenever all threads are idle,
if each request to unsubscribe reaches the Gateway while the registry has no entry for
the key and no `Subscribe` is between its request and its registration.
-/

namespace HstongApi.PushThreads

open Threads PushOrchestration

/-! ## The system for one key -/

/-- The Gateway serves all instruments of the list. -/
def Serves (topic : TopicID) (securities : List Security) (s : Shared) : Prop :=
  ∀ x ∈ securities, (topic, x) ∈ s.gateway.pairs

/-- The registry has an entry for the key. -/
def HasEntry (topic : TopicID) (securities : List Security) (s : Shared) : Prop :=
  (s.orch.entries.lookup (canonicalPushKey topic securities)).isSome = true

/-- A call of `Subscribe` for the key or of `Cancel`, or an action whose request is
accepted. -/
def OneKey (topic : TopicID) (securities : List Security) : Action → Prop
  | .call _ (.subscribe t sec) => t = topic ∧ sec = securities.map some
  | .call _ (.cancel _) => True
  | .call _ _ => False
  | .run _ reply => reply = none

instance (topic : TopicID) (securities : List Security) : DecidablePred (OneKey topic securities) := by
  rintro (⟨_, _ | _⟩ | _) <;> dsimp only [OneKey] <;> infer_instance

/-- The entry a thread is about to unsubscribe. -/
def unsubscribing : Point Section Work → Option EntryId
  | .work (.cancelRequest e) => some e
  | _ => none

/-- The `Subscribe` of a thread between its request and its registration. -/
def registering : Point Section Work → Option Request
  | .inside (.register q none) => some q
  | _ => none

/-- A request to unsubscribe an entry is made while the registry has none under its key,
and the holder of `subMu` is not about to register one. -/
def UnsubscribesFree (s : System) : Action → Prop
  | .run t _ => ∀ e ∈ unsubscribing (s.point t),
      s.shared.orch.entries.lookup (s.shared.orch.heap.get e).key = none ∧
        ∀ t' ∈ s.holder .subMu, ∀ q ∈ registering (s.point t'),
          q.key ≠ (s.shared.orch.heap.get e).key
  | .call _ _ => True

instance (s : System) : DecidablePred (UnsubscribesFree s) := by
  rintro (_ | _) <;> dsimp only [UnsubscribesFree] <;> infer_instance

section

variable {topic : TopicID} {securities : List Security}

/-! ## The outline -/

/-- All entries are for the key, and the Gateway serves the one that is registered. -/
structure ForKey (topic : TopicID) (securities : List Security) (s : Shared) : Prop where
  entry : ∀ e < s.orch.heap.size, (s.orch.heap.get e).topic = topic ∧
    (s.orch.heap.get e).securities = securities ∧ (s.orch.heap.get e).subscribed = true
  market : 0 < s.orch.heap.size → s.orch.market = true
  found_lt : ∀ k e, s.orch.entries.lookup k = some e → e < s.orch.heap.size
  serves : HasEntry topic securities s → Serves topic securities s

/-- A `Subscribe` for the key has passed its checks. -/
def AsksKey (topic : TopicID) (securities : List Security) (s : Shared) (q : Request) : Prop :=
  q.topic = topic ∧ q.securities = securities ∧ s.orch.market = true

/-- What holds before the lock of a section. -/
def KeySection (topic : TopicID) (securities : List Security) (s : Shared) : Section → Prop
  | .lookup q => AsksKey topic securities s q
  | .cancel _ => True
  | _ => False

/-- What holds inside a section. -/
def KeyInside (topic : TopicID) (securities : List Security) (s : Shared) : Section → Prop
  | .lookup q | .request q | .register q (some _) => AsksKey topic securities s q
  | .register q none => AsksKey topic securities s q ∧ Serves topic securities s
  | .cancel _ => True
  | _ => False

/-- What holds outside. -/
def KeyWork (topic : TopicID) (securities : List Security) (s : Shared) : Work → Prop
  | .subscribe t sec => t = topic ∧ sec = securities.map some
  | .cancelShutdown _ last => ∀ e ∈ last, e < s.orch.heap.size
  | .cancelRequest e => e < s.orch.heap.size
  | _ => False

/-- The assertion at a point. -/
abbrev KeyPoint (topic : TopicID) (securities : List Security) : Shared → Point Section Work → Prop :=
  Assertions.atPoint ⟨KeySection topic securities, KeyInside topic securities, KeyWork topic securities⟩

variable {s s' : Shared} {c : Section}

theorem KeySection.inside (h : KeySection topic securities s c) :
    KeyInside topic securities s c := by
  cases c <;> first | exact h | exact h.elim

theorem AsksKey.key {q : Request} (h : AsksKey topic securities s q) :
    q.key = canonicalPushKey topic securities := by
  rw [Request.key, h.1, h.2.1]

/-- The heap of entries grows. -/
structure Grows (s s' : Shared) : Prop where
  heap : s.orch.heap.size ≤ s'.orch.heap.size
  market : s'.orch.market = s.orch.market

theorem KeyPoint.grows (hg : Grows s s') {p : Point Section Work}
    (h : KeyPoint topic securities s p)
    (hserves : ∀ q, p = .inside (.register q none) → Serves topic securities s →
      Serves topic securities s') :
    KeyPoint topic securities s' p := by
  refine h.mono (fun c hc => ?_) (fun k hk => ?_) fun c hp hc => ?_
  · cases c with
    | lookup q => exact ⟨hc.1, hc.2.1, hg.market.trans hc.2.2⟩
    | _ => exact hc
  · cases k with
    | cancelShutdown sub last => exact fun e he => Nat.lt_of_lt_of_le (hk e he) hg.heap
    | cancelRequest e => exact Nat.lt_of_lt_of_le hk hg.heap
    | _ => exact hk
  · cases c with
    | lookup q | request q => exact ⟨hc.1, hc.2.1, hg.market.trans hc.2.2⟩
    | register q found =>
      cases found with
      | some e => exact ⟨hc.1, hc.2.1, hg.market.trans hc.2.2⟩
      | none => exact ⟨⟨hc.1.1, hc.1.2.1, hg.market.trans hc.1.2.2⟩, hserves q hp hc.2⟩
    | _ => exact hc

theorem ForKey.entry_key (h : ForKey topic securities s) {e : EntryId} (he : e < s.orch.heap.size) :
    (s.orch.heap.get e).key = canonicalPushKey topic securities := by
  rw [PushEntry.key, (h.entry e he).1, (h.entry e he).2.1]

/-- An action on single subscriptions. -/
theorem ForKey.keeps (h : ForKey topic securities s) (hkeeps : KeepsMarket s s')
    (hgateway : s'.gateway = s.gateway) : ForKey topic securities s' := by
  refine ⟨?_, ?_, ?_, ?_⟩
  · rw [hkeeps.heap]
    exact h.entry
  · rw [hkeeps.heap, hkeeps.market]
    exact h.market
  · rw [hkeeps.entries, hkeeps.heap]
    exact h.found_lt
  · rw [HasEntry, hkeeps.entries, Serves, hgateway]
    exact h.serves

theorem KeepsMarket.grows (h : KeepsMarket s s') : Grows s s' :=
  ⟨Nat.le_of_eq (congrArg Heap.size h.heap).symm, h.market⟩

/-- An accepted request to subscribe. -/
theorem ForKey.request (h : ForKey topic securities s) :
    ForKey topic securities (s.subscribe topic securities) ∧
      Serves topic securities (s.subscribe topic securities) := by
  have hserves : Serves topic securities (s.subscribe topic securities) :=
    fun x hx => Gateway.mem_subscribe.mpr (.inl ⟨rfl, hx⟩)
  exact ⟨{ h with serves := fun _ => hserves }, hserves⟩

/-- An accepted request to unsubscribe, when there is no entry. -/
theorem ForKey.unsubscribe (h : ForKey topic securities s) (e : EntryId)
    (hnone : ¬ HasEntry topic securities s) : ForKey topic securities (s.unsubscribe e) :=
  { h with serves := fun hentry => absurd hentry hnone }

theorem registering_eq_some {p : Point Section Work} {q : Request} :
    registering p = some q ↔ p = .inside (.register q none) := by
  refine ⟨fun h => ?_, fun h => h ▸ rfl⟩
  unfold registering at h
  split at h <;> cases h
  rfl

/-- The checks of a `Subscribe` for the key pass for the key. -/
theorem asksKey_of_check {msgType : NotifyMsgType} {checked : List Security}
    (h : s.orch.checkSubscribe topic (securities.map some) = .ok (msgType, checked)) :
    AsksKey topic securities s ⟨topic, msgType, checked⟩ := by
  obtain ⟨-, hmarket, -, hmap, -, -⟩ := checkSubscribe_ok h
  exact ⟨rfl, (Option.some_injective _).list_map hmap.symm, hmarket⟩

section

variable [UnicodeTables]

theorem ForKey.addSubscription (h : ForKey topic securities s) (q : Request) (e : EntryId) :
    ForKey topic securities (s.withOrch (s.orch.addSubscription e q.topic q.msgType q.securities)) := by
  refine { h with entry := ?_ }
  intro e' he'
  simp only [Shared.withOrch, addSubscription_get]
  split
  · rename_i hee
    exact h.entry e (hee ▸ he')
  · exact h.entry e' he'

theorem ForKey.register (h : ForKey topic securities s) {q : Request}
    (hq : AsksKey topic securities s q) {found : Option EntryId}
    (hserves : found = none → Serves topic securities s) :
    ForKey topic securities
      (s.withOrch (s.orch.register found q.topic q.msgType q.securities)) := by
  cases found with
  | some e => exact h.addSubscription q e
  | none =>
    have hnew : ForKey topic securities (s.withOrch (s.orch.newEntry q.topic q.securities)) := by
      refine ⟨?_, fun _ => hq.2.2, ?_, fun _ => hserves rfl⟩
      · intro e he
        by_cases hnew : e = s.orch.heap.size
        · simp only [Shared.withOrch, hnew, newEntry_get]
          exact ⟨hq.1, hq.2.1, trivial⟩
        · simp only [Shared.withOrch, newEntry_get_of_ne hnew]
          exact h.entry e (Nat.lt_of_le_of_ne (Nat.le_of_lt_succ he) hnew)
      · intro k e he
        rcases lookup_insert_eq_some.mp he with ⟨-, rfl⟩ | ⟨-, he⟩
        · exact Nat.lt_succ_self _
        · exact Nat.lt_succ_of_lt (h.found_lt k e he)
    exact hnew.addSubscription q s.orch.heap.size

/-- The section of `Cancel` keeps what is registered for the key. -/
theorem ForKey.detachLocked (h : ForKey topic securities s) (sub : SubId) :
    ForKey topic securities (s.takeOver (s.orch.detachLocked sub).1 [sub]) := by
  obtain ⟨-, hsize, hmarket, -⟩ := detachLocked_same s.orch sub
  refine ⟨fun e he => ?_, fun hlt => hmarket.trans (h.market (hsize ▸ hlt)), fun k e he => ?_,
    fun hentry => ?_⟩
  · obtain ⟨subs, -, hget⟩ := get_detachLocked (o := s.orch) sub e
    simp only [Shared.takeOver, hget]
    exact h.entry e (hsize ▸ he)
  · exact Nat.lt_of_lt_of_le (h.found_lt k e (lookup_of_detachLocked he)) hsize.ge
  · obtain ⟨e, he⟩ := Option.isSome_iff_exists.mp hentry
    exact h.serves (Option.isSome_iff_exists.mpr ⟨e, lookup_of_detachLocked he⟩)

/-- The section of `Cancel`: when it removes the entry, it reports it. -/
theorem ForKey.cancel (h : ForKey topic securities s) (sub : SubId) :
    ForKey topic securities (s.takeOver (s.orch.detachLocked sub).1 [sub]) ∧
      (∀ e ∈ (s.orch.detachLocked sub).2, e < s.orch.heap.size) ∧
      ((s.orch.detachLocked sub).2 = none → HasEntry topic securities s →
        HasEntry topic securities (s.takeOver (s.orch.detachLocked sub).1 [sub])) := by
  refine ⟨h.detachLocked sub, ?_⟩
  cases he : s.orch.entries.lookup (s.orch.subs.get sub).key with
  | none =>
    rw [detachLocked_of_lookup_none he]
    exact ⟨nofun, fun _ hentry => hentry⟩
  | some e =>
    have hlt := h.found_lt _ e he
    rw [detachLocked_of_lookup he]
    refine ⟨fun e' he' => ?_, fun hlast hentry => ?_⟩
    · simp only [Option.mem_def] at he'
      split at he' <;> cases he'
      exact hlt
    · simp only at hlast
      split at hlast
      · cases hlast
      · rename_i hleft
        rw [HasEntry, Shared.takeOver]
        simp only [if_neg hleft]
        exact hentry

/-- The section of a `Subscribe` or a `Cancel` keeps the invariant and reaches its next
point. -/
theorem ForKey.body (h : ForKey topic securities s) (hc : KeyInside topic securities s c) :
    ForKey topic securities (body c none s).1 ∧
      KeyPoint topic securities (body c none s).1 ((body c none s).2.point c) := by
  cases c with
  | lookup q =>
    simp only [PushThreads.body]
    split
    · exact ⟨h, trivial⟩
    · split <;> exact ⟨h, hc⟩
  | request q =>
    obtain ⟨htopic, hsecurities, -⟩ := id hc
    subst htopic hsecurities
    exact ⟨h.request.1, hc, h.request.2⟩
  | register q found =>
    refine ⟨h.register (q := q) ?_ ?_, trivial⟩
    · cases found with
      | some e => exact hc
      | none => exact hc.1
    · rintro rfl
      exact hc.2
  | cancel sub =>
    simp only [PushThreads.body]
    split
    · exact ⟨h, trivial⟩
    · obtain ⟨hcancel, hlt, -⟩ := h.cancel sub
      refine ⟨hcancel, fun e he => ?_⟩
      exact Nat.lt_of_lt_of_le (hlt e he) (detachLocked_same s.orch sub).2.1.ge
  | _ => exact hc.elim

/-- It does not take away what another thread relies on. -/
theorem body_grows (hc : KeyInside topic securities s c) :
    Grows s (body c none s).1 ∧
      (Serves topic securities s → Serves topic securities (body c none s).1) := by
  cases c with
  | lookup q =>
    simp only [body]
    split
    · exact ⟨⟨le_rfl, rfl⟩, id⟩
    · split <;> exact ⟨⟨le_rfl, rfl⟩, id⟩
  | request q => exact ⟨⟨le_rfl, rfl⟩, fun hs x hx => Gateway.mem_subscribe.mpr (.inr (hs x hx))⟩
  | register q found =>
    cases found with
    | some e => exact ⟨⟨le_rfl, rfl⟩, id⟩
    | none => exact ⟨⟨Nat.le_succ _, rfl⟩, id⟩
  | cancel sub =>
    simp only [body]
    split
    · exact ⟨⟨le_rfl, rfl⟩, id⟩
    · exact ⟨⟨(detachLocked_same s.orch sub).2.1.ge, (detachLocked_same s.orch sub).2.2.1⟩, id⟩
  | _ => exact hc.elim

/-- **The outline.** -/
theorem agreementOutline : Outline program
    (fun s a => OneKey topic securities a ∧ UnsubscribesFree s a) (ForKey topic securities)
    (KeyPoint topic securities) where
  start := by
    intro s t a x hcond _ hx
    refine Assertions.atExit.point ?_
    cases a with
    | subscribe topic' sec =>
      cases hx
      exact hcond.1
    | cancel sub =>
      obtain ⟨-, heq⟩ := Option.ite_none_right_eq_some.mp hx
      cases heq
      trivial
    | _ => exact hcond.1.elim
  lock := fun _ h => KeySection.inside h
  unlock := fun _ h => Assertions.atExit.point h
  body := by
    intro s t r c h hcond ht
    obtain rfl : r = none := hcond.1
    have hc : KeyPoint topic securities s.shared (.inside c) := h.at_point ht
    exact h.inv.body hc
  body_other := by
    intro s t r c t' h hcond ht _
    obtain rfl : r = none := hcond.1
    have hc : KeyPoint topic securities s.shared (.inside c) := h.at_point ht
    exact (h.assert t').grows (body_grows hc).1 fun _ _ => (body_grows hc).2
  work := by
    intro s t r k shared x h hcond ht hk
    obtain rfl : r = none := hcond.1
    have hwork : KeyPoint topic securities s.shared (.work k) := h.at_point ht
    cases k with
    | subscribe topic' sec =>
      obtain ⟨rfl, rfl⟩ := hwork
      simp only [program, work] at hk
      split at hk <;> cases hk
      · exact ⟨h.inv, trivial⟩
      · exact ⟨h.inv, asksKey_of_check ‹_›⟩
    | cancelShutdown sub last =>
      simp only [program, work] at hk
      have hkeeps := h.inv.keeps (keepsMarket_shutdown s.shared [sub]) rfl
      split at hk
      · cases hk
        exact ⟨hkeeps, trivial⟩
      · split at hk <;> cases hk
        · exact ⟨hkeeps, trivial⟩
        · exact ⟨hkeeps, hwork _ rfl⟩
    -- the only request outside the lock: by assumption there is no entry to lose
    | cancelRequest e =>
      cases hk
      obtain ⟨hnone, -⟩ := hcond.2 e (by rw [ht]; rfl)
      rw [h.inv.entry_key hwork] at hnone
      refine ⟨h.inv.unsubscribe e fun hentry => ?_, trivial⟩
      rw [HasEntry, hnone] at hentry
      cases hentry
    | _ => exact hwork.elim
  work_other := by
    intro s t r k shared x t' h hcond ht hk _
    obtain rfl : r = none := hcond.1
    have hwork : KeyPoint topic securities s.shared (.work k) := h.at_point ht
    have hgrows := (work_frame hk).market.grows
    cases k with
    | subscribe topic' sec =>
      simp only [program, work] at hk
      split at hk <;> cases hk <;> exact (h.assert t').grows hgrows fun _ _ => id
    | cancelShutdown sub last =>
      simp only [program, work] at hk
      split at hk
      · cases hk
        exact (h.assert t').grows hgrows fun _ _ => id
      · split at hk <;> cases hk <;> exact (h.assert t').grows hgrows fun _ _ => id
    | cancelRequest e =>
      cases hk
      refine (h.assert t').grows hgrows fun q hq _ => ?_
      -- the other thread holds `subMu`, so it would be about to register another key
      have hholder : s.holder .subMu = some t' :=
        (h.locked _ t').mpr (by rw [hq]; rfl)
      have hkey := (hcond.2 e (by rw [ht]; rfl)).2 t' hholder q (registering_eq_some.mpr hq)
      have hother : KeyPoint topic securities s.shared (.inside (.register q none)) :=
        hq ▸ h.assert t'
      exact absurd (hother.1.key.trans (h.inv.entry_key hwork).symm) hkey
    | _ => exact hwork.elim

/-! ## The debts -/

/-- The request to unsubscribe lies ahead, if the entry has lost its last subscription. -/
def Work.owesRequest : Work → Bool
  | .cancelShutdown _ last => last.isSome
  | .cancelRequest _ => true
  | _ => false

/-- The thread is about to register an entry, or to unsubscribe one. -/
def owesRequest : Exit Section Work → Bool
  | .enter (.register _ none) => true
  | .go k => k.owesRequest
  | _ => false

/-- The Gateway serves the key only if there is an entry. -/
def Justified (topic : TopicID) (securities : List Security) (s : Shared) : Prop :=
  Serves topic securities s → HasEntry topic securities s

theorem justified_body (h : ForKey topic securities s) (hc : KeyInside topic securities s c)
    (hj : Justified topic securities s ∨ owesRequest (.enter c) = true) :
    Justified topic securities (body c none s).1 ∨
      owesRequest ((body c none s).2.point c).next = true := by
  cases c with
  | lookup q =>
    have hj := hj.resolve_right Bool.false_ne_true
    simp only [body]
    split
    · exact .inl hj
    · split <;> exact .inl hj
  -- the accepted request is a debt until the entry is registered
  | request q => exact .inr rfl
  | register q found =>
    cases found with
    | some e => exact .inl (hj.resolve_right Bool.false_ne_true)
    | none =>
      refine .inl fun _ => ?_
      have hkey : canonicalPushKey q.topic q.securities = canonicalPushKey topic securities :=
        hc.1.key
      rw [HasEntry, ← hkey]
      exact Option.isSome_iff_exists.mpr ⟨_, AList.lookup_insert _⟩
  | cancel sub =>
    have hj := hj.resolve_right Bool.false_ne_true
    simp only [body]
    split
    · exact .inl hj
    · cases hlast : (s.orch.detachLocked sub).2 with
      | none => exact .inl fun hserves => (h.cancel sub).2.2 hlast (hj hserves)
      | some e => exact .inr rfl
  | _ => exact hc.elim

omit [UnicodeTables] in
theorem justified_work (hne : securities ≠ []) (h : ForKey topic securities s) {k : Work}
    (hk : KeyWork topic securities s k) {x : Exit Section Work}
    (hwork : work k none s = some (s', x))
    (hj : Justified topic securities s ∨ k.owesRequest = true) :
    Justified topic securities s' ∨ owesRequest x = true := by
  cases k with
  | subscribe topic' sec =>
    have hj := hj.resolve_right Bool.false_ne_true
    simp only [work] at hwork
    split at hwork <;> cases hwork <;> exact .inl hj
  | cancelShutdown sub last =>
    cases last with
    | none =>
      cases hwork
      exact .inl (hj.resolve_right Bool.false_ne_true)
    | some e =>
      have hlt := hk e rfl
      -- every entry was accepted, so the request is sent
      have hsent : (!(s.orch.heap.get e).subscribed || !s.orch.market) = false := by
        rw [(h.entry e hlt).2.2, h.market (Nat.zero_lt_of_lt hlt)]
        rfl
      simp only [work, Shared.withOrch, PushOrchestration.shutdown, hsent] at hwork
      cases hwork
      exact .inr rfl
  | cancelRequest e =>
    cases hwork
    refine .inl fun hserves => ?_
    -- any instrument of the list will do: the request takes all of them out
    obtain ⟨x, hx⟩ := List.exists_mem_of_ne_nil _ hne
    obtain ⟨htopic, hsecurities, -⟩ := h.entry e hk
    have hout := (Gateway.mem_unsubscribe.mp (hserves x hx)).2
    exact absurd ⟨htopic.symm, hsecurities.symm ▸ hx⟩ hout
  | _ => exact hk.elim

/-- **The debts.** -/
theorem agreementDebts (hne : securities ≠ []) : Debts program
    (fun (s : System) (a : Action) => OneKey topic securities a ∧
      Sound program (ForKey topic securities) (KeyPoint topic securities) s)
    (fun s (_ : Unit) => Justified topic securities s) (fun x _ => owesRequest x = true) where
  ret := fun _ => nofun
  body := by
    intro s t r c _ hcond ht hj
    obtain rfl : r = none := hcond.1
    have hc : KeyPoint topic securities s.shared (.inside c) := hcond.2.at_point ht
    exact justified_body hcond.2.inv hc hj
  work := by
    intro s t r k shared x _ hcond ht hk hj
    obtain rfl : r = none := hcond.1
    have hwork : KeyPoint topic securities s.shared (.work k) := hcond.2.at_point ht
    exact justified_work hne hcond.2.inv hwork hk hj

/-- **Registry and Gateway agree.** In every interleaving of calls of `Subscribe` and
`Cancel` for one topic and one list, with all requests accepted, in which each request to
unsubscribe finds no entry for the key and none about to be registered: whenever all
threads are idle, the Gateway serves the list exactly if the registry has an entry. -/
theorem agreement {market trade transport : Bool} {n : ℤ} (hne : securities ≠ [])
    {run : List Action} (hrun : ∀ a ∈ run, OneKey topic securities a)
    (hfree : EachStep step UnsubscribesFree (init market trade transport n) run) :
    Always step (fun s => s.Quiescent →
      (Serves topic securities s.shared ↔ HasEntry topic securities s.shared))
      (init market trade transport n) run := by
  have hone : EachStep step (fun _ a => OneKey topic securities a)
      (init market trade transport n) run := EachStep.of_forall (fun a ha _ => hrun a ha) _
  have hinit : ForKey topic securities (init market trade transport n).shared :=
    ⟨nofun, nofun, nofun, nofun⟩
  have hall : Always step
      (fun s => Sound program (ForKey topic securities) (KeyPoint topic securities) s ∧
        Accounted (fun s (_ : Unit) => Justified topic securities s) (fun x _ => owesRequest x = true) s)
      (init market trade transport n) run := by
    refine (hone.and hfree).always (fun s a s' h hcond hstep => ?_)
      ⟨sound_init hinit trivial, fun _ => .inl fun hserves => ?_⟩
    · exact ⟨agreementOutline.step h.1 hcond hstep,
        (agreementDebts hne).step h.2 ⟨hcond.1, h.1⟩ hstep⟩
    · obtain ⟨x, hx⟩ := List.exists_mem_of_ne_nil _ hne
      exact absurd (hserves x hx) List.not_mem_nil
  exact hall.mono fun s h hquiet => ⟨h.2.quiescent (fun _ => nofun) hquiet (), h.1.inv.serves⟩

end

end

/-- The instrument of the schedules below. -/
def oneInstrument : List Security := [⟨10000, bytes "00700"⟩]

/-- The request of a `Cancel` is overtaken by a `Subscribe`. -/
def lateUnsubscribe : List Action :=
  subscribes 0 ++ .call 0 (.cancel 0) :: List.replicate 4 (.run 0 none) ++ subscribes 1 ++
    [.run 0 none]

/-- The registry has an entry that the Gateway does not serve. -/
theorem late_unsubscribe_disagrees : (∀ a ∈ lateUnsubscribe, OneKey topicTicker oneInstrument a) ∧
    ∃ s, exec (@step asciiTables) (init true true true 0) lateUnsubscribe = some s ∧
      s.Quiescent ∧ HasEntry topicTicker oneInstrument s.shared ∧
      ¬ Serves topicTicker oneInstrument s.shared := by
  obtain ⟨s, hs, hidle, hentry, hserves⟩ : ∃ s,
      exec (@step asciiTables) (init true true true 0) lateUnsubscribe = some s ∧
      (∀ a ∈ lateUnsubscribe, s.point a.thread = .idle) ∧
      (s.shared.orch.entries.lookup (canonicalPushKey topicTicker oneInstrument)).isSome = true ∧
      ¬ ∀ x ∈ oneInstrument, (topicTicker, x) ∈ s.shared.gateway.pairs :=
    exec_exists (by decide +kernel)
  exact ⟨by decide +kernel, s, hs, Program.quiescent_of_exec hs hidle, hentry, hserves⟩

/-- The same calls, with the request of the `Cancel` in time. -/
def timelyUnsubscribe : List Action :=
  subscribes 0 ++ .call 0 (.cancel 0) :: List.replicate 5 (.run 0 none) ++ subscribes 1

theorem agreement_timelyUnsubscribe : Always (@step asciiTables) (fun s => s.Quiescent →
    (Serves topicTicker oneInstrument s.shared ↔ HasEntry topicTicker oneInstrument s.shared))
    (init true true true 0) timelyUnsubscribe :=
  @agreement topicTicker oneInstrument asciiTables true true true 0 (by decide) timelyUnsubscribe
    (by decide +kernel) (by decide +kernel)

end HstongApi.PushThreads
