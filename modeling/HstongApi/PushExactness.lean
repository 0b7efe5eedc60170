import HstongApi.PushEntries
import HstongApi.Transition

/-!
# The registry holds exactly the live subscriptions

The registry has two redundant structures, the map `entries` and the routing index
`byKey`. `Holds o live` says that both of them stand for the set `live`; the lemmas about
`Lists` carry over to it along every critical section.

The relation asks that an entry is for the instruments of each of its subscriptions.
Instrument codes without the separator bytes of the canonical key guarantee that; with
them two different instrument lists can share an entry, and the index then files one
subscription under the instruments of the other.

In a run of atomic operations the set held is the set of subscriptions whose channel is
open, and `dispatchMarket` reaches exactly those of them that share a routing key with
the update (`routing_exact`).
-/

namespace HstongApi

variable {o' : PushOrchestration} {msgType : NotifyMsgType} {op : Operation} {e : EntryId}

section

variable [UnicodeTables]

namespace PushOrchestration

/-- **The registry holds a set of subscriptions.** They are those the entries list, each
for the instruments of its entry, and each stands once in the bucket of each of its
routing keys. -/
structure Holds (o : PushOrchestration) (live : Set SubId) : Prop extends o.Lists live where
  same : ∀ i ∈ live, ∀ e, o.entries.lookup (o.subs.get i).key = some e →
    (o.heap.get e).securities.Perm (o.subs.get i).securities
  index : o.byKey.Indexes (fun i => securityKeys (o.subs.get i).securities) live

/-- The subscriptions whose channel is open. -/
def live (o : PushOrchestration) : Set SubId := {i | i < o.subs.size ∧ (o.subs.get i).closed = false}

omit [UnicodeTables] in
theorem mem_live {o : PushOrchestration} {i : SubId} :
    i ∈ o.live ↔ i < o.subs.size ∧ (o.subs.get i).closed = false := Iff.rfl

variable {o : PushOrchestration} {live : Set SubId} {topic : TopicID} {securities : List Security}

/-- What is held depends on the registry and on the instruments of the subscriptions. -/
theorem Holds.congr (h : o.Holds live) (hentries : o'.entries = o.entries)
    (hbyKey : o'.byKey = o.byKey) (hheap : o'.heap = o.heap) (hsize : o'.subs.size = o.subs.size)
    (hsubs : ∀ i, (o'.subs.get i).topic = (o.subs.get i).topic ∧
      (o'.subs.get i).securities = (o.subs.get i).securities) : o'.Holds live := by
  have hkey : ∀ i, (o'.subs.get i).key = (o.subs.get i).key := fun i => by
    rw [Subscription.key, Subscription.key, (hsubs i).1, (hsubs i).2]
  refine ⟨h.toLists.congr (fun k => by rw [hentries]) hheap hsize hkey, ?_, ?_⟩
  · intro i hi
    rw [hentries, hkey i, hheap, (hsubs i).2]
    exact h.same i hi
  · rw [hbyKey]
    exact h.index.congr fun i _ k => by rw [(hsubs i).2]

/-! ## The index along the critical sections -/

theorem Holds.newEntry (h : o.Holds live)
    (hnone : o.entries.lookup (canonicalPushKey topic securities) = none) :
    (o.newEntry topic securities).Holds live := by
  refine ⟨h.toLists.newEntry hnone, fun i hi e he => ?_, h.index⟩
  rcases lookup_insert_eq_some.mp he with ⟨hkey, -⟩ | ⟨-, he⟩
  · have hkey' : (o.subs.get i).key = canonicalPushKey topic securities := hkey
    obtain ⟨e', he'⟩ := h.listed i hi
    rw [hkey', hnone] at he'
    cases he'
  · rw [newEntry_get_of_ne (Nat.ne_of_lt (h.entry_lt _ e he))]
    exact h.same i hi e he

theorem Holds.addSubscription (h : o.Holds live)
    (he : o.entries.lookup (canonicalPushKey topic securities) = some e)
    (hsame : (o.heap.get e).securities.Perm securities) :
    (o.addSubscription e topic msgType securities).Holds (insert o.subs.size live) := by
  have hfresh : o.subs.size ∉ live := fun hmem => Nat.lt_irrefl _ (h.allocated _ hmem)
  have hold : ∀ {i}, i ∈ live →
      (o.addSubscription e topic msgType securities).subs.get i = o.subs.get i := fun {i} hi =>
    Heap.get_alloc_of_lt _ _ (h.allocated i hi)
  have hnew : (o.addSubscription e topic msgType securities).subs.get o.subs.size =
      { topic := topic, msgType := msgType, securities := securities } := by
    rw [addSubscription_subs, Heap.get_alloc, if_pos rfl]
  have hsec : ∀ e', ((o.addSubscription e topic msgType securities).heap.get e').securities =
      (o.heap.get e').securities := by
    intro e'
    rw [addSubscription_get]
    split
    · rename_i hee
      rw [hee]
    · rfl
  refine ⟨h.toLists.addSubscription he, ?_, ?_⟩
  · rintro i (rfl | hi) e' he'
    · rw [hnew] at he' ⊢
      rw [hsec, ← Option.some.inj (he.symm.trans he')]
      exact hsame
    · rw [hold hi] at he' ⊢
      rw [hsec]
      exact h.same i hi e' he'
  · have hindex : o.byKey.Indexes
        (fun i => securityKeys ((o.addSubscription e topic msgType securities).subs.get i).securities)
        live := h.index.congr fun i hi k => by rw [hold hi]
    refine hindex.addAll hfresh (nodup_securityKeys _) fun k => ?_
    rw [hnew]
    exact mem_securityKeys_perm hsame

theorem Holds.register (h : o.Holds live) {found : Option EntryId}
    (hfound : o.entries.lookup (canonicalPushKey topic securities) = found)
    (hsame : ∀ e, found = some e → (o.heap.get e).securities.Perm securities) :
    (o.register found topic msgType securities).Holds (insert o.subs.size live) := by
  cases found with
  | some e => exact h.addSubscription hfound (hsame e rfl)
  | none =>
    refine (h.newEntry hfound).addSubscription (AList.lookup_insert _) ?_
    rw [newEntry_get]

theorem Holds.detachLocked (h : o.Holds live) {i : SubId} (hi : i ∈ live) :
    (o.detachLocked i).1.Holds (live \ {i}) := by
  obtain ⟨e, he⟩ := h.listed i hi
  have hperm := h.same i hi e he
  refine ⟨h.toLists.detachLocked i, fun j hj e' he' => ?_, ?_⟩
  · obtain ⟨subs, -, hget⟩ := get_detachLocked (o := o) i e'
    rw [(detachLocked_same o i).1] at he' ⊢
    rw [hget]
    exact h.same j hj.1 e' (lookup_of_detachLocked he')
  · rw [detachLocked_of_lookup he]
    exact h.index.removeAll i (nodup_securityKeys _) fun _ k => mem_securityKeys_perm hperm

theorem Holds.killSection (h : o.Holds live) (he : o.entries.lookup (o.heap.get e).key = some e) :
    (o.killSection e).Holds (live \ {i | i ∈ (o.heap.get e).subs}) := by
  have hown : ∀ e', o.entries.lookup (o.heap.get e).key = some e' → e' = e :=
    fun e' he' => Option.some.inj (he'.symm.trans he)
  refine ⟨h.toLists.killSection hown, fun j hj e' he' => ?_,
    h.index.removeEach (fun i => nodup_securityKeys _) _⟩
  exact h.same j hj.1 e' (lookup_erase_eq_some.mp he').2

theorem Holds.drain (h : o.Holds live) : o.drain.Holds ∅ :=
  ⟨h.toLists.drain, nofun, Buckets.Indexes.empty _⟩

/-! ## Atomic operations

Between operations the set held is the set of subscriptions with an open channel. -/

/-- The registry holds exactly the open subscriptions, and no entry is empty. -/
structure Exact (o : PushOrchestration) : Prop where
  holds : o.Holds o.live
  noEmptyEntry : o.NoEmptyEntry

/-- Exactness depends on the registry and on what each subscription is about. -/
theorem Exact.congr (h : o.Exact) (hentries : o'.entries = o.entries) (hbyKey : o'.byKey = o.byKey)
    (hheap : o'.heap = o.heap) (hsize : o'.subs.size = o.subs.size)
    (hsubs : ∀ i, (o'.subs.get i).topic = (o.subs.get i).topic ∧
      (o'.subs.get i).securities = (o.subs.get i).securities ∧
      (o'.subs.get i).closed = (o.subs.get i).closed) : o'.Exact := by
  have hlive : o'.live = o.live := by
    ext i
    rw [mem_live, mem_live, hsize, (hsubs i).2.2]
  constructor
  · rw [hlive]
    exact h.holds.congr hentries hbyKey hheap hsize fun i => ⟨(hsubs i).1, (hsubs i).2.1⟩
  · intro k e he
    rw [hentries] at he
    rw [hheap]
    exact h.noEmptyEntry k e he

theorem Exact.sameMarket (h : o.Exact) (hsame : o.SameMarket o') : o'.Exact :=
  h.congr hsame.entries hsame.byKey hsame.heap (congrArg Heap.size hsame.subs) fun i => by
    rw [hsame.subs]
    exact ⟨rfl, rfl, rfl⟩

theorem Exact.report (h : o.Exact) (err : Option StreamError) : (o.report err).Exact :=
  h.congr rfl rfl rfl rfl fun _ => ⟨rfl, rfl, rfl⟩

omit [UnicodeTables] in
theorem live_shutdown (o : PushOrchestration) (ids : List SubId) :
    (o.shutdown ids).live = o.live \ {i | i ∈ ids} := by
  ext i
  rw [Set.mem_sdiff, mem_live, mem_live]
  have hsize : (o.shutdown ids).subs.size = o.subs.size := Heap.size_modifyAll _ _ _
  rw [hsize]
  by_cases hi : i ∈ ids
  · have hget : (o.shutdown ids).subs.get i = (o.subs.get i).shutdown :=
      Heap.get_modifyAll_of_idem _ Subscription.shutdown_shutdown hi
    rw [hget, Subscription.shutdown_closed]
    simp [hi]
  · have hget : (o.shutdown ids).subs.get i = o.subs.get i := Heap.get_modifyAll_of_notMem _ _ hi
    rw [hget]
    simp [hi]

/-- Once subscriptions are removed from the registry, their shutdown makes it exact. -/
theorem Holds.shutdown {ids : List SubId} (h : o.Holds (o.live \ {i | i ∈ ids}))
    (hne : o.NoEmptyEntry) : (o.shutdown ids).Exact := by
  constructor
  · rw [live_shutdown]
    refine h.congr rfl rfl rfl (Heap.size_modifyAll _ _ _) fun i => ⟨?_, ?_⟩
    · exact Heap.get_modifyAll_eq (fun s => s.shutdown_same.1) _ _ _
    · exact Heap.get_modifyAll_eq (fun s => s.shutdown_same.2.2.1) _ _ _
  · exact hne

theorem live_register (o : PushOrchestration) (found : Option EntryId) (topic : TopicID)
    (msgType : NotifyMsgType) (securities : List Security) :
    (o.register found topic msgType securities).live = insert o.subs.size o.live := by
  ext i
  rw [Set.mem_insert_iff, mem_live, mem_live, register_subs, Heap.size_alloc, Heap.get_alloc]
  by_cases hi : i = o.subs.size
  · simp [hi]
  · have hlt : i < o.subs.size + 1 ↔ i < o.subs.size :=
      ⟨fun hlt => Nat.lt_of_le_of_ne (Nat.le_of_lt_succ hlt) hi, Nat.lt_succ_of_lt⟩
    simp [hi, hlt]

theorem live_detachLocked (o : PushOrchestration) (i : SubId) : (o.detachLocked i).1.live = o.live := by
  obtain ⟨heap, entries, byKey, -, h⟩ := o.detachLocked_frame i
  rw [h]
  rfl

theorem Exact.register (h : o.Exact) {found : Option EntryId}
    (hfound : o.entries.lookup (canonicalPushKey topic securities) = found)
    (hsame : ∀ e, found = some e → (o.heap.get e).securities.Perm securities) :
    (o.register found topic msgType securities).Exact := by
  refine ⟨?_, ?_⟩
  · rw [live_register]
    exact h.holds.register hfound hsame
  · exact h.noEmptyEntry.register h.holds.toLists found topic msgType securities

theorem Exact.deliver (h : o.Exact) (now : Time) (u : PushUpdate) (i : SubId) :
    (o.deliver now u i).Exact := by
  refine h.congr rfl rfl rfl rfl fun j => ?_
  have hget : (o.deliver now u i).subs.get j = if j = i then
      (o.subs.get i).deliver o.buffer now u else o.subs.get j := Heap.get_modify _ _ _ _
  rw [hget]
  split
  · rename_i hji
    obtain ⟨htopic, -, hsec, hclosed⟩ := (o.subs.get i).deliver_same o.buffer now u
    rw [hji]
    exact ⟨htopic, hsec, hclosed⟩
  · exact ⟨rfl, rfl, rfl⟩

theorem Exact.handle (h : o.Exact) (now : Time) (u : PushUpdate) : (o.handle now u).Exact := by
  rw [PushOrchestration.handle]
  split
  · exact h
  · split
    · exact h.sameMarket (o.sameMarket_dispatchTrade now u)
    · rw [dispatchMarket]
      split
      · exact h.congr rfl rfl rfl rfl fun _ => ⟨rfl, rfl, rfl⟩
      · exact List.foldlRecOn _ _ h fun o' ho' i _ => ho'.deliver now u i

end PushOrchestration

/-- A subscribe that finds its canonical key registered finds an entry for its own
instruments. -/
def World.FindsSame (w : World) : Operation → Prop
  | .subscribe topic sec _ => ∀ e,
      w.orch.entries.lookup (canonicalPushKey topic sec.reduceOption) = some e →
      (w.orch.heap.get e).securities.Perm sec.reduceOption
  | _ => True

/-- The instruments an operation names have plain codes. -/
def Operation.Plain : Operation → Prop
  | .subscribe _ sec _ => ∀ s ∈ sec.reduceOption, PlainCode s.code
  | _ => True

instance : DecidablePred Operation.Plain := by
  intro op
  cases op <;> dsimp only [Operation.Plain] <;> infer_instance

namespace World

open PushOrchestration

variable {w : World}

theorem exact_subscribe (h : w.orch.Exact) {topic : TopicID} {sec : List (Option Security)}
    {reply : Reply} (hsame : w.FindsSame (.subscribe topic sec reply)) :
    (w.subscribe topic sec reply).1.orch.Exact := by
  rcases w.subscribe_cases topic sec reply with heq | ⟨msgType, securities, found, hcheck, hfound, heq⟩
  · rw [heq]
    exact h
  · obtain ⟨-, -, -, rfl, -, -⟩ := checkSubscribe_ok hcheck
    rw [FindsSame, reduceOption_map_some] at hsame
    rw [heq]
    exact h.register hfound fun e he => hsame e (hfound.trans he)

/-- A cancel closes one subscription. -/
theorem live_cancel (w : World) {sub : SubId} (hopen : (w.orch.subs.get sub).closed = false)
    (reply : Reply) : (w.cancel sub reply).1.orch.live = w.orch.live \ {sub} := by
  obtain ⟨err, horch⟩ := cancel_orch hopen reply
  have hreport : ∀ o : PushOrchestration, (o.report err).live = o.live := fun _ => rfl
  rw [horch, hreport, live_shutdown, live_detachLocked, setOf_mem_singleton]

theorem exact_cancel (h : w.orch.Exact) {sub : SubId} (hsub : sub < w.orch.subs.size)
    (reply : Reply) : (w.cancel sub reply).1.orch.Exact := by
  cases hclosed : (w.orch.subs.get sub).closed with
  | true =>
    rw [cancel, hclosed]
    exact h
  | false =>
    obtain ⟨err, horch⟩ := cancel_orch hclosed reply
    have hmem : sub ∈ w.orch.live := ⟨hsub, hclosed⟩
    rw [horch]
    refine (Holds.shutdown ?_ (h.noEmptyEntry.detachLocked h.holds.toLists sub)).report err
    rw [live_detachLocked, setOf_mem_singleton]
    exact h.holds.detachLocked hmem

/-- One turn of the loop keeps exactness and leaves the other entries registered. -/
theorem exact_resubscribe (replies : Replies) (h : w.orch.Exact)
    (he : w.orch.entries.lookup (w.orch.heap.get e).key = some e) :
    (resubscribe replies w e).orch.Exact ∧ ∀ e', e' ≠ e →
      w.orch.entries.lookup (w.orch.heap.get e').key = some e' →
      (resubscribe replies w e).orch.entries.lookup
        ((resubscribe replies w e).orch.heap.get e').key = some e' := by
  rcases resubscribe_orch replies w e with horch | ⟨err, err', horch⟩
  · rw [horch]
    exact ⟨h, fun e' _ he' => he'⟩
  · have hreport := h.report err
    rw [horch]
    constructor
    · exact (Holds.shutdown (hreport.holds.killSection he)
        (hreport.noEmptyEntry.killSection e)).report err'
    · intro e' hne he'
      have hkey : (w.orch.heap.get e').key ≠ (w.orch.heap.get e).key := by
        intro hkey
        rw [hkey, he] at he'
        exact hne (Option.some.inj he').symm
      exact lookup_erase_eq_some.mpr ⟨hkey, he'⟩

/-- The loop of `resubscribeAll`, over distinct registered entries. -/
theorem exact_foldl_resubscribe (replies : Replies) {l : List EntryId} (h : w.orch.Exact)
    (hnodup : l.Nodup)
    (hl : ∀ e ∈ l, w.orch.entries.lookup (w.orch.heap.get e).key = some e) :
    (l.foldl (resubscribe replies) w).orch.Exact := by
  induction l generalizing w with
  | nil => exact h
  | cons e l ih =>
    obtain ⟨he, hnodup⟩ := List.nodup_cons.mp hnodup
    obtain ⟨hexact, hother⟩ := exact_resubscribe replies h (hl e List.mem_cons_self)
    refine ih hexact hnodup fun e' he' => ?_
    exact hother e' (fun heq => he (heq ▸ he')) (hl e' (List.mem_cons_of_mem _ he'))

theorem exact_reconnect (h : w.orch.Exact) (cause : Option Bytes) (replies : Replies) :
    (w.reconnect cause replies).orch.Exact := by
  rw [reconnect]
  split
  · exact h
  · rw [resubscribeAll]
    have hreport := h.report (some (.reconnected cause))
    have hloop := exact_foldl_resubscribe
      (w := { w with orch := w.orch.report (some (.reconnected cause)) }) replies hreport
      hreport.holds.toLists.nodup_snapshot fun e he => hreport.holds.toLists.mem_snapshot he
    simp only
    split
    · exact hloop
    · exact hloop.sameMarket (sameMarket_resubscribeOrders _ _ _)

theorem exact_close (h : w.orch.Exact) : w.close.orch.Exact := by
  rw [close]
  split
  · exact h
  · have hall : w.orch.live \ {i | i ∈ w.orch.drained} = ∅ := by
      ext i
      simpa using fun hi => h.holds.toLists.mem_drained hi
    have hdrain : ({ w.orch with closed := true }.drain.shutdown
        { w.orch with closed := true }.drained).Exact := by
      refine Holds.shutdown ?_ (by rintro _ _ ⟨⟩)
      have hset : { w.orch with closed := true }.drain.live \
          {i | i ∈ { w.orch with closed := true }.drained} = ∅ := hall
      rw [hset]
      exact h.holds.drain.congr rfl rfl rfl rfl fun _ => ⟨rfl, rfl⟩
    exact hdrain.congr rfl rfl rfl rfl fun _ => ⟨rfl, rfl, rfl⟩

/-- **Every operation keeps the registry exact.** -/
theorem exact_step (h : w.orch.Exact) (hsame : w.FindsSame op) {w' : World}
    (hstep : w.step op = some w') : w'.orch.Exact := by
  cases op with
  | subscribe topic sec reply =>
    cases hstep
    exact exact_subscribe h hsame
  | cancel sub reply =>
    obtain ⟨hsub, heq⟩ := Option.ite_none_right_eq_some.mp hstep
    cases heq
    exact exact_cancel h hsub reply
  | subscribeOrders account reply =>
    cases hstep
    exact h.sameMarket (w.sameMarket_subscribeOrders account reply)
  | cancelOrder ord reply =>
    obtain ⟨-, heq⟩ := Option.ite_none_right_eq_some.mp hstep
    cases heq
    exact h.sameMarket (w.sameMarket_cancelOrder ord reply)
  | reconnect cause replies =>
    cases hstep
    exact exact_reconnect h cause replies
  | close =>
    cases hstep
    exact exact_close h
  | dispatch u now =>
    obtain ⟨-, heq⟩ := Option.ite_none_right_eq_some.mp hstep
    cases heq
    exact h.handle now u
  | transportError cause =>
    cases hstep
    exact h.report _
  | receive sub =>
    cases hstep
    refine h.congr rfl rfl rfl rfl fun i => ?_
    simp only [Heap.get_modify]
    split
    · rename_i hi
      rw [hi]
      exact ⟨rfl, rfl, rfl⟩
    · exact ⟨rfl, rfl, rfl⟩
  | _ =>
    cases hstep
    exact h.congr rfl rfl rfl rfl fun _ => ⟨rfl, rfl, rfl⟩

theorem exact_init (market trade transport : Bool) (n : ℤ) :
    (World.init market trade transport n).orch.Exact := by
  have hlive : (World.init market trade transport n).orch.live = ∅ := by
    ext i
    exact iff_of_false (fun hi => absurd hi.1 (Nat.not_lt_zero i)) (Set.notMem_empty i)
  refine ⟨?_, nofun⟩
  rw [hlive]
  exact ⟨⟨nofun, nofun, nofun, nofun, nofun, nofun, nofun, nofun⟩, nofun, Buckets.Indexes.empty _⟩

end World

/-! ## Plain codes -/

/-- All instruments in the registry have plain codes. -/
structure PushOrchestration.AllPlain (o : PushOrchestration) : Prop where
  subs : ∀ i, ∀ s ∈ (o.subs.get i).securities, PlainCode s.code
  entries : ∀ e, ∀ s ∈ (o.heap.get e).securities, PlainCode s.code

namespace PushOrchestration

variable {o : PushOrchestration}

omit [UnicodeTables] in
theorem Keeps.allPlain (h : o.Keeps o') (hplain : o.AllPlain) : o'.AllPlain :=
  ⟨fun i => h.securities i ▸ hplain.subs i, fun e => h.entry e ▸ hplain.entries e⟩

theorem AllPlain.register (h : o.AllPlain) (found : Option EntryId) (topic : TopicID)
    (msgType : NotifyMsgType) {securities : List Security}
    (hplain : ∀ s ∈ securities, PlainCode s.code) :
    (o.register found topic msgType securities).AllPlain := by
  refine ⟨fun i => ?_, fun e => ?_⟩
  · rw [register_subs, Heap.get_alloc]
    split
    · exact hplain
    · exact h.subs i
  · have hadd : ∀ (o : PushOrchestration) (e₀ : EntryId),
        ((o.addSubscription e₀ topic msgType securities).heap.get e).securities =
          (o.heap.get e).securities := by
      intro o e₀
      rw [addSubscription_heap, Heap.get_modify]
      split
      · rename_i he
        rw [he]
      · rfl
    cases found with
    | some e₀ =>
      rw [PushOrchestration.register, hadd]
      exact h.entries e
    | none =>
      rw [PushOrchestration.register, hadd, newEntry, Heap.get_alloc]
      split
      · exact hplain
      · exact h.entries e

theorem AllPlain.handle (h : o.AllPlain) (now : Time) (u : PushUpdate) :
    (o.handle now u).AllPlain := by
  by_cases hother : u.event = none ∨ isTradeNotifyType u.type = true
  · exact (o.handle_other now hother).keeps.allPlain h
  · obtain ⟨hevent, hmarket⟩ := not_or.mp hother
    obtain ⟨-, hheap, hget⟩ := o.handle_market now hevent (Bool.eq_false_of_not_eq_true hmarket)
    refine ⟨fun i => ?_, fun e => hheap ▸ h.entries e⟩
    rw [hget i]
    split
    · rw [((o.subs.get i).deliver_same o.buffer now u).2.2.1]
      exact h.subs i
    · exact h.subs i

end PushOrchestration

namespace World

open PushOrchestration

variable {w : World}

theorem allPlain_step (h : w.orch.AllPlain) (hplain : op.Plain) {w' : World}
    (hstep : w.step op = some w') : w'.orch.AllPlain := by
  by_cases hsub : ∀ topic sec reply, op ≠ .subscribe topic sec reply
  · by_cases hdispatch : ∀ u now, op ≠ .dispatch u now
    · exact (step_keeps hstep hsub hdispatch).allPlain h
    · simp only [not_forall, not_not] at hdispatch
      obtain ⟨u, now, rfl⟩ := hdispatch
      obtain ⟨-, heq⟩ := Option.ite_none_right_eq_some.mp hstep
      cases heq
      exact h.handle now u
  · simp only [not_forall, not_not] at hsub
    obtain ⟨topic, sec, reply, rfl⟩ := hsub
    cases hstep
    rcases w.subscribe_cases topic sec reply with heq | ⟨msgType, securities, found, hcheck, -, heq⟩
    · rw [heq]
      exact h
    · obtain ⟨-, -, -, rfl, -, -⟩ := checkSubscribe_ok hcheck
      rw [Operation.Plain, reduceOption_map_some] at hplain
      rw [heq]
      exact h.register found topic msgType hplain

theorem findsSame_of_plain (h : w.orch.AllPlain) (hexact : w.orch.Exact) (hplain : op.Plain) :
    w.FindsSame op := by
  cases op with
  | subscribe topic sec reply =>
    exact fun e he => (canonicalPushKey_inj (h.entries e) hplain
      (hexact.holds.entry_key _ e he)).2
  | _ => exact trivial

/-- The registry is exact throughout every run over plain codes. -/
theorem exact_run {market trade transport : Bool} {n : ℤ} {run : List Operation}
    (hplain : ∀ op ∈ run, op.Plain)
    (hrun : exec World.step (World.init market trade transport n) run = some w) :
    w.orch.Exact := by
  have hinit : (World.init market trade transport n).orch.AllPlain := ⟨nofun, nofun⟩
  have hsteps : EachStep World.step (fun _ op => op.Plain) (World.init market trade transport n) run :=
    EachStep.of_forall (fun op hop _ => hplain op hop) _
  have hkeep : ∀ (w : World) (op : Operation) (w' : World), w.orch.Exact ∧ w.orch.AllPlain →
      op.Plain → w.step op = some w' → w'.orch.Exact ∧ w'.orch.AllPlain :=
    fun w op w' h hop hstep => ⟨exact_step h.1 (findsSame_of_plain h.2 h.1 hop) hstep,
      allPlain_step h.2 hop hstep⟩
  exact ((hsteps.always hkeep ⟨exact_init market trade transport n, hinit⟩).last hrun).1

end World

/-! ## Routing is exact -/

namespace PushOrchestration

/-- A routing key of the update is one of the subscription's instruments. -/
def Wants (o : PushOrchestration) (u : PushUpdate) (i : SubId) : Prop :=
  ∃ k ∈ updateRoutingKeys u, k ∈ securityKeys (o.subs.get i).securities

/-- The two structures of the registry agree with the set of live subscriptions. -/
structure Consistent (o : PushOrchestration) : Prop where
  /-- a live subscription is once in the bucket of each of its routing keys -/
  indexed : ∀ k i, i ∈ o.live → k ∈ securityKeys (o.subs.get i).securities →
    (o.byKey.get k).count i = 1
  /-- and nothing else is in a bucket -/
  only_indexed : ∀ k i, i ∈ o.byKey.get k →
    i ∈ o.live ∧ k ∈ securityKeys (o.subs.get i).securities
  /-- a live subscription is once in the entry under its key -/
  listed : ∀ i ∈ o.live, ∃ e, o.entries.lookup (o.subs.get i).key = some e ∧
    (o.heap.get e).subs.count i = 1
  /-- every entry holds a live subscription, and nothing else -/
  entry_live : ∀ k e, o.entries.lookup k = some e →
    (∃ i, i ∈ (o.heap.get e).subs) ∧ ∀ i ∈ (o.heap.get e).subs, i ∈ o.live

/-- The dispatch of an update leads from `o` to `o'`, as it should. -/
structure DispatchExact (o o' : PushOrchestration) (now : Time) (u : PushUpdate) : Prop where
  /-- a live subscription that wants the update has it enqueued, once -/
  delivered : ∀ i ∈ o.live, o.Wants u i →
    o'.subs.get i = ((o.subs.get i).noteTimes now u).enqueue o.buffer u
  /-- every other one is left as it is -/
  untouched : ∀ i, ¬ (i ∈ o.live ∧ o.Wants u i) → o'.subs.get i = o.subs.get i
  /-- an update that somebody gets is not counted as unrouted -/
  routed : (∃ i ∈ o.live, o.Wants u i) → o'.unrouted = o.unrouted
  /-- an update that nobody gets is -/
  unrouted : (¬ ∃ i ∈ o.live, o.Wants u i) → o'.unrouted = o.unrouted + 1

variable {o : PushOrchestration}

theorem Exact.consistent (h : o.Exact) : o.Consistent := by
  refine ⟨fun k i hi hk => ?_, fun k i hi => (h.holds.index.mem_get k i).mp hi, fun i hi => ?_,
    fun k e he => ⟨?_, fun i hi => ((h.holds.mem_entry k e he i).mp hi).1⟩⟩
  · exact List.count_eq_one_of_mem (h.holds.index.nodup k)
      ((h.holds.index.mem_get k i).mpr ⟨hi, hk⟩)
  · obtain ⟨e, he⟩ := h.holds.listed i hi
    exact ⟨e, he, List.count_eq_one_of_mem (h.holds.entry_nodup _ e he)
      ((h.holds.mem_entry _ e he i).mpr ⟨hi, rfl⟩)⟩
  · exact List.exists_mem_of_ne_nil _ (h.noEmptyEntry k e he)

/-- The targets of an update are the live subscriptions that want it. -/
theorem Exact.mem_marketTargets (h : o.Exact) {u : PushUpdate} {i : SubId} :
    i ∈ o.marketTargets u ↔ i ∈ o.live ∧ o.Wants u i := by
  rw [PushOrchestration.mem_marketTargets]
  constructor
  · rintro ⟨k, hk, hi⟩
    obtain ⟨hlive, hwants⟩ := (h.holds.index.mem_get k i).mp hi
    exact ⟨hlive, k, hk, hwants⟩
  · rintro ⟨hlive, k, hk, hwants⟩
    exact ⟨k, hk, (h.holds.index.mem_get k i).mpr ⟨hlive, hwants⟩⟩

theorem Exact.dispatchMarket (h : o.Exact) (now : Time) (u : PushUpdate) :
    o.DispatchExact (o.dispatchMarket now u) now u := by
  by_cases hnil : o.marketTargets u = []
  · have hnone : ¬ ∃ i ∈ o.live, o.Wants u i := by
      rintro ⟨i, hlive, hwants⟩
      have hmem := h.mem_marketTargets.mpr ⟨hlive, hwants⟩
      rw [hnil] at hmem
      cases hmem
    rw [PushOrchestration.dispatchMarket, if_pos hnil]
    exact ⟨fun i hlive hwants => absurd ⟨i, hlive, hwants⟩ hnone, fun i _ => rfl,
      fun hsome => absurd hsome hnone, fun _ => rfl⟩
  · obtain ⟨i₀, hi₀⟩ := List.exists_mem_of_ne_nil _ hnil
    obtain ⟨hsubs, hunrouted, -⟩ := foldl_deliver now u (o.marketTargets u) o
    have hnodup : (o.marketTargets u).Nodup := nodup_distinct _
    rw [PushOrchestration.dispatchMarket, if_neg hnil]
    refine ⟨fun i hlive hwants => ?_, fun i hi => ?_, fun _ => hunrouted, fun hnone => ?_⟩
    · rw [hsubs, Heap.get_modifyAll_of_nodup _ hnodup _ (h.mem_marketTargets.mpr ⟨hlive, hwants⟩),
        Subscription.deliver, hlive.2]
      rfl
    · rw [hsubs, Heap.get_modifyAll_of_notMem _ _ fun hmem => hi (h.mem_marketTargets.mp hmem)]
    · obtain ⟨hlive, hwants⟩ := h.mem_marketTargets.mp hi₀
      exact absurd ⟨i₀, hlive, hwants⟩ hnone

end PushOrchestration

/-- **Routing is exact.** After any sequence of atomic operations over plain instrument
codes the index and the entries agree with the set of live subscriptions, and an update
is enqueued once to each live subscription that wants it, and to no other. -/
theorem routing_exact {market trade transport : Bool} {n : ℤ} {run : List Operation} {w : World}
    (hplain : ∀ op ∈ run, op.Plain)
    (hrun : exec World.step (World.init market trade transport n) run = some w) :
    w.orch.Consistent ∧
      ∀ now u, w.orch.DispatchExact (w.orch.dispatchMarket now u) now u := by
  have h := World.exact_run hplain hrun
  exact ⟨h.consistent, h.dispatchMarket⟩

end

/-- Two subscribers of one list, one of whom cancels, and two entries of which the second
is refused after a reconnect. -/
def reconnectRun : List Operation :=
  [.subscribe topicTicker [some ⟨10000, bytes "00700"⟩, some ⟨20000, bytes "AAPL.US"⟩] none,
    .subscribe topicTicker [some ⟨20000, bytes "AAPL.US"⟩, some ⟨10000, bytes "00700"⟩] none,
    .subscribe topicBroker [some ⟨10000, bytes "00005.hk"⟩] none, .cancel 1 none,
    .reconnect none ⟨fun e => if e = 1 then some [] else none, fun _ => none, none⟩]

theorem routing_exact_reconnectRun : ∃ w,
    exec (@World.step asciiTables) (World.init true true true 0) reconnectRun = some w ∧
      @PushOrchestration.Consistent asciiTables w.orch ∧
      ∀ now u, @PushOrchestration.DispatchExact asciiTables w.orch
        (@PushOrchestration.dispatchMarket asciiTables w.orch now u) now u := by
  obtain ⟨w, hw, -⟩ : ∃ w, exec (@World.step asciiTables) (World.init true true true 0)
      reconnectRun = some w ∧ True := exec_exists (by decide +kernel)
  exact ⟨w, hw, @routing_exact asciiTables _ _ _ _ _ w (by decide +kernel) hw⟩

end HstongApi
