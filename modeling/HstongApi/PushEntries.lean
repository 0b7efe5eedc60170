import HstongApi.PushOperations

/-!
# The entries list the subscriptions held

What the registry is for can be said without its data structures: it holds a set of
subscriptions, `Subscribe` adds one, `Cancel` removes one, a refused re-subscribe removes
those of one entry and `Close` removes all. `Lists o live` is the relation between that
set and the map `entries`; every critical section has a lemma that says which set is
listed after it.

Entries are shared by pointers: a reconnect works on a snapshot of them, so an entry can
be in use after it has left the map. The relation therefore also says that no entry
outside the map has a subscription that is held.
-/

namespace HstongApi.PushOrchestration

/-- **The entries list a set of subscriptions.** Each of them is listed once in the one
entry under its key, and in no other entry, registered or not. -/
structure Lists (o : PushOrchestration) (live : Set SubId) : Prop where
  allocated : ∀ i ∈ live, i < o.subs.size
  entry_lt : ∀ k e, o.entries.lookup k = some e → e < o.heap.size
  entry_key : ∀ k e, o.entries.lookup k = some e → (o.heap.get e).key = k
  entry_nodup : ∀ k e, o.entries.lookup k = some e → (o.heap.get e).subs.Nodup
  mem_entry : ∀ k e, o.entries.lookup k = some e →
    ∀ i, i ∈ (o.heap.get e).subs ↔ i ∈ live ∧ (o.subs.get i).key = k
  listed : ∀ i ∈ live, ∃ e, o.entries.lookup (o.subs.get i).key = some e
  member_lt : ∀ e, ∀ i ∈ (o.heap.get e).subs, i < o.subs.size
  registered : ∀ e, ∀ i ∈ (o.heap.get e).subs, i ∈ live →
    o.entries.lookup (o.heap.get e).key = some e

/-- No entry is without subscribers. -/
def NoEmptyEntry (o : PushOrchestration) : Prop :=
  ∀ k e, o.entries.lookup k = some e → (o.heap.get e).subs ≠ []

variable {o : PushOrchestration} {live : Set SubId}

/-- What is listed depends on the entries and on the keys of the subscriptions. -/
theorem Lists.congr {o' : PushOrchestration} (h : o.Lists live)
    (hentries : ∀ k, o'.entries.lookup k = o.entries.lookup k) (hheap : o'.heap = o.heap)
    (hsize : o'.subs.size = o.subs.size) (hkey : ∀ i, (o'.subs.get i).key = (o.subs.get i).key) :
    o'.Lists live := by
  refine ⟨?_, ?_, ?_, ?_, ?_, ?_, ?_, ?_⟩
  · rw [hsize]
    exact h.allocated
  · simp only [hentries, hheap]
    exact h.entry_lt
  · simp only [hentries, hheap]
    exact h.entry_key
  · simp only [hentries, hheap]
    exact h.entry_nodup
  · simp only [hentries, hheap, hkey]
    exact h.mem_entry
  · intro i hi
    rw [hkey]
    simp only [hentries]
    exact h.listed i hi
  · rw [hheap, hsize]
    exact h.member_lt
  · intro e
    rw [hheap]
    simp only [hentries]
    exact h.registered e

variable {e : EntryId} {k : Bytes}

/-- Different keys have different entries. -/
theorem Lists.entry_inj (h : o.Lists live) {k' : Bytes} (he : o.entries.lookup k = some e)
    (he' : o.entries.lookup k' = some e) : k = k' :=
  (h.entry_key k e he).symm.trans (h.entry_key k' e he')

/-! ## Subscribe -/

theorem newEntry_get (o : PushOrchestration) (topic : TopicID) (securities : List Security) :
    (o.newEntry topic securities).heap.get o.heap.size =
      { topic := topic, securities := securities } := by
  rw [newEntry, Heap.get_alloc, if_pos rfl]

theorem newEntry_get_of_ne {o : PushOrchestration} (he : e ≠ o.heap.size) (topic : TopicID)
    (securities : List Security) : (o.newEntry topic securities).heap.get e = o.heap.get e := by
  rw [newEntry, Heap.get_alloc, if_neg he]

variable {securities : List Security} {topic : TopicID}

/-- An entry without subscribers, under a key that was not in use. -/
theorem Lists.newEntry (h : o.Lists live)
    (hnone : o.entries.lookup (canonicalPushKey topic securities) = none) :
    (o.newEntry topic securities).Lists live := by
  have hget : ∀ {k e}, o.entries.lookup k = some e →
      (o.newEntry topic securities).heap.get e = o.heap.get e := fun {k e} he =>
    newEntry_get_of_ne (Nat.ne_of_lt (h.entry_lt k e he)) _ _
  have hne : ∀ {k e}, o.entries.lookup k = some e → k ≠ canonicalPushKey topic securities := by
    rintro k e he rfl
    rw [hnone] at he
    cases he
  refine ⟨h.allocated, ?_, ?_, ?_, ?_, ?_, ?_, ?_⟩
  · intro k e he
    rcases lookup_insert_eq_some.mp he with ⟨-, rfl⟩ | ⟨-, he⟩
    · exact Nat.lt_succ_self _
    · exact Nat.lt_succ_of_lt (h.entry_lt k e he)
  · intro k e he
    rcases lookup_insert_eq_some.mp he with ⟨rfl, rfl⟩ | ⟨-, he⟩
    · rw [newEntry_get]
      rfl
    · rw [hget he]
      exact h.entry_key k e he
  · intro k e he
    rcases lookup_insert_eq_some.mp he with ⟨-, rfl⟩ | ⟨-, he⟩
    · rw [newEntry_get]
      exact List.nodup_nil
    · rw [hget he]
      exact h.entry_nodup k e he
  · intro k e he i
    rcases lookup_insert_eq_some.mp he with ⟨rfl, rfl⟩ | ⟨-, he⟩
    · -- a member under this key would have an entry already
      rw [newEntry_get]
      refine iff_of_false List.not_mem_nil ?_
      rintro ⟨hi, hkey⟩
      obtain ⟨e', he'⟩ := h.listed i hi
      exact hne he' hkey
    · rw [hget he]
      exact h.mem_entry k e he i
  · intro i hi
    obtain ⟨e, he⟩ := h.listed i hi
    exact ⟨e, lookup_insert_eq_some.mpr (.inr ⟨hne he, he⟩)⟩
  · intro e i hi
    by_cases he : e = o.heap.size
    · rw [he, newEntry_get] at hi
      cases hi
    · rw [newEntry_get_of_ne he] at hi
      exact h.member_lt e i hi
  · intro e i hi hlive
    by_cases he : e = o.heap.size
    · rw [he, newEntry_get] at hi
      cases hi
    · rw [newEntry_get_of_ne he] at hi ⊢
      have hreg := h.registered e i hi hlive
      exact lookup_insert_eq_some.mpr (.inr ⟨hne hreg, hreg⟩)

variable {e' : EntryId}

section

variable [UnicodeTables]

theorem addSubscription_get (o : PushOrchestration) (e e' : EntryId) (topic : TopicID)
    (msgType : NotifyMsgType) (securities : List Security) :
    (o.addSubscription e topic msgType securities).heap.get e' =
      if e' = e then { o.heap.get e with subs := (o.heap.get e).subs ++ [o.subs.size] }
      else o.heap.get e' := by
  rw [addSubscription_heap, Heap.get_modify]

/-- A new subscription in the entry under its key. -/
theorem Lists.addSubscription (h : o.Lists live) {msgType : NotifyMsgType}
    (he : o.entries.lookup (canonicalPushKey topic securities) = some e) :
    (o.addSubscription e topic msgType securities).Lists (insert o.subs.size live) := by
  have hfresh : o.subs.size ∉ live := fun hmem => Nat.lt_irrefl _ (h.allocated _ hmem)
  have hsub : ∀ i, (o.addSubscription e topic msgType securities).subs.get i =
      if i = o.subs.size then { topic := topic, msgType := msgType, securities := securities }
      else o.subs.get i := fun i => by
    rw [addSubscription_subs, Heap.get_alloc]
  have hkey : ∀ e', ((o.addSubscription e topic msgType securities).heap.get e').key =
      (o.heap.get e').key := by
    intro e'
    rw [addSubscription_get]
    split
    · rename_i hee
      rw [hee]
      rfl
    · rfl
  -- the new subscription is in this entry, and every other one is where it was
  have hmem : ∀ e' i, i ∈ ((o.addSubscription e topic msgType securities).heap.get e').subs ↔
      i ∈ (o.heap.get e').subs ∨ e' = e ∧ i = o.subs.size := by
    intro e' i
    rw [addSubscription_get]
    split
    · rename_i hee
      simp [hee]
    · rename_i hee
      simp [hee]
  refine ⟨?_, h.entry_lt, ?_, ?_, ?_, ?_, ?_, ?_⟩
  · rintro i (rfl | hi)
    · exact Nat.lt_succ_self _
    · exact Nat.lt_succ_of_lt (h.allocated i hi)
  · intro k e' he'
    rw [hkey]
    exact h.entry_key k e' he'
  · intro k e' he'
    rw [addSubscription_get]
    split
    · refine List.nodup_append.mpr ⟨h.entry_nodup _ e he, List.nodup_singleton _, ?_⟩
      rintro a ha b hb rfl
      exact hfresh (List.mem_singleton.mp hb ▸ ((h.mem_entry _ e he a).mp ha).1)
    · exact h.entry_nodup k e' he'
  · intro k e' he' i
    rw [hmem, h.mem_entry k e' he', hsub, Set.mem_insert_iff]
    by_cases hi : i = o.subs.size
    · rw [if_pos hi, hi]
      have hee : e' = e ↔ canonicalPushKey topic securities = k := by
        refine ⟨fun hee => h.entry_inj he (hee ▸ he'), fun hk => ?_⟩
        rw [hk] at he
        exact Option.some.inj (he'.symm.trans he)
      simp only [hfresh, false_and, false_or, and_true, or_false, true_and]
      exact hee
    · simp [hi]
  · rintro i (rfl | hi)
    · rw [hsub, if_pos rfl]
      exact ⟨e, he⟩
    · have hne : i ≠ o.subs.size := fun hi' => hfresh (hi' ▸ hi)
      rw [hsub, if_neg hne]
      exact h.listed i hi
  · intro e' i hi
    rcases (hmem e' i).mp hi with hi | ⟨-, rfl⟩
    · exact Nat.lt_succ_of_lt (h.member_lt e' i hi)
    · exact Nat.lt_succ_self _
  · intro e' i hi hlive
    rw [hkey]
    rcases (hmem e' i).mp hi with hi | ⟨rfl, -⟩
    -- an old member is not the new subscription
    · refine h.registered e' i hi (hlive.resolve_left fun hnew => ?_)
      exact Nat.lt_irrefl _ (hnew ▸ h.member_lt e' i hi)
    · rw [h.entry_key _ _ he]
      exact he

/-- **Subscribe adds one subscription.** -/
theorem Lists.register (h : o.Lists live) (msgType : NotifyMsgType) {found : Option EntryId}
    (hfound : o.entries.lookup (canonicalPushKey topic securities) = found) :
    (o.register found topic msgType securities).Lists (insert o.subs.size live) := by
  cases found with
  | some e => exact h.addSubscription hfound
  | none => exact (h.newEntry hfound).addSubscription (AList.lookup_insert _)

theorem NoEmptyEntry.register (hne : o.NoEmptyEntry) (h : o.Lists live) (found : Option EntryId)
    (topic : TopicID) (msgType : NotifyMsgType) (securities : List Security) :
    (o.register found topic msgType securities).NoEmptyEntry := by
  intro k e he
  cases found with
  | some e₀ =>
    have he' : o.entries.lookup k = some e := he
    rw [PushOrchestration.register, addSubscription_get]
    split
    · simp
    · exact hne k e he'
  | none =>
    rw [PushOrchestration.register, addSubscription_get]
    split
    · simp
    · rename_i hnew
      rcases lookup_insert_eq_some.mp he with ⟨-, rfl⟩ | ⟨-, he'⟩
      · exact absurd rfl hnew
      · rw [newEntry_get_of_ne (Nat.ne_of_lt (h.entry_lt k e he'))]
        exact hne k e he'

/-! ## Cancel -/

omit [UnicodeTables] in
theorem setOf_mem_singleton (i : SubId) : {j | j ∈ [i]} = ({i} : Set SubId) := by
  ext j
  simp

omit [UnicodeTables] in
theorem detachLocked_get (e' : EntryId) (i : SubId) :
    (o.heap.modify e fun entry => { entry with subs := (o.heap.get e).subs.erase i }).get e' =
      if e' = e then { o.heap.get e with subs := (o.heap.get e).subs.erase i }
      else o.heap.get e' :=
  Heap.get_modify _ _ _ _

/-- An entry that is left was there before. -/
theorem lookup_of_detachLocked {i : SubId} (he' : (o.detachLocked i).1.entries.lookup k = some e') :
    o.entries.lookup k = some e' := by
  cases he : o.entries.lookup (o.subs.get i).key with
  | none =>
    rw [detachLocked_of_lookup_none he] at he'
    exact he'
  | some e =>
    rw [detachLocked_of_lookup he] at he'
    simp only at he'
    split at he'
    · exact (lookup_erase_eq_some.mp he').2
    · exact he'

/-- An entry can only lose a subscription. -/
theorem get_detachLocked (i : SubId) (e' : EntryId) : ∃ subs, subs.Sublist (o.heap.get e').subs ∧
    (o.detachLocked i).1.heap.get e' = { o.heap.get e' with subs := subs } := by
  cases he : o.entries.lookup (o.subs.get i).key with
  | none =>
    rw [detachLocked_of_lookup_none he]
    exact ⟨_, List.Sublist.refl _, rfl⟩
  | some e =>
    rw [detachLocked_of_lookup he]
    simp only [detachLocked_get]
    split
    · rename_i hee
      subst hee
      exact ⟨_, List.erase_sublist, rfl⟩
    · exact ⟨_, List.Sublist.refl _, rfl⟩

/-- A registered entry loses the subscription that is cancelled and no other. -/
theorem Lists.mem_detachLocked (h : o.Lists live) (i : SubId) (he' : o.entries.lookup k = some e')
    (j : SubId) :
    j ∈ ((o.detachLocked i).1.heap.get e').subs ↔ j ≠ i ∧ j ∈ (o.heap.get e').subs := by
  -- a registered entry with the cancelled subscription is the one under its key
  have hown : i ∈ (o.heap.get e').subs → o.entries.lookup (o.subs.get i).key = some e' := by
    intro hi
    obtain ⟨-, hk⟩ := (h.mem_entry k e' he' i).mp hi
    rw [hk]
    exact he'
  cases he : o.entries.lookup (o.subs.get i).key with
  | none =>
    rw [detachLocked_of_lookup_none he]
    refine ⟨fun hj => ⟨?_, hj⟩, fun hj => hj.2⟩
    rintro rfl
    rw [he] at hown
    cases hown hj
  | some e =>
    rw [detachLocked_of_lookup he]
    simp only [detachLocked_get]
    split
    · rename_i hee
      rw [hee, (h.entry_nodup _ e he).mem_erase_iff]
    · rename_i hee
      refine ⟨fun hj => ⟨?_, hj⟩, fun hj => hj.2⟩
      rintro rfl
      rw [he] at hown
      exact hee (Option.some.inj (hown hj)).symm

/-- An entry with another subscription stays registered. -/
theorem Lists.lookup_detachLocked (h : o.Lists live) {i j : SubId} (hji : j ≠ i)
    (hj : j ∈ (o.heap.get e').subs) (he' : o.entries.lookup k = some e') :
    (o.detachLocked i).1.entries.lookup k = some e' := by
  cases he : o.entries.lookup (o.subs.get i).key with
  | none =>
    rw [detachLocked_of_lookup_none he]
    exact he'
  | some e =>
    rw [detachLocked_of_lookup he]
    simp only
    split
    · rename_i hempty
      refine lookup_erase_eq_some.mpr ⟨fun hk => ?_, he'⟩
      rw [hk, he] at he'
      obtain rfl := Option.some.inj he'
      -- the entry goes only when nobody is left in it
      have hin := (h.entry_nodup _ e he).mem_erase_iff.mpr ⟨hji, hj⟩
      rw [hempty] at hin
      cases hin
    · exact he'

/-- **Cancel removes one subscription.** -/
theorem Lists.detachLocked (h : o.Lists live) (i : SubId) :
    (o.detachLocked i).1.Lists (live \ {i}) := by
  obtain ⟨hsubs, hsize, -, -⟩ := detachLocked_same o i
  have hkey : ∀ e', ((o.detachLocked i).1.heap.get e').key = (o.heap.get e').key := by
    intro e'
    obtain ⟨subs, -, hget⟩ := get_detachLocked (o := o) i e'
    rw [hget]
    rfl
  have hsub : ∀ e', ((o.detachLocked i).1.heap.get e').subs.Sublist (o.heap.get e').subs := by
    intro e'
    obtain ⟨subs, hsubs', hget⟩ := get_detachLocked (o := o) i e'
    rw [hget]
    exact hsubs'
  refine ⟨?_, ?_, ?_, ?_, ?_, ?_, ?_, ?_⟩
  · intro j hj
    rw [hsubs]
    exact h.allocated j hj.1
  · intro k e' he'
    rw [hsize]
    exact h.entry_lt k e' (lookup_of_detachLocked he')
  · intro k e' he'
    rw [hkey]
    exact h.entry_key k e' (lookup_of_detachLocked he')
  · intro k e' he'
    exact (h.entry_nodup k e' (lookup_of_detachLocked he')).sublist (hsub e')
  · intro k e' he' j
    have hold := lookup_of_detachLocked he'
    rw [h.mem_detachLocked i hold, h.mem_entry k e' hold, hsubs]
    exact ⟨fun ⟨hji, hj, hk⟩ => ⟨⟨hj, hji⟩, hk⟩, fun ⟨⟨hj, hji⟩, hk⟩ => ⟨hji, hj, hk⟩⟩
  · rintro j ⟨hj, hji⟩
    rw [hsubs]
    obtain ⟨e', he'⟩ := h.listed j hj
    exact ⟨e', h.lookup_detachLocked hji ((h.mem_entry _ e' he' j).mpr ⟨hj, rfl⟩) he'⟩
  · intro e' j hj
    rw [hsubs]
    exact h.member_lt e' j ((hsub e').subset hj)
  · rintro e' j hj ⟨hlive, hji⟩
    have hj' := (hsub e').subset hj
    rw [hkey]
    exact h.lookup_detachLocked hji hj' (h.registered e' j hj' hlive)

theorem NoEmptyEntry.detachLocked (h : o.Lists live) (hne : o.NoEmptyEntry) (i : SubId) :
    (o.detachLocked i).1.NoEmptyEntry := by
  cases he : o.entries.lookup (o.subs.get i).key with
  | none =>
    rw [detachLocked_of_lookup_none he]
    exact hne
  | some e =>
    rw [detachLocked_of_lookup he]
    intro k e' he'
    simp only [detachLocked_get]
    by_cases hleft : (o.heap.get e).subs.erase i = []
    · simp only [if_pos hleft] at he'
      obtain ⟨hk, he'⟩ := lookup_erase_eq_some.mp he'
      have hee : e' ≠ e := fun hee => hk (h.entry_inj he' (hee ▸ he))
      rw [if_neg hee]
      exact hne k e' he'
    · simp only [if_neg hleft] at he'
      split
      · exact hleft
      · exact hne k e' he'

/-! ## Refused re-subscribes and Close -/

/-- **A kill removes the subscriptions of one entry**, if it is the one under its key or
has been removed already. -/
theorem Lists.killSection (h : o.Lists live)
    (he : ∀ e', o.entries.lookup (o.heap.get e).key = some e' → e' = e) :
    (o.killSection e).Lists (live \ {i | i ∈ (o.heap.get e).subs}) := by
  have hold : ∀ {k e'}, (o.killSection e).entries.lookup k = some e' →
      k ≠ (o.heap.get e).key ∧ o.entries.lookup k = some e' :=
    fun he' => lookup_erase_eq_some.mp he'
  have hleft : ∀ {k e' j}, j ∉ (o.heap.get e).subs → j ∈ (o.heap.get e').subs →
      o.entries.lookup k = some e' → (o.killSection e).entries.lookup k = some e' := by
    refine fun hout hj he' => lookup_erase_eq_some.mpr ⟨?_, he'⟩
    rintro rfl
    exact hout (he _ he' ▸ hj)
  refine ⟨fun j hj => h.allocated j hj.1, fun k e' he' => h.entry_lt k e' (hold he').2,
    fun k e' he' => h.entry_key k e' (hold he').2,
    fun k e' he' => h.entry_nodup k e' (hold he').2, ?_, ?_, h.member_lt, ?_⟩
  · intro k e' he' j
    obtain ⟨hk, he'⟩ := hold he'
    refine (h.mem_entry k e' he' j).trans
      ⟨fun hj => ⟨⟨hj.1, fun hin => hk ?_⟩, hj.2⟩, fun hj => ⟨hj.1.1, hj.2⟩⟩
    -- a subscription of both entries has the key of both
    have hreg := h.registered e j hin hj.1
    rw [← hj.2, ((h.mem_entry _ e hreg j).mp hin).2]
  · rintro j ⟨hj, hout⟩
    obtain ⟨e', he'⟩ := h.listed j hj
    exact ⟨e', hleft hout ((h.mem_entry _ e' he' j).mpr ⟨hj, rfl⟩) he'⟩
  · rintro e' j hj ⟨hlive, hout⟩
    exact hleft hout hj (h.registered e' j hj hlive)

theorem NoEmptyEntry.killSection (hne : o.NoEmptyEntry) (e : EntryId) :
    (o.killSection e).NoEmptyEntry :=
  fun k e' he' => hne k e' (lookup_erase_eq_some.mp he').2

end

/-- **Close removes all.** -/
theorem Lists.drain (h : o.Lists live) : o.drain.Lists ∅ :=
  ⟨nofun, nofun, nofun, nofun, nofun, nofun, h.member_lt, nofun⟩

/-- Every subscription held is one that `Close` shuts down. -/
theorem Lists.mem_drained (h : o.Lists live) {i : SubId} (hi : i ∈ live) : i ∈ o.drained := by
  obtain ⟨e, he⟩ := h.listed i hi
  refine List.mem_flatMap.mpr ⟨e, ?_, (h.mem_entry _ e he i).mpr ⟨hi, rfl⟩⟩
  exact List.mem_map.mpr ⟨⟨_, e⟩, AList.mem_lookup_iff.mp he, rfl⟩

/-! ## Snapshots -/

/-- The entries of a snapshot are registered, each under its own key. -/
theorem Lists.mem_snapshot (h : o.Lists live) (he : e ∈ o.snapshot) :
    o.entries.lookup (o.heap.get e).key = some e := by
  rw [PushOrchestration.snapshot, List.mem_insertionSort, List.mem_filter] at he
  obtain ⟨⟨k, e'⟩, hmem, rfl⟩ := List.mem_map.mp he.1
  have hlook : o.entries.lookup k = some e' := AList.mem_lookup_iff.mpr hmem
  rw [h.entry_key k e' hlook]
  exact hlook

/-- A snapshot names no entry twice. -/
theorem Lists.nodup_snapshot (h : o.Lists live) : o.snapshot.Nodup := by
  refine (List.perm_insertionSort _ _).nodup_iff.mpr (List.Nodup.filter _ ?_)
  have hkeys : (o.entries.entries.map fun p => p.2).map (fun e => (o.heap.get e).key) =
      o.entries.keys := by
    rw [List.map_map]
    exact List.map_congr_left fun p hp => h.entry_key p.1 p.2 (AList.mem_lookup_iff.mpr hp)
  exact List.Nodup.of_map _ (hkeys ▸ o.entries.keys_nodup)

end HstongApi.PushOrchestration
