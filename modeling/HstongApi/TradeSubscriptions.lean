import HstongApi.TradeDelivery

/-!
# Order subscriptions while fills are delivered

What the goroutines on the path of a fill know about the order subscriptions: a subscription
that is closed is not in the list any more, no more updates are discarded than are counted,
and after `deliver` has discarded an update there is room for the new one. The last is so
because the lock of a subscription keeps other deliveries away; the consumer may receive in
between, which only makes room.

This is for runs in which `dispatch` discards nothing, no amount makes `convert` panic and
`dispatchTrade` copies the list of subscriptions only while nobody changes it (`Lossless`).
-/

namespace HstongApi.TradeDelivery

open Threads PushEvents DecimalPackage
open Function (update_self update_of_ne)

/-! ## The condition -/

/-- What the steps of a thread must meet. -/
structure Roomy [DecimalPackage] (s : System) (t : ℕ) : Prop where
  /-- when `dispatch` is about to discard, the dispatcher has emptied the queue -/
  discard : ∀ d, s.point t = .work (.discard d) → (s.shared.queues d.value.type).queue = []
  /-- the second attempt finds room -/
  resend : ∀ d, s.point t = .work (.resend d) →
    (s.shared.queues d.value.type).queue.length < (s.shared.queues d.value.type).capacity
  /-- amounts are empty or read by the decimal package -/
  convert : ∀ d, s.point t = .work (.convert d) → d.value.Numeric

/-- `dispatch` discards nothing, nothing panics, and the list of subscriptions is not copied while
it is changed. -/
structure Lossless [DecimalPackage] (s : System) (a : Action) : Prop extends Roomy s a.thread where
  /-- `mu` and `subMu` are not held at the same time -/
  whole : ¬ Torn s

/-! ## Subscriptions -/

/-- What holds of the shared state. -/
structure Inv (s : Shared) : Prop where
  running : s.crashed = false
  first_le : s.first ≤ s.count
  listed : ∀ i ∈ s.orders, i < s.count
  closed : ∀ i, (s.subs i).closed = true → i ∉ s.orders ∧ i < s.count
  counted : ∀ i, (s.subs i).discarded.length ≤ (s.subs i).dropped
  raised : ∀ i, 0 < (s.subs i).dropped → (s.subs i).backlogRaised = true

/-- What a thread knows before a section. -/
def Section.Knows (s : Shared) : Section → Prop
  | .deliver _ i rest _ => ∀ j ∈ i :: rest, j < s.count
  | .detach i => i < s.count
  | .shutdown i => i < s.count ∧ i ∉ s.orders
  | _ => True

/-- And outside the sections. -/
def Work.Knows (s : Shared) : Work → Prop
  | .report _ i rest _ => ∀ j ∈ i :: rest, j < s.count
  | _ => True

/-- What a thread knows. -/
def Knows (s : Shared) : Next → Prop
  | .ret => True
  | .enter c => c.Knows s
  | .go k => k.Knows s

/-- The subscription at which the second attempt of `deliver` has discarded an update. -/
def Section.discarding : Section → Option ℕ
  | .deliver _ i _ (.resend (some _)) => some i
  | _ => none

/-- The channel of a subscription has room. -/
def Room (s : Shared) (i : ℕ) : Prop :=
  (s.subs i).updates.queue.length < (s.subs i).updates.capacity

/-- There is room after the second attempt of `deliver` has discarded an update, and no thread
lets go of the lock before the third one. -/
def HasRoom (s : Shared) : Point Section Work → Prop
  | .inside c => ∀ i ∈ c.discarding, Room s i
  | .wait c | .leaving _ (.enter c) => c.discarding = none
  | _ => True

/-- What holds at a point. -/
def Holds (s : Shared) (p : Point Section Work) : Prop := Knows s p.next ∧ HasRoom s p

variable {s s' : Shared} {c : Section} {x : Next} {i : ℕ}

theorem knows_deliverNext {u : Tagged PushUpdate} {rest : List ℕ} (h : ∀ j ∈ rest, j < s.count) :
    Knows s (deliverNext u rest) := by
  cases rest with
  | nil => trivial
  | cons i rest => exact h

theorem hasRoom_point (h : HasRoom s (.leaving c x)) : HasRoom s x.point := by
  cases x with
  | ret | go => trivial
  | enter c => exact h

theorem hasRoom_deliverNext (c : Section) (u : Tagged PushUpdate) (rest : List ℕ) :
    HasRoom s (.leaving c (deliverNext u rest)) := by
  cases rest with
  | nil => trivial
  | cons i rest => rfl

theorem HasRoom.mono {p : Point Section Work} (h : HasRoom s p)
    (hroom : ∀ c i, p = .inside c → i ∈ c.discarding → Room s i → Room s' i) : HasRoom s' p := by
  cases p with
  | inside c => exact fun i hi => hroom c i rfl hi (h i hi)
  | wait c => exact h
  | leaving c x => cases x <;> exact h
  | _ => trivial

theorem Section.mutex_of_discarding (h : i ∈ c.discarding) : c.mutex = .order i := by
  unfold discarding at h
  split at h
  · exact congrArg Mutex.order (Option.some.inj h)
  · cases h

theorem Section.Knows.lt (hknows : c.Knows s) (h : i ∈ c.discarding) : i < s.count := by
  unfold discarding at h
  split at h <;> cases h
  exact hknows _ List.mem_cons_self

/-- What a thread knows stays so while subscriptions are made and while none comes back. -/
theorem Knows.mono (h : Knows s x) (hcount : s.count ≤ s'.count)
    (horders : ∀ i < s.count, i ∉ s.orders → i ∉ s'.orders) : Knows s' x := by
  cases x with
  | ret => trivial
  | enter c =>
    cases c with
    | deliver u i rest attempt => exact fun j hj => Nat.lt_of_lt_of_le (h j hj) hcount
    | detach i => exact Nat.lt_of_lt_of_le h hcount
    | shutdown i => exact ⟨Nat.lt_of_lt_of_le h.1 hcount, horders i h.1 h.2⟩
    | _ => trivial
  | go k =>
    cases k with
    | report u i rest dropped => exact fun j hj => Nat.lt_of_lt_of_le (h j hj) hcount
    | _ => trivial

variable {ord : Order}

/-- A subscription is changed. -/
theorem Inv.setOrder (h : Inv s) (hclosed : ord.closed = true → i ∉ s.orders ∧ i < s.count)
    (hcounted : ord.discarded.length ≤ ord.dropped)
    (hraised : 0 < ord.dropped → ord.backlogRaised = true) : Inv (s.setOrder i ord) where
  running := h.running
  first_le := h.first_le
  listed := h.listed
  closed j hj := by
    by_cases hji : j = i
    · rw [hji, Shared.setOrder_self] at hj
      exact hji ▸ hclosed hj
    · rw [Shared.setOrder_of_ne s hji] at hj
      exact h.closed j hj
  counted j := by
    by_cases hji : j = i
    · rw [hji, Shared.setOrder_self]
      exact hcounted
    · rw [Shared.setOrder_of_ne s hji]
      exact h.counted j
  raised j hj := by
    by_cases hji : j = i
    · rw [hji, Shared.setOrder_self] at hj ⊢
      exact hraised hj
    · rw [Shared.setOrder_of_ne s hji] at hj ⊢
      exact h.raised j hj

/-- A change that concerns neither the count nor what is closed. -/
theorem Inv.setSame (h : Inv s) (hclosed : ord.closed = (s.subs i).closed)
    (hdiscarded : ord.discarded = (s.subs i).discarded)
    (hdropped : ord.dropped = (s.subs i).dropped)
    (hraised : ord.backlogRaised = (s.subs i).backlogRaised) : Inv (s.setOrder i ord) := by
  refine h.setOrder (fun hc => h.closed i (hclosed.symm.trans hc)) ?_ fun hpos => ?_
  · rw [hdiscarded, hdropped]
    exact h.counted i
  · rw [hraised]
    exact h.raised i (hdropped ▸ hpos)

theorem Inv.register (h : Inv s) (account : AccountId) : Inv (body s 0 (.register account)).1 where
  running := h.running
  first_le := Nat.le_succ_of_le h.first_le
  listed i hi := by
    rcases List.mem_append.mp hi with hold | hnew
    · exact Nat.lt_succ_of_lt (h.listed i hold)
    · rw [List.mem_singleton.mp hnew]
      exact Nat.lt_succ_self s.count
  closed i hi := by
    by_cases hcount : i = s.count
    · simp only [body, hcount, update_self] at hi
      cases hi
    · simp only [body, update_of_ne hcount] at hi
      obtain ⟨hgone, hlt⟩ := h.closed i hi
      refine ⟨fun hmem => ?_, Nat.lt_succ_of_lt hlt⟩
      rcases List.mem_append.mp hmem with hold | hnew
      · exact hgone hold
      · exact hcount (List.mem_singleton.mp hnew)
  counted i := by
    by_cases hcount : i = s.count
    · simp only [body, hcount, update_self]
      exact Nat.le_refl 0
    · simp only [body, update_of_ne hcount]
      exact h.counted i
  raised i hi := by
    by_cases hcount : i = s.count
    · simp only [body, hcount, update_self] at hi
      exact absurd hi (Nat.lt_irrefl 0)
    · simp only [body, update_of_ne hcount] at hi ⊢
      exact h.raised i hi

/-- The account of an overflow: at most one update is discarded for each one that is counted. -/
theorem Order.overflow_counted (h : ord.discarded.length ≤ ord.dropped) (u : Tagged PushUpdate)
    {lost : Option ℕ} (hroom : lost ≠ none → ord.updates.queue.length < ord.updates.capacity) :
    (ord.overflow u lost).discarded.length ≤ (ord.overflow u lost).dropped := by
  have hlost : lost.toList.length ≤ 1 := by
    cases lost <;> simp
  unfold overflow
  split
  · rw [List.length_append]
    exact Nat.add_le_add h hlost
  · rename_i hfull
    cases lost with
    | none =>
      rw [List.length_append]
      exact Nat.add_le_add h (Nat.le_refl 1)
    | some k => exact absurd hfull (Chan.trySend_ne_none (hroom (Option.some_ne_none k)))

theorem Order.overflow_closed (ord : Order) (u : Tagged PushUpdate) (lost : Option ℕ) :
    (ord.overflow u lost).closed = ord.closed := by
  unfold overflow
  split <;> rfl

theorem Order.overflow_raised (ord : Order) (u : Tagged PushUpdate) (lost : Option ℕ) :
    (ord.overflow u lost).backlogRaised = true := by
  unfold overflow
  split <;> rfl

variable {turn : Turn Section Work}

/-- A section keeps the invariant, and establishes what holds after it. -/
theorem Follows.holds {now : Time} (h : Follows s now c (s', turn)) (hinv : Inv s)
    (hholds : Holds s (.inside c)) : Inv s' ∧ Holds s' (turn.point c) := by
  obtain ⟨hknows, hroom⟩ := hholds
  cases h with
  | lookup => exact ⟨{ hinv with }, trivial, trivial⟩
  | targets => exact ⟨hinv, knows_deliverNext hinv.listed, hasRoom_deliverNext _ _ _⟩
  | skip hclosed =>
    exact ⟨hinv, knows_deliverNext fun j hj => hknows j (List.mem_cons_of_mem _ hj),
      hasRoom_deliverNext _ _ _⟩
  | sent hsent =>
    refine ⟨hinv.setSame rfl rfl rfl rfl, ?_, hasRoom_deliverNext _ _ _⟩
    exact knows_deliverNext fun j hj => hknows j (List.mem_cons_of_mem _ hj)
  | full => exact ⟨hinv.setSame rfl rfl rfl rfl, hknows, nofun⟩
  | @discarded u i rest oldest updates hrecv =>
    refine ⟨hinv.setSame rfl rfl rfl rfl, hknows, fun j hj => ?_⟩
    cases hj
    obtain ⟨hqueue, hcapacity, -⟩ := Chan.tryRecv_eq_some hrecv
    have hfits := (s.subs i).updates.fits
    rw [hqueue, List.length_cons] at hfits
    rw [Room, Shared.setOrder_self, hcapacity]
    exact hfits
  | emptied => exact ⟨hinv, hknows, nofun⟩
  | @overflow u i rest lost =>
    have hrest : ∀ j ∈ rest, j < s.count := fun j hj => hknows j (List.mem_cons_of_mem _ hj)
    refine ⟨hinv.setOrder (fun hc => ?_) ?_ fun _ => (s.subs i).overflow_raised u lost, ?_⟩
    · rw [Order.overflow_closed] at hc
      exact hinv.closed i hc
    · refine Order.overflow_counted (hinv.counted i) u fun hlost => ?_
      obtain ⟨k, rfl⟩ := Option.ne_none_iff_exists'.mp hlost
      exact hroom i rfl
    · by_cases hraised : (s.subs i).backlogRaised = true
      · rw [if_pos hraised]
        exact ⟨knows_deliverNext hrest, hasRoom_deliverNext _ _ _⟩
      · rw [if_neg hraised]
        exact ⟨hknows, trivial⟩
  | register => exact ⟨hinv.register _, trivial, trivial⟩
  | @detach i =>
    refine ⟨{ hinv with
      listed := fun j hj => hinv.listed j (List.mem_of_mem_filter hj)
      closed := fun j hj => ?_ }, ⟨hknows, ?_⟩, rfl⟩
    · obtain ⟨hgone, hlt⟩ := hinv.closed j hj
      exact ⟨fun hmem => hgone (List.mem_of_mem_filter hmem), hlt⟩
    · intro hmem
      exact of_decide_eq_true (List.mem_filter.mp hmem).2 rfl
  | @shutdown i =>
    exact ⟨hinv.setOrder (fun _ => ⟨hknows.2, hknows.1⟩) (hinv.counted i) (hinv.raised i),
      trivial, trivial⟩

/-- No section takes the number of subscriptions back, or brings one back. -/
theorem Follows.grows {now : Time} (h : Follows s now c (s', turn)) :
    s.count ≤ s'.count ∧ ∀ i < s.count, i ∉ s.orders → i ∉ s'.orders := by
  cases h with
  | register =>
    refine ⟨Nat.le_succ s.count, fun i hi hgone hmem => ?_⟩
    rcases List.mem_append.mp hmem with hold | hnew
    · exact hgone hold
    · exact Nat.ne_of_lt hi (List.mem_singleton.mp hnew)
  | detach => exact ⟨Nat.le_refl _, fun i _ hgone hmem => hgone (List.mem_of_mem_filter hmem)⟩
  | _ => exact ⟨Nat.le_refl _, fun _ _ => id⟩

/-- A section leaves the subscriptions alone whose mutex it does not have. -/
theorem Follows.subs_of_ne {now : Time} (h : Follows s now c (s', turn))
    (hmutex : c.mutex ≠ .order i) (hi : i < s.count) : s'.subs i = s.subs i := by
  have hne : ∀ {j : ℕ}, Mutex.order j ≠ .order i → i ≠ j := fun hj heq => hj (heq ▸ rfl)
  cases h with
  | sent | full | discarded | overflow | shutdown => exact Shared.setOrder_of_ne s (hne hmutex) _
  | register => exact update_of_ne (Nat.ne_of_lt hi) _ _
  | _ => rfl

variable [DecimalPackage] [FloatText]

/-- The actions without a lock keep the invariant. Only `receive` concerns a subscription. -/
theorem Acts.holds [LawfulReading] {k : Work} (h : Acts s k (s', x)) (hinv : Inv s) (hknows : Knows s (.go k))
    (hnumeric : ∀ d, k = .convert d → d.value.Numeric) :
    Inv s' ∧ Knows s' x ∧ HasRoom s' x.point := by
  cases h with
  | sent | resent | taken | discarded | refused => exact ⟨{ hinv with }, trivial, trivial⟩
  | full | emptied | lost | drained => exact ⟨hinv, trivial, trivial⟩
  | converted => exact ⟨hinv, trivial, rfl⟩
  | @panicked d panic hpanic =>
    obtain ⟨u, hu⟩ := convert_delivery (hnumeric d rfl)
    cases hpanic.symm.trans hu
  | @report u i rest dropped =>
    exact ⟨{ hinv with }, knows_deliverNext fun j hj => hknows j (List.mem_cons_of_mem _ hj),
      hasRoom_point (hasRoom_deliverNext (.targets u) u rest)⟩
  | received => exact ⟨hinv.setSame rfl rfl rfl rfl, trivial, trivial⟩

/-- What the actions without a lock leave alone. -/
theorem Acts.frame {k : Work} (h : Acts s k (s', x)) :
    s'.count = s.count ∧ s'.orders = s.orders ∧ ∀ i,
      (s'.subs i).updates.queue.length ≤ (s.subs i).updates.queue.length ∧
        (s'.subs i).updates.capacity = (s.subs i).updates.capacity := by
  cases h with
  | @received i u updates hrecv =>
    refine ⟨rfl, rfl, fun j => ?_⟩
    by_cases hji : j = i
    · obtain ⟨hqueue, hcapacity, -⟩ := Chan.tryRecv_eq_some hrecv
      rw [hji, Shared.setOrder_self, hqueue, List.length_cons]
      exact ⟨Nat.le_succ _, hcapacity⟩
    · rw [Shared.setOrder_of_ne s hji]
      exact ⟨Nat.le_refl _, rfl⟩
  | _ => exact ⟨rfl, rfl, fun _ => ⟨Nat.le_refl _, rfl⟩⟩

/-- What the threads know about the subscriptions. -/
theorem subscriptionOutline [LawfulReading] : Outline (τ := ℕ) program Lossless Inv Holds where
  start {s t a x} _ _ hx := by
    cases a with
    | cancel i =>
      obtain ⟨hi, heq⟩ := Option.ite_none_right_eq_some.mp hx
      cases heq
      exact ⟨hi, rfl⟩
    | dispatch | subscribe =>
      cases hx
      exact ⟨trivial, rfl⟩
    | _ =>
      cases hx
      exact ⟨trivial, trivial⟩
  lock {s c} _ h := by
    refine ⟨h.1, fun i hi => ?_⟩
    rw [show c.discarding = none from h.2] at hi
    cases hi
  unlock {s c x} _ h := by
    refine ⟨?_, hasRoom_point h.2⟩
    rw [Exit.next_point]
    exact h.1
  body {s t r c} hs _ ht := by
    have hholds : Holds s.shared (.inside c) := hs.at_point ht
    exact (body_follows s.shared r c).holds hs.inv hholds
  body_other {s t r c t'} hs _ ht hne := by
    have hfollows := body_follows s.shared r c
    obtain ⟨hcount, horders⟩ := hfollows.grows
    obtain ⟨hknows, hroom⟩ := hs.assert t'
    refine ⟨hknows.mono hcount horders, hroom.mono fun c' i ht' hi hroom' => ?_⟩
    rw [ht'] at hknows
    have hmutex : c.mutex ≠ .order i := by
      -- two threads in sections of one mutex are one thread
      intro hmutex
      have hregion : (s.point t).region = some c := by rw [ht]; rfl
      have hregion' : (s.point t').region = some c' := by rw [ht']; rfl
      exact hne (hs.locked.exclusive hregion' hregion
        ((Section.mutex_of_discarding hi).trans hmutex.symm))
    have hsubs : (body s.shared r c).1.subs i = s.shared.subs i :=
      hfollows.subs_of_ne hmutex (Section.Knows.lt hknows hi)
    show Room (body s.shared r c).1 i
    rw [Room, hsubs]
    exact hroom'
  work {s t r k shared x} hs hcond ht hk := by
    have hholds : Holds s.shared (.work k) := hs.at_point ht
    obtain ⟨hinv, hknows, hroom⟩ := (work_acts hk).holds hs.inv hholds.1 fun d hd =>
      hcond.convert d (hd ▸ ht)
    refine ⟨hinv, ?_, hroom⟩
    rw [Exit.next_point]
    exact hknows
  work_other {s t r k shared x t'} hs _ _ hk _ := by
    obtain ⟨hcount, horders, hsubs⟩ := (work_acts hk).frame
    obtain ⟨hknows, hroom⟩ := hs.assert t'
    refine ⟨hknows.mono (Nat.le_of_eq hcount.symm) fun _ _ hgone => horders ▸ hgone,
      hroom.mono fun c' i _ _ hroom' => ?_⟩
    rw [Room, (hsubs i).2]
    exact Nat.lt_of_le_of_lt (hsubs i).1 hroom'

end HstongApi.TradeDelivery
