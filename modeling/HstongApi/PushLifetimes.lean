import HstongApi.PushEntries
import HstongApi.PushThreads

/-!
# No subscription is lost, if a kill hits its own entry

A reconnect works on a snapshot of the registry, taken before its requests. `killEntry`
gets an entry of that snapshot and deletes whatever the registry has under the entry's
key. Between the two a `Cancel` can empty the entry and a `Subscribe` can register a new
one under the same key: then the kill deletes an entry whose subscriptions nobody shuts
down.

`no_lost_subscription` says that this is the only way to lose a subscription. In every
interleaving, each subscription that no cancel, kill or `Close` has taken over is listed
in the entry under its key, exactly when each kill finds its own entry under the key, or
none. And then, once `Close` and all other calls have returned, the channel of every
subscription has been closed once.

The proof has two parts. The outline carries the relation between the registry and the
subscriptions that nobody has taken over through all interleavings; inside its critical
section a `Subscribe` relies on the entry it has found. The debts say that a subscription
that somebody has taken over is closed or will be shut down by some thread.
-/

namespace HstongApi.PushThreads

open Threads PushOrchestration

/-- The subscriptions that no cancel, kill or `Close` has taken over. -/
def Shared.live (s : Shared) : Set SubId := {i | i < s.orch.subs.size ∧ i ∉ s.gone}

variable {s s' : Shared} {i : SubId} {c : Section} {k : Work} {r : Reply} {x : Exit Section Work}
  {p : Point Section Work}

theorem Shared.mem_live : i ∈ s.live ↔ i < s.orch.subs.size ∧ i ∉ s.gone := Iff.rfl

/-- Each of them is listed in the entry under its key. -/
def Listed (s : Shared) : Prop :=
  ∀ i < s.orch.subs.size, i ∉ s.gone →
    ∃ e, s.orch.entries.lookup (s.orch.subs.get i).key = some e ∧ i ∈ (s.orch.heap.get e).subs

/-- A kill finds its entry under the key of the entry, or none. -/
def KillsOwn (s : System) : Action → Prop
  | .run t _ => ∀ e rest, s.point t = .inside (.killEntry e rest) →
      ∀ e', s.shared.orch.entries.lookup (s.shared.orch.heap.get e).key = some e' → e' = e
  | .call _ _ => True

/-! ## The invariant -/

/-- The registry lists what nobody has taken over, and `Close` leaves it empty. -/
structure Intact (s : Shared) : Prop where
  lists : s.orch.Lists s.live
  nonempty : s.orch.NoEmptyEntry
  gone_lt : ∀ i ∈ s.gone, i < s.orch.subs.size
  closes : ∀ i, (s.orch.subs.get i).closes = (s.orch.subs.get i).closed.toNat
  drained : s.drained = true → s.orch.closed = true ∧ ∀ k, s.orch.entries.lookup k = none
  done : s.closeOnce = .done → s.drained = true

theorem Intact.listed (h : Intact s) : Listed s := by
  intro i hi hgone
  obtain ⟨e, he⟩ := h.lists.listed i ⟨hi, hgone⟩
  exact ⟨e, he, (h.lists.mem_entry _ e he i).mpr ⟨⟨hi, hgone⟩, rfl⟩⟩

theorem Evolves.key {a b : Subscription} (h : Evolves a b) : b.key = a.key := by
  rw [Subscription.key, Subscription.key, h.topic, h.securities]

/-- An action on the order side, or on single subscriptions. -/
theorem Intact.keeps (h : Intact s) (hkeeps : KeepsMarket s s')
    (hdone : s'.closeOnce = .done → s'.drained = true) : Intact s' := by
  have hlive : s'.live = s.live := by
    rw [Shared.live, Shared.live, hkeeps.size, hkeeps.gone]
  refine ⟨?_, ?_, ?_, fun i => (hkeeps.subs i).closes (h.closes i), ?_, hdone⟩
  · rw [hlive]
    exact h.lists.congr (fun k => by rw [hkeeps.entries]) hkeeps.heap hkeeps.size
      fun i => (hkeeps.subs i).key
  · rw [NoEmptyEntry, hkeeps.entries, hkeeps.heap]
    exact h.nonempty
  · rw [hkeeps.gone, hkeeps.size]
    exact h.gone_lt
  · intro hdrained
    rw [hkeeps.drained] at hdrained
    obtain ⟨hclosed, hempty⟩ := h.drained hdrained
    rw [hkeeps.entries]
    exact ⟨hkeeps.closed hclosed, hempty⟩

variable {o : PushOrchestration}

section

variable [UnicodeTables]

theorem Intact.register (h : Intact s) {q : Request} {found : Option EntryId}
    (hfound : s.orch.entries.lookup q.key = found) (hopen : s.drained = false) :
    Intact (s.withOrch (s.orch.register found q.topic q.msgType q.securities)) := by
  have hsize : (s.orch.register found q.topic q.msgType q.securities).subs.size =
      s.orch.subs.size + 1 := by
    rw [register_subs, Heap.size_alloc]
  have hlive : (s.withOrch (s.orch.register found q.topic q.msgType q.securities)).live =
      insert s.orch.subs.size s.live := by
    have hfresh : s.orch.subs.size ∉ s.gone := fun hmem => Nat.lt_irrefl _ (h.gone_lt _ hmem)
    ext i
    rw [Set.mem_insert_iff, Shared.mem_live, Shared.mem_live]
    simp only [Shared.withOrch, hsize]
    by_cases hi : i = s.orch.subs.size
    · simp [hi, hfresh]
    · have hlt : i < s.orch.subs.size + 1 ↔ i < s.orch.subs.size :=
        ⟨fun hlt => Nat.lt_of_le_of_ne (Nat.le_of_lt_succ hlt) hi, Nat.lt_succ_of_lt⟩
      simp [hi, hlt]
  refine ⟨?_, h.nonempty.register h.lists _ _ _ _, ?_, ?_, ?_, h.done⟩
  · rw [hlive]
    exact h.lists.register q.msgType hfound
  · intro i hi
    simp only [Shared.withOrch, hsize]
    exact Nat.lt_succ_of_lt (h.gone_lt i hi)
  · intro i
    simp only [Shared.withOrch, register_subs, Heap.get_alloc]
    split
    · rfl
    · exact h.closes i
  · intro hdrained
    have hdrained' : s.drained = true := hdrained
    rw [hopen] at hdrained'
    cases hdrained'

theorem lookup_detachLocked_none {k : Bytes} (hk : o.entries.lookup k = none) :
    (o.detachLocked i).1.entries.lookup k = none := by
  refine Option.eq_none_iff_forall_ne_some.mpr fun e he => ?_
  rw [lookup_of_detachLocked he] at hk
  cases hk

omit [UnicodeTables] in
/-- Subscriptions are taken over by someone who shuts them down. -/
theorem Intact.takeOver (h : Intact s) {ids : List SubId} (hsubs : o.subs = s.orch.subs)
    (hclosed : o.closed = s.orch.closed) (hlists : o.Lists (s.live \ {i | i ∈ ids}))
    (hnonempty : o.NoEmptyEntry) (hids : ∀ i ∈ ids, i < s.orch.subs.size)
    (hentries : ∀ k, s.orch.entries.lookup k = none → o.entries.lookup k = none) :
    Intact (s.takeOver o ids) := by
  have hlive : (s.takeOver o ids).live = s.live \ {i | i ∈ ids} := by
    ext i
    simp only [Shared.takeOver, Shared.mem_live, Set.mem_sdiff, hsubs, List.mem_append, not_or]
    exact ⟨fun ⟨hlt, hout, hgone⟩ => ⟨⟨hlt, hgone⟩, hout⟩,
      fun ⟨⟨hlt, hgone⟩, hout⟩ => ⟨hlt, hout, hgone⟩⟩
  refine ⟨?_, hnonempty, ?_, ?_, ?_, h.done⟩
  · rw [hlive]
    exact hlists
  · intro i hi
    simp only [Shared.takeOver, hsubs]
    rcases List.mem_append.mp hi with hi | hi
    · exact hids i hi
    · exact h.gone_lt i hi
  · intro i
    simp only [Shared.takeOver, hsubs]
    exact h.closes i
  · intro hdrained
    obtain ⟨hclosed', hempty⟩ := h.drained hdrained
    simp only [Shared.takeOver, hclosed]
    exact ⟨hclosed', fun k => hentries k (hempty k)⟩

theorem Intact.cancel (h : Intact s) {sub : SubId} (hsub : sub < s.orch.subs.size) :
    Intact (s.takeOver (s.orch.detachLocked sub).1 [sub]) := by
  obtain ⟨hsubs, -, -, hclosed⟩ := detachLocked_same s.orch sub
  refine h.takeOver hsubs hclosed ?_ (h.nonempty.detachLocked h.lists sub) ?_ ?_
  · rw [setOf_mem_singleton]
    exact h.lists.detachLocked sub
  · intro i hi
    exact List.mem_singleton.mp hi ▸ hsub
  · exact fun k => lookup_detachLocked_none

theorem Intact.killEntry (h : Intact s) {e : EntryId}
    (hown : ∀ e', s.orch.entries.lookup (s.orch.heap.get e).key = some e' → e' = e) :
    Intact (s.takeOver (s.orch.killSection e) (s.orch.heap.get e).subs) := by
  refine h.takeOver rfl rfl (h.lists.killSection hown) (h.nonempty.killSection e)
    (h.lists.member_lt e) fun k => ?_
  exact lookup_erase_eq_none

end

theorem Intact.closeAll (h : Intact s) (hclosed : s.orch.closed = true) :
    Intact { s.takeOver s.orch.drain s.orch.drained with drained := true } := by
  have hall : s.live \ {i | i ∈ s.orch.drained} = ∅ := by
    ext i
    simpa using fun hi => h.lists.mem_drained hi
  have htaken : Intact (s.takeOver s.orch.drain s.orch.drained) := by
    refine h.takeOver rfl rfl ?_ nofun (fun i hi => ?_) fun k _ => rfl
    · rw [hall]
      exact h.lists.drain
    · obtain ⟨e, -, hi⟩ := List.mem_flatMap.mp hi
      exact h.lists.member_lt e i hi
  exact { htaken with drained := fun _ => ⟨hclosed, fun _ => rfl⟩, done := fun _ => rfl }

/-! ## The outline -/

/-- What holds before the lock of a section. A `Subscribe` takes its lock before it looks
its key up, so it never waits later. -/
def AtSection (s : Shared) : Section → Prop
  | .request _ | .register .. => False
  | .cancel sub => sub < s.orch.subs.size
  | .closeAll => s.orch.closed = true
  | _ => True

/-- What holds inside a section: a `Subscribe` knows the entry under its key, and that
`Close` has not emptied the registry. -/
def InSection (s : Shared) : Section → Prop
  | .request q => s.orch.entries.lookup q.key = none ∧ s.drained = false
  | .register q found => s.orch.entries.lookup q.key = found ∧ s.drained = false
  | c => AtSection s c

/-- What holds outside. -/
def AtWork (s : Shared) : Work → Prop
  | .closeShutdown .. => s.drained = true
  | _ => True

/-- What holds at the places of a thread. -/
def places : Assertions Shared Section Work := ⟨AtSection, InSection, AtWork⟩

/-- What holds before a thread goes on outside. -/
abbrev AtExit : Shared → Exit Section Work → Prop := places.atExit

/-- The assertion at a point. -/
abbrev AtPoint : Shared → Point Section Work → Prop := places.atPoint

theorem AtSection.inSection (h : AtSection s c) : InSection s c := by
  cases c <;> first | exact h | exact h.elim

/-- Some facts, once true, stay true. -/
structure Progress (s s' : Shared) : Prop where
  size : s.orch.subs.size ≤ s'.orch.subs.size
  closed : s.orch.closed = true → s'.orch.closed = true
  drained : s.drained = true → s'.drained = true

theorem AtSection.progress (hp : Progress s s') (h : AtSection s c) : AtSection s' c := by
  cases c with
  | cancel sub => exact Nat.lt_of_lt_of_le h hp.size
  | closeAll => exact hp.closed h
  | _ => exact h

theorem AtWork.progress (hp : Progress s s') (h : AtWork s k) : AtWork s' k := by
  cases k with
  | closeShutdown subs orders => exact hp.drained h
  | _ => exact h

/-- The entry under a key matters inside the sections of one lock only. -/
theorem AtPoint.progress (hp : Progress s s') (h : AtPoint s p)
    (hsame : ∀ c, p.region = some c → c.mutex = .subMu →
      s'.orch.entries = s.orch.entries ∧ s'.drained = s.drained) :
    AtPoint s' p := by
  refine h.mono (fun _ => AtSection.progress hp) (fun _ => AtWork.progress hp) ?_
  rintro c rfl hc
  cases c with
  | request q | register q found =>
    obtain ⟨hentries, hdrained⟩ := hsame _ rfl rfl
    simp only [places, InSection, hentries, hdrained] at hc ⊢
    exact hc
  | cancel sub => exact Nat.lt_of_lt_of_le hc hp.size
  | closeAll => exact hp.closed hc
  | _ => trivial

theorem KeepsMarket.progress (h : KeepsMarket s s') : Progress s s' :=
  ⟨Nat.le_of_eq h.size.symm, h.closed, fun hd => h.drained.trans hd⟩

/-- No assertion is touched by an action that leaves the market side alone. -/
theorem AtPoint.keeps (hkeeps : KeepsMarket s s') (h : AtPoint s p) : AtPoint s' p :=
  h.progress hkeeps.progress fun _ _ _ => ⟨hkeeps.entries, hkeeps.drained⟩

/-- The kinds of calls without assertions. -/
def Free (κ : Kind) : Prop := κ ≠ .subscribe ∧ κ ≠ .cancel ∧ κ ≠ .close

theorem atExit_of_free (s : Shared) (h : ExitIn Free x) : AtExit s x := by
  cases x with
  | ret => trivial
  | enter c =>
    cases c <;> first | trivial | exact absurd rfl h.1 | exact absurd rfl h.2.1 | exact absurd rfl h.2.2
  | go k => cases k <;> first | trivial | exact absurd rfl h.2.2

theorem atPoint_of_free (s : Shared) (h : InCalls Free p) : AtPoint s p := by
  cases p with
  | idle => trivial
  | wait c => exact atExit_of_free s (x := .enter c) h
  | inside c => exact AtSection.inSection (atExit_of_free s (x := .enter c) h)
  | leaving c x => exact atExit_of_free s h.2
  | work k => exact atExit_of_free s (x := .go k) h

theorem atExit_of_start {a : Call} (h : start a s = some x) : AtExit s x := by
  cases a with
  | cancel sub =>
    obtain ⟨hsub, heq⟩ := Option.ite_none_right_eq_some.mp h
    cases heq
    exact hsub
  | cancelOrder ord | dispatch u now =>
    obtain ⟨-, heq⟩ := Option.ite_none_right_eq_some.mp h
    cases heq
    trivial
  | _ =>
    cases h
    trivial

theorem atExit_of_work (hk : AtWork s k) (h : work k r s = some (s', x)) : AtExit s' x := by
  cases k with
  | subscribe topic sec | close =>
    simp only [work] at h
    split at h <;> cases h <;> trivial
  | cancelShutdown sub last =>
    simp only [work] at h
    split at h
    · cases h
      trivial
    · split at h <;> cases h <;> trivial
  | cancelRequest e => cases r <;> cases h <;> trivial
  | closeFlag =>
    cases h
    rfl
  | closeShutdown subs orders =>
    cases subs <;> cases orders <;> cases h <;> first | exact hk | trivial
  | _ =>
    refine atExit_of_free s' (exitIn_of_kind (work_frame h).kind ⟨?_, ?_, ?_⟩) <;> rintro ⟨⟩

/-- `closeOnce` is done when the registry has been emptied. -/
theorem drained_of_work (hk : AtWork s k) (hinv : Intact s) (h : work k r s = some (s', x))
    (hdone : s'.closeOnce = .done) : s'.drained = true := by
  rw [(work_frame h).market.drained]
  rcases (work_frame h).once with hsame | rfl | rfl
  · exact hinv.done (hsame ▸ hdone)
  · simp only [work] at h
    split at h <;> cases h
    · cases hdone
    · exact hinv.done hdone
  · exact hk

section

variable [UnicodeTables]

theorem body_progress (c : Section) (r : Reply) (s : Shared) : Progress s (body c r s).1 := by
  cases hmodifies : c.modifies .byKey with
  | false => exact ((body_frame c r s).market hmodifies).progress
  | true =>
    cases c with
    | lookup q =>
      simp only [body]
      split
      · exact ⟨le_rfl, id, id⟩
      · split <;> exact ⟨le_rfl, id, id⟩
    | request q => cases r <;> exact ⟨le_rfl, id, id⟩
    | register q found =>
      refine ⟨?_, ?_, id⟩
      · simp only [body, Shared.withOrch, register_subs, Heap.size_alloc]
        exact Nat.le_succ _
      · cases found <;> exact id
    | cancel sub =>
      obtain ⟨hsubs, -, -, hclosed⟩ := detachLocked_same s.orch sub
      simp only [body]
      split
      · exact ⟨le_rfl, id, id⟩
      · refine ⟨?_, ?_, id⟩
        · simp only [Shared.takeOver, hsubs]
          exact le_rfl
        · simp only [Shared.takeOver, hclosed]
          exact id
    | killEntry e rest => exact ⟨le_rfl, id, id⟩
    | closeAll => exact ⟨le_rfl, id, fun _ => rfl⟩
    | _ => cases hmodifies

/-- The action of a section keeps the registry intact and reaches its next point. -/
theorem Intact.body (h : Intact s) (hc : InSection s c) (r : Reply)
    (hown : ∀ e rest, c = .killEntry e rest →
      ∀ e', s.orch.entries.lookup (s.orch.heap.get e).key = some e' → e' = e) :
    Intact (body c r s).1 ∧ AtPoint (body c r s).1 ((body c r s).2.point c) := by
  cases hmodifies : c.modifies .byKey with
  | false =>
    have hfree : Free c.kind := by
      cases c with
      | lookup q | request q | register q found | cancel sub | killEntry e rest | closeAll =>
        cases hmodifies
      | _ => exact ⟨nofun, nofun, nofun⟩
    have hkeeps := (body_frame c r s).market hmodifies
    refine ⟨h.keeps hkeeps fun hdone => ?_, atPoint_of_free _ ((body_frame c r s).inCalls hfree)⟩
    rw [(body_frame c r s).once] at hdone
    exact hkeeps.drained.trans (h.done hdone)
  | true =>
    cases c with
    | lookup q =>
      simp only [PushThreads.body]
      split
      · exact ⟨h, trivial⟩
      · rename_i hopen
        -- a registry that is drained has the flag set, which was read just now
        have hdrained : s.drained = false :=
          Bool.eq_false_of_not_eq_true fun hd => hopen (h.drained hd).1
        split
        · rename_i he
          exact ⟨h, he, hdrained⟩
        · rename_i he
          exact ⟨h, he, hdrained⟩
    | request q =>
      cases r with
      | none => exact ⟨h.keeps (keepsMarket_of_eq rfl) h.done, hc⟩
      | some cause => exact ⟨h, trivial⟩
    | register q found => exact ⟨h.register hc.1 hc.2, trivial⟩
    | cancel sub =>
      simp only [PushThreads.body]
      split
      · exact ⟨h, trivial⟩
      · exact ⟨h.cancel hc, trivial⟩
    | killEntry e rest => exact ⟨h.killEntry (hown e rest rfl), trivial⟩
    | closeAll => exact ⟨h.closeAll hc, rfl⟩
    | _ => cases hmodifies

/-- Two sections under `subMu` do not interfere, and the sections under `mu` leave the
registry alone. -/
theorem atPoint_other {s : System} (hlocked : Locked program s) {t t' : ℕ} (hne : t' ≠ t)
    (ht : s.point t = .inside c) (r : Reply) (h : AtPoint s.shared (s.point t')) :
    AtPoint (body c r s.shared).1 (s.point t') := by
  cases hmodifies : c.modifies .byKey with
  | false => exact h.keeps ((body_frame c r s.shared).market hmodifies)
  | true =>
    refine h.progress (body_progress c r s.shared) fun c' hc' hmutex => absurd ?_ hne
    refine hlocked.exclusive hc' (by rw [ht]; rfl) (hmutex.trans ?_)
    -- every section that modifies the market side is under `subMu`
    cases c <;> first | rfl | cases hmodifies

/-- **The outline.** -/
theorem intactOutline : Outline program KillsOwn Intact AtPoint where
  start := fun _ _ hx => (atExit_of_start hx).point
  lock := fun _ h => AtSection.inSection h
  unlock := fun _ h => Assertions.atExit.point h
  body := by
    intro s t r c h hown ht
    have hc : AtPoint s.shared (.inside c) := h.at_point ht
    exact h.inv.body hc r fun e rest hrest => hown e rest (hrest ▸ ht)
  body_other := fun h _ ht hne => atPoint_other h.locked hne ht _ (h.assert _)
  work := by
    intro s t r k shared x h _ ht hk
    have hwork : AtPoint s.shared (.work k) := h.at_point ht
    exact ⟨h.inv.keeps (work_frame hk).market (drained_of_work hwork h.inv hk),
      (atExit_of_work hwork hk).point⟩
  work_other := fun h _ _ hk _ => (h.assert _).keeps (work_frame hk).market

/-- A kill that hits a fresh entry loses its subscriptions. -/
theorem killsOwn_of_listed {s s' : System} {a : Action} (h : Intact s.shared)
    (hstep : step s a = some s') (h' : Listed s'.shared) : KillsOwn s a := by
  cases a with
  | call t a => trivial
  | run t r =>
    intro e rest ht e' he'
    cases Program.step_cases hstep with
    | @body _ _ c hc =>
      obtain rfl : c = .killEntry e rest := Point.inside.inj (hc.symm.trans ht)
      by_contra hne
      -- some subscription of the entry under the key is live, and not one of the doomed
      obtain ⟨j, hj⟩ := List.exists_mem_of_ne_nil _ (h.nonempty _ e' he')
      obtain ⟨hlive, hkey⟩ := (h.lists.mem_entry _ e' he' j).mp hj
      have hout : j ∉ (s.shared.orch.heap.get e).subs := fun hin =>
        hne (Option.some.inj (he'.symm.trans (h.lists.registered e j hin hlive)))
      obtain ⟨e'', he'', -⟩ := h' j hlive.1 (List.mem_append.not.mpr (not_or.mpr ⟨hout, hlive.2⟩))
      exact (lookup_erase_eq_some.mp he'').1 hkey
    | lock hc _ | unlock hc | work hc _ =>
      rw [ht] at hc
      cases hc

end

/-! ## The debts -/

/-- The subscription is shut down, if somebody has taken it over. -/
def Shut (s : Shared) (i : SubId) : Prop := i ∈ s.gone → (s.orch.subs.get i).closed = true

/-- The subscriptions a thread has yet to shut down. -/
def Work.doomed : Work → List SubId
  | .cancelShutdown sub _ => [sub]
  | .killShutdown _ doomed _ => doomed
  | .closeShutdown subs _ => subs
  | _ => []

def doomed : Exit Section Work → List SubId
  | .go k => k.doomed
  | _ => []

theorem Shut.keeps (hkeeps : KeepsMarket s s') (h : Shut s i) : Shut s' i := by
  intro hi
  rw [hkeeps.gone] at hi
  exact (hkeeps.subs i).closed (h hi)

theorem Shut.takeOver (h : Shut s i) {ids : List SubId} (hsubs : o.subs = s.orch.subs) :
    Shut (s.takeOver o ids) i ∨ i ∈ ids := by
  by_cases hi : i ∈ ids
  · exact .inr hi
  · refine .inl fun hgone => ?_
    simp only [Shared.takeOver, hsubs]
    exact h ((List.mem_append.mp hgone).resolve_left hi)

/-- The next subscription is shut down, and the rest later. -/
theorem shut_shutdown {j : SubId} {rest : List SubId} (h : Shut s i ∨ i ∈ j :: rest) :
    Shut (s.withOrch (s.orch.shutdown [j])) i ∨ i ∈ rest := by
  rcases h with h | h
  · exact .inl (h.keeps (keepsMarket_shutdown s [j]))
  · rcases List.mem_cons.mp h with rfl | h
    · refine .inl fun _ => ?_
      have hget : (s.orch.shutdown [i]).subs.get i = (s.orch.subs.get i).shutdown :=
        Heap.get_modifyAll_of_idem _ Subscription.shutdown_shutdown List.mem_cons_self
      simp only [Shared.withOrch, hget, Subscription.shutdown_closed]
    · exact .inr h

/-- After `Close` nothing is live, and what nobody owes is shut. -/
theorem closed_of_quiescent {s : System} (hinv : Intact s.shared)
    (hshut : Accounted Shut (fun x i => i ∈ doomed x) s) (hquiet : s.Quiescent)
    (hdone : s.shared.closeOnce = .done) (hi : i < s.shared.orch.subs.size) :
    (s.shared.orch.subs.get i).closed = true ∧ (s.shared.orch.subs.get i).closes = 1 := by
  -- a drained registry lists nothing, so everything was taken over
  have hgone : i ∈ s.shared.gone := by
    by_contra hgone
    obtain ⟨e, he⟩ := hinv.lists.listed i ⟨hi, hgone⟩
    rw [(hinv.drained (hinv.done hdone)).2] at he
    cases he
  have hclosed := hshut.quiescent (fun _ => List.not_mem_nil) hquiet i hgone
  exact ⟨hclosed, by rw [hinv.closes, hclosed]; rfl⟩

theorem intact_init (market trade transport : Bool) (n : ℤ) :
    Intact (init market trade transport n).shared := by
  refine ⟨⟨?_, nofun, nofun, nofun, nofun, ?_, nofun, nofun⟩, nofun, nofun, fun i => rfl, nofun, nofun⟩
  · exact fun i hi => hi.1
  · exact fun i hi => absurd hi.1 (Nat.not_lt_zero i)

section

variable [UnicodeTables]

theorem shut_body (hinv : Intact s) (h : Shut s i) (c : Section) (r : Reply) :
    Shut (body c r s).1 i ∨ i ∈ doomed ((body c r s).2.point c).next := by
  cases hmodifies : c.modifies .byKey with
  | false => exact .inl (h.keeps ((body_frame c r s).market hmodifies))
  | true =>
    cases c with
    | lookup q =>
      simp only [body]
      split
      · exact .inl h
      · split <;> exact .inl h
    | request q => cases r <;> exact .inl h
    | register q found =>
      refine .inl fun hi => ?_
      -- the new subscription is nobody's debt yet
      have hne : i ≠ s.orch.subs.size := Nat.ne_of_lt (hinv.gone_lt i hi)
      simp only [body, Shared.withOrch, register_subs, Heap.get_alloc, if_neg hne]
      exact h hi
    | cancel sub =>
      simp only [body]
      split
      · exact .inl h
      · exact h.takeOver (detachLocked_same s.orch sub).1
    | killEntry | closeAll => exact h.takeOver rfl
    | _ => cases hmodifies

omit [UnicodeTables] in
theorem shut_work (hk : work k r s = some (s', x)) (h : Shut s i ∨ i ∈ k.doomed) :
    Shut s' i ∨ i ∈ doomed x := by
  have hkeeps : Shut s i → Shut s' i := Shut.keeps (work_frame hk).market
  cases k with
  | cancelShutdown sub last =>
    have hshut := (shut_shutdown h).resolve_right List.not_mem_nil
    simp only [work] at hk
    split at hk
    · cases hk
      exact .inl hshut
    · split at hk <;> cases hk <;> exact .inl hshut
  | killShutdown e ids rest =>
    cases ids with
    | nil => exact .inl (hkeeps (h.resolve_right List.not_mem_nil))
    | cons j ids =>
      cases hk
      exact shut_shutdown h
  | closeShutdown subs orders =>
    cases subs with
    | nil => exact .inl (hkeeps (h.resolve_right List.not_mem_nil))
    | cons j subs =>
      cases hk
      exact shut_shutdown h
  | _ => exact .inl (hkeeps (h.resolve_right List.not_mem_nil))

/-- **The debts.** -/
theorem shutDebts : Debts program (fun (s : System) (_ : Action) => Intact s.shared) Shut
    (fun x i => i ∈ doomed x) where
  ret := fun _ => List.not_mem_nil
  body := fun hinv _ h => shut_body hinv (h.resolve_right List.not_mem_nil) _ _
  work := fun _ _ hk h => shut_work hk h

/-- **No subscription is lost, exactly.** In every interleaving, every subscription that no
cancel, kill or `Close` has taken over is listed in the entry under its key throughout,
exactly when each kill finds its own entry under the key or none. When that is so, then
after `Close` and all other calls have returned, the channel of every subscription has
been closed once. -/
theorem no_lost_subscription (market trade transport : Bool) (n : ℤ) (run : List Action) :
    (Always step (fun s => Listed s.shared) (init market trade transport n) run ↔
      EachStep step KillsOwn (init market trade transport n) run) ∧
    (EachStep step KillsOwn (init market trade transport n) run →
      ∀ s, exec step (init market trade transport n) run = some s → s.Quiescent →
        s.shared.closeOnce = .done → ∀ i < s.shared.orch.subs.size,
          (s.shared.orch.subs.get i).closed = true ∧ (s.shared.orch.subs.get i).closes = 1) := by
  have hinit : Sound program Intact AtPoint (init market trade transport n) :=
    sound_init (intact_init market trade transport n) trivial
  refine ⟨?_, fun hown s hs hquiet hdone i hi => ?_⟩
  · exact always_iff_eachStep (fun s h => h.inv.listed)
      (fun s a s' h hown hstep => intactOutline.step h hown hstep)
      (fun s a s' h hstep h' => killsOwn_of_listed h.inv hstep h') hinit run
  · have hall : Always step
        (fun s => Sound program Intact AtPoint s ∧ Accounted Shut (fun x i => i ∈ doomed x) s)
        (init market trade transport n) run :=
      hown.always (fun s a s' h hown hstep => ⟨intactOutline.step h.1 hown hstep,
        shutDebts.step h.2 h.1.inv hstep⟩) ⟨hinit, fun i => .inl nofun⟩
    obtain ⟨hsound, haccounted⟩ := hall.last hs
    exact closed_of_quiescent hsound.inv haccounted hquiet hdone hi

end

/-- A reconnect has its re-subscribe refused. Before it kills the entry, the only
subscription of the entry is cancelled and the instrument is subscribed to again. Then
everything is closed. -/
def lateKill : List Action :=
  subscribes 0 ++ .call 1 (.reconnect none) :: List.replicate 5 (.run 1 none) ++
    [.run 1 (some [])] ++ .call 0 (.cancel 0) :: List.replicate 5 (.run 0 none) ++
    subscribes 0 ++ List.replicate 6 (.run 1 none) ++
    .call 0 .close :: List.replicate 6 (.run 0 none)

/-- The new subscription is in no entry, and its channel is never closed. -/
theorem late_kill_loses : ∃ s,
    exec (@step asciiTables) (init true true true 0) lateKill = some s ∧ s.Quiescent ∧
      s.shared.closeOnce = .done ∧ (s.shared.orch.subs.get 1).closed = false ∧
      ¬ Listed s.shared := by
  obtain ⟨s, hs, hidle, hdone, hopen, hlt, hgone, hnone⟩ : ∃ s,
      exec (@step asciiTables) (init true true true 0) lateKill = some s ∧
      (∀ a ∈ lateKill, s.point a.thread = .idle) ∧ s.shared.closeOnce = .done ∧
      (s.shared.orch.subs.get 1).closed = false ∧ 1 < s.shared.orch.subs.size ∧
      1 ∉ s.shared.gone ∧ s.shared.orch.entries.lookup (s.shared.orch.subs.get 1).key = none :=
    exec_exists (by decide +kernel)
  refine ⟨s, hs, Program.quiescent_of_exec hs hidle, hdone, hopen, fun h => ?_⟩
  obtain ⟨e, he, -⟩ := h 1 hlt hgone
  rw [hnone] at he
  cases he

end HstongApi.PushThreads
