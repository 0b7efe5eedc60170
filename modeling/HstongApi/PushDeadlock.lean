import HstongApi.PushOutline
import HstongApi.Settling

/-!
# The orchestration does not deadlock

The locks of `PushSystem` are taken in the order of their ranks, so no set of threads waits in a
circle. That a started call can also come to its end needs two more things.

* Each action brings its thread nearer to the end of its call (`ActSpec.nearer`), and only finitely
  many threads ever had a call. So the threads cannot go on for ever without a new call.
* Only the drain goroutine blocks on something other than a lock, and when `Close` waits for it,
  `closeCh` is closed already.

`deadlock_free` says that the calls can return. That they do so in every schedule,
`calls_return_inevitably`, is said of the schedules without a race: `dispatchMarket` and
`dispatchTrade` read the registry under another lock than the one under which it is changed.
-/

namespace HstongApi.PushSystem

open Locks
open PushThreads (Part)

variable {s s' : System} {ev : Action}

section

variable [UnicodeTables] {a : Act}

/-! ## No deadlock -/

/-- Between calls; the drain goroutine waits for the transport. -/
def Resting (a : Act) : Prop := a = .idle ∨ a = .drain

/-- **When nothing blocks.** An action goes on, whatever the reply, unless it is one of rest and
nobody waits for its thread. -/
theorem act_isSome (hs : Good s) {t : ℕ} {a : Act} (ha : s.code t = .act a) (r : Reply)
    (hwaited : Resting a → ∃ t₀, Waits s t₀ t) : (act a r s.shared).isSome = true := by
  cases a with
  | idle =>
    -- an idle thread holds no lock
    obtain ⟨t₀, m, k, -, hholder⟩ := hwaited (.inl rfl)
    have hheld := (hs.locked.holder m t).mp hholder
    rw [ha] at hheld
    cases hheld
  | drain =>
    obtain ⟨t₀, m, k, hcode, hholder⟩ := hwaited (.inr rfl)
    have hheld := (hs.locked.holder m t).mp hholder
    rw [ha] at hheld
    obtain rfl : m = .wg := List.mem_singleton.mp hheld
    -- who waits for the drain goroutine is in `Close`, behind `closeCh`
    have hfits := hs.locked.fits t₀
    rw [hcode] at hfits
    have hguard : k.next.guard = .closing .errors := hfits.1 rfl
    have hknows := hs.knows t₀
    rw [hcode] at hknows
    simp only [Code.next, hguard] at hknows
    have hch : s.shared.closeCh = 1 := hknows.2.1
    simp [act, hch]
  | resubscribe rest =>
    obtain ⟨entries, account⟩ := rest
    cases entries <;> cases account <;> cases r <;> rfl
  | request | requestOrders | cancelRequest | cancelOrderRequest | killRequest => cases r <;> rfl
  | shutdowns subs orders after => cases subs <;> cases orders <;> rfl
  | deliver _ _ targets | deliverOrder _ _ targets => cases targets <;> rfl
  | report err after => cases err <;> rfl
  | deliverTo _ _ _ _ attempt | deliverOrderTo _ _ _ _ attempt =>
    cases attempt with
    | send =>
      simp only [act]
      split <;> rfl
    | _ => rfl
  | lookup | lookupOrders | handle =>
    simp only [act]
    split
    · rfl
    · split <;> rfl
  | subscribe | subscribeOrders | reconnect | close | closeOnce | dispatchMarket | reportCheck =>
    simp only [act]
    split <;> rfl
  | _ => rfl

/-- All but finitely many threads never had a call. -/
def FewCalls (s : System) : Prop := ∃ ts : Finset ℕ, ∀ t, t ∉ ts → s.code t = .act .idle

omit [UnicodeTables] in
theorem fewCalls_init (market trade transport : Bool) (n : ℤ) :
    FewCalls (init market trade transport n) := by
  refine ⟨{0}, fun t ht => if_neg fun h => ?_⟩
  exact ht (Finset.mem_singleton.mpr h.1)

theorem FewCalls.step (h : FewCalls s) (hstep : PushSystem.step s ev = some s') : FewCalls s' := by
  obtain ⟨ts, hts⟩ := h
  refine ⟨insert ev.thread ts, fun t ht => ?_⟩
  rw [Finset.mem_insert, not_or] at ht
  rw [Program.code_step hstep ht.1]
  exact hts t ht.2

omit [UnicodeTables] in
theorem rank_le (m : Mutex) : plan.rank m ≤ 5 := by cases m <;> simp [Mutex.rank]

/-- Without another call no run goes on for ever. -/
theorem FewCalls.acc (h : FewCalls s) :
    Acc (fun s₂ s₁ => ∃ t r, PushSystem.step s₁ (.run t r) = some s₂) s := by
  obtain ⟨ts, hts⟩ := h
  exact acc_run (P := program) (fun a r s s' k h => (act_spec h).nearer) (fun _ _ => rfl) hts

/-- Until every call has returned, some thread can go on, whatever it is replied. -/
theorem exists_going (hs : Good s) (hcall : ¬∀ t, AtRest Resting (s.code t)) :
    ∃ t, ∀ r, (step s (.run t r)).isSome = true :=
  hs.locked.exists_goes rank_le (fun ha hwaited r => act_isSome hs ha r hwaited) hcall

/-- **Every call can return**, whatever the replies. -/
theorem calls_return (hs : Good s) (hfew : FewCalls s) (reply : System → ℕ → Reply) :
    ∃ run s', exec step s run = some s' ∧
      EachStep step (fun s ev => ∃ t, ev = .run t (reply s t)) s run ∧
      ∀ t, AtRest Resting (s'.code t) := by
  induction hfew.acc with
  | intro s _ ih =>
    by_cases hcall : ∀ t, AtRest Resting (s.code t)
    · exact ⟨[], s, rfl, trivial, hcall⟩
    · obtain ⟨t, hgo⟩ := exists_going hs hcall
      obtain ⟨s₁, hstep⟩ := Option.isSome_iff_exists.mp (hgo (reply s t))
      obtain ⟨run, s', hexec, heach, hend⟩ :=
        ih s₁ ⟨t, _, hstep⟩ (good_step hs hstep) (hfew.step hstep)
      refine ⟨.run t (reply s t) :: run, s', exec_eq_some.mpr ⟨s₁, hstep, hexec⟩, ?_, hend⟩
      intro s₂ hstep₂
      cases hstep.symm.trans hstep₂
      exact ⟨⟨t, rfl⟩, heach⟩

/-- **No deadlock.** In every state of a run, no set of threads waits in a circle for locks or for
the end of the drain goroutine. Whatever the Gateway replies from then on, the threads can go on,
without another call, until every call has returned. -/
theorem deadlock_free (market trade transport : Bool) (n : ℤ) (run : List Action) :
    Always step (fun s =>
      (∀ S : Set ℕ, S.Nonempty → ∃ t ∈ S, ∀ t' ∈ S, ¬ Waits s t t') ∧
      ∀ reply : System → ℕ → Reply, ∃ run' s', exec step s run' = some s' ∧
        EachStep step (fun s ev => ∃ t, ev = .run t (reply s t)) s run' ∧
        ∀ t, s'.code t = .act .idle ∨ s'.code t = .act .drain)
      (init market trade transport n) run := by
  have hall : Always step (fun s => Good s ∧ FewCalls s) (init market trade transport n) run :=
    always_of_step (fun s ev s' h hstep => ⟨good_step h.1 hstep, h.2.step hstep⟩)
      ⟨good_init market trade transport n, fewCalls_init market trade transport n⟩ run
  refine hall.mono fun s hs => ⟨fun S hS => ?_, fun reply => ?_⟩
  · exact hs.1.locked.exists_not_waiting rank_le hS
  · obtain ⟨run', s', hexec, heach, hrest⟩ := calls_return hs.1 hs.2 reply
    refine ⟨run', s', hexec, heach, fun t => ?_⟩
    obtain ⟨a, hcode, rfl | rfl⟩ := hrest t
    · exact .inl hcode
    · exact .inr hcode

/-! ## Races

A dispatch reads the registry under `mu` and every other section changes it under `subMu`, so the
locks do not keep the two apart. `act` does each of them at once. In the source they take several
steps: when they overlap, the runtime may stop the process for a concurrent use of the map, and the
copy of `dispatchTrade` may be left with a nil entry. Whether calls return can therefore be said of
the runs without a race only. -/

/-- The parts of the registry that an action reads without `subMu`. -/
def Act.reads : Act → List Part
  | .dispatchMarket .. => [.byKey]
  | .dispatchTrade .. => [.orders]
  | _ => []

/-- The parts of the registry that an action changes. -/
def Act.modifies : Act → List Part
  | .register .. | .detach _ | .killEntry .. => [.byKey]
  | .registerOrders _ | .detachOrder _ | .killOrders => [.orders]
  | .closeAll => [.byKey, .orders]
  | _ => []

/-- The first action reads what the second one changes. -/
def Act.Clashes (a b : Act) : Prop := ∃ x ∈ a.reads, x ∈ b.modifies

/-- An action that may take part in a race. -/
def Act.Accesses (a : Act) : Prop := a.reads ≠ [] ∨ a.modifies ≠ []

/-- **A race**: one thread is about to read a part of the registry that another one is about to
change. -/
def Race (s : System) : Prop :=
  ∃ t t' a b, s.code t = .act a ∧ s.code t' = .act b ∧ a.Clashes b

open Classical in
/-- The steps of the system that do not lead to a race. -/
noncomputable def raceFree (s : System) (ev : Action) : Option System :=
  (step s ev).filter fun s' => ¬Race s'

theorem raceFree_eq_some : raceFree s ev = some s' ↔ step s ev = some s' ∧ ¬Race s' := by
  simp [raceFree, Option.filter_eq_some_iff]

omit [UnicodeTables] in
theorem not_race_init (market trade transport : Bool) (n : ℤ) :
    ¬Race (init market trade transport n) := by
  rintro ⟨t, t', a, b, ha, -, x, hx, -⟩
  -- all threads are at rest, where nothing is read
  simp only [init] at ha
  split at ha <;> cases ha <;> cases hx

omit [UnicodeTables] in
theorem Act.not_clashes_self (a : Act) : ¬a.Clashes a := by
  rintro ⟨x, hread, hmod⟩
  cases a with
  | dispatchMarket | dispatchTrade => cases hmod
  | _ => cases hread

/-- An access is the last action of its section. -/
theorem Act.Accesses.unlocks (h : a.Accesses) (r : Reply) (s : Shared) :
    ∃ s' m k, act a r s = some (s', .unlock m k) := by
  cases a with
  | dispatchMarket u now =>
    simp only [act]
    split <;> exact ⟨_, _, _, rfl⟩
  | dispatchTrade | register | detach | killEntry | registerOrders | detachOrder | killOrders
  | closeAll => exact ⟨_, _, _, rfl⟩
  | _ => exact absurd h (by simp [Act.Accesses, Act.reads, Act.modifies])

/-- A step that leads to a race leaves alone a thread that takes part in it. -/
theorem Race.other (hrace : Race s') (hstep : step s ev = some s') :
    ∃ t a, s.code t = .act a ∧ a.Accesses := by
  obtain ⟨t, t', a, b, ha, hb, x, hread, hmod⟩ := hrace
  by_cases ht : t = ev.thread
  · by_cases ht' : t' = ev.thread
    · rw [ht', ← ht, ha] at hb
      cases hb
      exact absurd ⟨x, hread, hmod⟩ a.not_clashes_self
    · rw [Program.code_step hstep ht'] at hb
      exact ⟨t', b, hb, .inr (List.ne_nil_of_mem hmod)⟩
  · rw [Program.code_step hstep ht] at ha
    exact ⟨t, a, ha, .inl (List.ne_nil_of_mem hread)⟩

theorem Act.Accesses.goes (h : a.Accesses) (hrace : ¬Race s) {t : ℕ} (ht : s.code t = .act a)
    (r : Reply) : (raceFree s (.run t r)).isSome = true := by
  obtain ⟨shared, m, k, hact⟩ := h.unlocks r s.shared
  have hstep : step s (.run t r) = some ((s.write shared).move t (.unlock m k)) := by
    simp [step, Program.step, ht, program, hact]
  refine Option.isSome_iff_exists.mpr ⟨_, raceFree_eq_some.mpr ⟨hstep, ?_⟩⟩
  have hold : ∀ {u b}, ((s.write shared).move t (.unlock m k)).code u = .act b →
      s.code u = .act b := by
    intro u b hu
    by_cases hut : u = t
    · rw [hut, State.move_code_self] at hu
      cases hu
    · rwa [State.move_code_of_ne _ hut] at hu
  rintro ⟨u, u', b, b', hb, hb', hclash⟩
  exact hrace ⟨u, u', b, b', hold hb, hold hb', hclash⟩

/-- **Some thread can go on without a race**, until every call has returned. -/
theorem exists_going_raceFree (hs : Good s) (hrace : ¬Race s)
    (hcall : ¬∀ t, AtRest Resting (s.code t)) :
    ∃ t, ∀ r, (raceFree s (.run t r)).isSome = true := by
  by_cases haccess : ∃ t a, s.code t = .act a ∧ a.Accesses
  · -- a thread that is about to access the registry goes first
    obtain ⟨t, a, ht, ha⟩ := haccess
    exact ⟨t, ha.goes hrace ht⟩
  · obtain ⟨t, hgo⟩ := exists_going hs hcall
    refine ⟨t, fun r => ?_⟩
    obtain ⟨s', hstep⟩ := Option.isSome_iff_exists.mp (hgo r)
    have hnot : ¬Race s' := fun h => haccess (h.other hstep)
    exact Option.isSome_iff_exists.mpr ⟨s', raceFree_eq_some.mpr ⟨hstep, hnot⟩⟩

/-- **Every call returns, in every schedule without a race.** In every state that is reached without
one: when no more calls come, the threads do not go on for ever, and until every call has returned
some thread can go on without a race, whatever it is replied. -/
theorem calls_return_inevitably (market trade transport : Bool) (n : ℤ) (run : List Action) :
    Always raceFree (Inevitable raceFree Event.run (fun _ ev => ∃ t r, ev = .run t r)
      fun s => ∀ t, AtRest Resting (s.code t)) (init market trade transport n) run := by
  have hkeep : ∀ s ev s', Good s ∧ FewCalls s ∧ ¬Race s → raceFree s ev = some s' →
      Good s' ∧ FewCalls s' ∧ ¬Race s' := by
    rintro s ev s' ⟨hgood, hfew, -⟩ hstep
    obtain ⟨hstep, hrace⟩ := raceFree_eq_some.mp hstep
    exact ⟨good_step hgood hstep, hfew.step hstep, hrace⟩
  have hinit : Good (init market trade transport n) ∧ FewCalls (init market trade transport n) ∧
      ¬Race (init market trade transport n) :=
    ⟨good_init market trade transport n, fewCalls_init market trade transport n,
      not_race_init market trade transport n⟩
  refine (always_of_step hkeep hinit run).mono fun s hs => ?_
  induction hs.2.1.acc with
  | intro s _ ih =>
    by_cases hgoal : ∀ t, AtRest Resting (s.code t)
    · exact .reached hgoal
    · refine .next (exists_going_raceFree hs.1 hs.2.2 hgoal) ?_
      rintro ev s' ⟨t, r, rfl⟩ hstep
      exact ih s' ⟨t, r, (raceFree_eq_some.mp hstep).1⟩ (hkeep s _ s' hs hstep)

end

end HstongApi.PushSystem
