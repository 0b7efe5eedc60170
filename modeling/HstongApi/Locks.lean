import HstongApi.Transition
import Mathlib.Algebra.BigOperators.Group.Finset.Basic
import Mathlib.Data.Prod.Lex
import Mathlib.Logic.Hydra
import Mathlib.Tactic.Linarith

/-!
# Threads that take several locks

A thread has a piece of `Code` before it: locks to take and to give back, and then one atomic
action. The action tells what the thread has to do next. A `Program` says what each action does
to the shared state; an action may learn something from outside, and it may block.

Which locks a thread holds can be read off its code once it is known which locks are held at each
action. A `Plan` says this, and `Plan.Follows` checks a program against it.

* `Locked` relates the holders of the locks to the code of the threads. It holds in every state
  (`Locked.step`), and two threads that hold one lock are one thread (`Locked.exclusive`).
* `Outline` is a proof outline. There is a global invariant, an assertion at each action, and for
  each lock a property of what the lock protects. That property may fail only while the holder of
  the lock is between two actions under it (`Plan.kept`).
* `Balanced` is the rule for quantities that are in the hands of threads.
* The locks have ranks, and a plan lets a thread wait only for a lock that ranks above all that it
  holds. Therefore no set of threads waits in a circle (`Locked.exists_not_waiting`), and some
  thread can go on until all are at rest (`Locked.exists_goes`). When each action brings a thread
  nearer to its end, no run goes on for ever without another call (`acc_run`).
-/

namespace HstongApi.Locks

variable {α μ σ ρ ς τ ι : Type*}

/-! ## Programs -/

/-- What a thread has before it: locks to take and to give back, and an action. -/
inductive Code (α μ : Type*)
  | act (a : α)
  | lock (m : μ) (k : Code α μ)
  | unlock (m : μ) (k : Code α μ)
  deriving DecidableEq

namespace Code

/-- The action that it comes to. -/
@[simp] def next : Code α μ → α
  | .act a => a
  | .lock _ k | .unlock _ k => k.next

/-- The number of locks to take and to give back before the action. -/
def depth : Code α μ → ℕ
  | .act _ => 0
  | .lock _ k | .unlock _ k => k.depth + 1

end Code

/-- What threads do: `ς` is what comes to them from outside, `ρ` what an action learns. -/
structure Program (α μ σ ρ ς : Type*) where
  /-- a thread at an action is called from outside, when this is possible -/
  call : ς → α → σ → Option (σ × Code α μ)
  /-- an atomic action, unless it blocks -/
  act : α → ρ → σ → Option (σ × Code α μ)

/-- The shared state, the holder of each lock and the code of each thread. -/
structure State (α μ σ τ : Type*) where
  shared : σ
  holder : μ → Option τ
  code : τ → Code α μ

/-- A thread is called, or it goes on. -/
inductive Event (ρ ς τ : Type*)
  | call (t : τ) (c : ς)
  | run (t : τ) (r : ρ)
  deriving DecidableEq

/-- What a program may do at an action. -/
inductive Program.Does (P : Program α μ σ ρ ς) (a : α) (s s' : σ) (k : Code α μ) : Prop
  | call {c : ς} : P.call c a s = some (s', k) → Program.Does P a s s' k
  | act {r : ρ} : P.act a r s = some (s', k) → Program.Does P a s s' k

/-- The shared state is replaced. -/
def State.write (s : State α μ σ τ) (shared : σ) : State α μ σ τ := { s with shared := shared }

@[simp] theorem State.write_shared (s : State α μ σ τ) (shared : σ) :
    (s.write shared).shared = shared := rfl

@[simp] theorem State.write_code (s : State α μ σ τ) (shared : σ) :
    (s.write shared).code = s.code := rfl

@[simp] theorem State.write_holder (s : State α μ σ τ) (shared : σ) :
    (s.write shared).holder = s.holder := rfl

section

variable [DecidableEq μ]

/-- The lock has another holder, or none. -/
def State.hand (s : State α μ σ τ) (m : μ) (t : Option τ) : State α μ σ τ :=
  { s with holder := Function.update s.holder m t }

@[simp] theorem State.hand_shared (s : State α μ σ τ) (m : μ) (t : Option τ) :
    (s.hand m t).shared = s.shared := rfl

@[simp] theorem State.hand_code (s : State α μ σ τ) (m : μ) (t : Option τ) :
    (s.hand m t).code = s.code := rfl

end

section

variable [DecidableEq τ]

/-- Thread `t` goes on with other code. -/
def State.move (s : State α μ σ τ) (t : τ) (k : Code α μ) : State α μ σ τ :=
  { s with code := Function.update s.code t k }

@[simp] theorem State.move_shared (s : State α μ σ τ) (t : τ) (k : Code α μ) :
    (s.move t k).shared = s.shared := rfl

@[simp] theorem State.move_holder (s : State α μ σ τ) (t : τ) (k : Code α μ) :
    (s.move t k).holder = s.holder := rfl

@[simp] theorem State.move_code_self (s : State α μ σ τ) (t : τ) (k : Code α μ) :
    (s.move t k).code t = k := by
  simp [move]

theorem State.move_code_of_ne (s : State α μ σ τ) {t t' : τ} (h : t' ≠ t) (k : Code α μ) :
    (s.move t k).code t' = s.code t' := by
  simp [move, h]

variable [DecidableEq μ]

variable (P : Program α μ σ ρ ς)

/-- **One step of the system.** -/
def Program.step (s : State α μ σ τ) : Event ρ ς τ → Option (State α μ σ τ)
  | .call t c =>
    match s.code t with
    | .act a => (P.call c a s.shared).map fun (shared, k) => (s.write shared).move t k
    | _ => none
  | .run t r =>
    match s.code t with
    | .act a => (P.act a r s.shared).map fun (shared, k) => (s.write shared).move t k
    | .lock m k =>
      if s.holder m = none then some ((s.hand m (some t)).move t k) else none
    | .unlock m k => some ((s.hand m none).move t k)

/-- What a step of a thread can do. -/
inductive Program.Step (t : τ) (s : State α μ σ τ) : State α μ σ τ → Prop
  | act {a shared k} : s.code t = .act a → P.Does a s.shared shared k →
      Program.Step t s ((s.write shared).move t k)
  | lock {m k} : s.code t = .lock m k → s.holder m = none →
      Program.Step t s ((s.hand m (some t)).move t k)
  | unlock {m k} : s.code t = .unlock m k → Program.Step t s ((s.hand m none).move t k)

/-- The thread of an event. -/
def Event.thread : Event ρ ς τ → τ
  | .call t _ | .run t _ => t

variable {P}

theorem Program.step_cases {s s' : State α μ σ τ} {ev : Event ρ ς τ}
    (h : P.step s ev = some s') : P.Step ev.thread s s' := by
  cases ev with
  | call t c =>
    simp only [step] at h
    split at h
    · obtain ⟨⟨shared, k⟩, hcall, rfl⟩ := Option.map_eq_some_iff.mp h
      exact .act ‹_› (.call hcall)
    · cases h
  | run t r =>
    simp only [step] at h
    split at h
    · obtain ⟨⟨shared, k⟩, hact, rfl⟩ := Option.map_eq_some_iff.mp h
      exact .act ‹_› (.act hact)
    · obtain ⟨hfree, heq⟩ := Option.ite_none_right_eq_some.mp h
      cases heq
      exact .lock ‹_› hfree
    · cases h
      exact .unlock ‹_›

/-- A step that is not an action changes neither what is shared nor where a thread comes to. -/
theorem Program.step_acts {s s' : State α μ σ τ} {ev : Event ρ ς τ} (h : P.step s ev = some s') :
    (∃ a shared k, s.code ev.thread = .act a ∧ P.Does a s.shared shared k ∧
      s' = (s.write shared).move ev.thread k) ∨
    ((∀ a, s.code ev.thread ≠ .act a) ∧ s'.shared = s.shared ∧
      ∀ t, (s'.code t).next = (s.code t).next) := by
  have hcases := Program.step_cases h
  generalize ev.thread = t at hcases ⊢
  cases hcases with
  | act ht hdoes => exact .inl ⟨_, _, _, ht, hdoes, rfl⟩
  | lock ht _ | unlock ht =>
    refine .inr ⟨fun a ha => ?_, rfl, fun t' => ?_⟩
    · rw [ht] at ha
      cases ha
    · by_cases htt : t' = t
      · rw [htt, State.move_code_self, ht, Code.next]
      · rw [State.move_code_of_ne _ htt, State.hand_code]

/-- A step moves one thread. -/
theorem Program.code_step {s s' : State α μ σ τ} {ev : Event ρ ς τ}
    (h : P.step s ev = some s') {t : τ} (ht : t ≠ ev.thread) : s'.code t = s.code t := by
  cases Program.step_cases h <;> exact State.move_code_of_ne _ ht _

theorem Program.code_exec {s s' : State α μ σ τ} {run : List (Event ρ ς τ)}
    (h : exec P.step s run = some s') {t : τ} (ht : ∀ ev ∈ run, t ≠ ev.thread) :
    s'.code t = s.code t := by
  induction run generalizing s with
  | nil => rw [Option.some.inj h]
  | cons ev run ih =>
    obtain ⟨s₁, hstep, hrun⟩ := exec_eq_some.mp h
    rw [ih hrun fun ev' hev' => ht ev' (List.mem_cons_of_mem _ hev')]
    exact code_step hstep (ht ev List.mem_cons_self)

/-- What holds of all threads at first, and of those with an event in the end, holds of all. -/
theorem Program.forall_next {p : α → Prop} {s s' : State α μ σ τ} {run : List (Event ρ ς τ)}
    (h : exec P.step s run = some s') (hinit : ∀ t, p (s.code t).next)
    (hrun : ∀ ev ∈ run, p (s'.code ev.thread).next) (t : τ) : p (s'.code t).next := by
  by_cases ht : ∃ ev ∈ run, t = ev.thread
  · obtain ⟨ev, hev, rfl⟩ := ht
    exact hrun ev hev
  · push Not at ht
    rw [Program.code_exec h ht]
    exact hinit t

end

/-! ## Plans -/

/-- Which locks are held at an action, which of them are held all the way from the action before
it, and which may be taken on the way to it. The locks have ranks. -/
structure Plan (α μ : Type*) where
  held : α → List μ
  kept : α → List μ
  may : μ → α → Prop
  rank : μ → ℕ

namespace Plan

variable (d : Plan α μ)

/-- The locks that are held on the way to an action. -/
@[simp] def heldAt : Code α μ → List μ
  | .act a => d.held a
  | .lock _ k => (heldAt k).tail
  | .unlock m k => m :: heldAt k

/-- The code takes and gives back locks like brackets, in the order of their ranks, and keeps
those that it has to keep. -/
@[simp] def Fits : Code α μ → Prop
  | .act a => ∀ m ∈ d.kept a, m ∈ d.held a
  | .lock m k =>
    d.may m k.next ∧ d.heldAt k = m :: (d.heldAt k).tail ∧
      (∀ m' ∈ (d.heldAt k).tail, d.rank m' < d.rank m) ∧
      (∀ m' ∈ d.kept k.next, m' ∈ (d.heldAt k).tail) ∧ Fits k
  | .unlock m k => m ∉ d.heldAt k ∧ Fits k

/-- **The program follows the plan.** -/
def Follows (P : Program α μ σ ρ ς) : Prop :=
  ∀ {a s s' k}, P.Does a s s' k → d.Fits k ∧ d.heldAt k = d.held a

variable {d}

theorem Fits.kept {k : Code α μ} (h : d.Fits k) : ∀ m ∈ d.kept k.next, m ∈ d.heldAt k := by
  induction k with
  | act a => exact h
  | lock m k _ => exact h.2.2.2.1
  | unlock m k ih => exact fun m' hm' => List.mem_cons_of_mem _ (ih h.2 m' hm')

end Plan

/-! ## Mutual exclusion -/

/-- The code of every thread fits, and the holder of a lock is the thread whose code says so. -/
structure Locked (d : Plan α μ) (s : State α μ σ τ) : Prop where
  fits : ∀ t, d.Fits (s.code t)
  holder : ∀ m t, s.holder m = some t ↔ m ∈ d.heldAt (s.code t)

variable {d : Plan α μ} {P : Program α μ σ ρ ς} {s s' : State α μ σ τ} {t : τ} {m : μ}
  {k : Code α μ} {ev : Event ρ ς τ}

/-- **Mutual exclusion.** -/
theorem Locked.exclusive (h : Locked d s) {t' : τ} (ht : m ∈ d.heldAt (s.code t))
    (ht' : m ∈ d.heldAt (s.code t')) : t = t' :=
  Option.some.inj (((h.holder m t).mpr ht).symm.trans ((h.holder m t').mpr ht'))

section

variable [DecidableEq τ]

/-- What is left to show when one thread goes to another code. -/
theorem State.forall_move {p : Code α μ → Prop} (hp : ∀ t, p (s.code t)) (hk : p k) (t' : τ) :
    p ((s.move t k).code t') := by
  by_cases ht : t' = t
  · rw [ht, State.move_code_self]
    exact hk
  · rw [State.move_code_of_ne _ ht]
    exact hp t'

theorem Locked.move (h : Locked d s) (shared : σ) (hfits : d.Fits k)
    (hheld : d.heldAt k = d.heldAt (s.code t)) : Locked d ((s.write shared).move t k) := by
  refine ⟨State.forall_move h.fits hfits, fun m t' => ?_⟩
  rw [State.move_holder, State.write_holder, h.holder m t']
  by_cases ht : t' = t
  · rw [ht, State.move_code_self, hheld]
  · rw [State.move_code_of_ne _ ht]
    rfl

variable [DecidableEq μ]

theorem Locked.lock (h : Locked d s) (ht : s.code t = .lock m k) (hfree : s.holder m = none) :
    Locked d ((s.hand m (some t)).move t k) := by
  have hfits := h.fits t
  rw [ht] at hfits
  have hnone : ∀ t', m ∉ d.heldAt (s.code t') := by
    intro t' hm
    rw [(h.holder m t').mpr hm] at hfree
    cases hfree
  refine ⟨State.forall_move h.fits hfits.2.2.2.2, fun m' t' => ?_⟩
  have hhand : ((s.hand m (some t)).move t k).holder = Function.update s.holder m (some t) := rfl
  rw [hhand]
  have hold := h.holder m' t'
  by_cases htt : t' = t
  · subst htt
    rw [State.move_code_self, hfits.2.1, List.mem_cons]
    rw [ht] at hold
    by_cases hm : m' = m
    · rw [hm, Function.update_self]
      exact iff_of_true rfl (.inl rfl)
    · rw [Function.update_of_ne hm, hold, or_iff_right hm]
      rfl
  · rw [State.move_code_of_ne _ htt]
    by_cases hm : m' = m
    · rw [hm, Function.update_self]
      exact iff_of_false (fun heq => htt (Option.some.inj heq).symm) (hnone t')
    · rw [Function.update_of_ne hm]
      exact hold

theorem Locked.unlock (h : Locked d s) (ht : s.code t = .unlock m k) :
    Locked d ((s.hand m none).move t k) := by
  have hfits := h.fits t
  rw [ht] at hfits
  have hself : m ∈ d.heldAt (s.code t) := by
    rw [ht]
    exact List.mem_cons_self
  refine ⟨State.forall_move h.fits hfits.2, fun m' t' => ?_⟩
  have hhand : ((s.hand m none).move t k).holder = Function.update s.holder m none := rfl
  rw [hhand]
  have hold := h.holder m' t'
  by_cases hm : m' = m
  · rw [hm, Function.update_self]
    refine iff_of_false nofun fun hmem => ?_
    by_cases htt : t' = t
    · rw [htt, State.move_code_self] at hmem
      exact hfits.1 hmem
    · rw [State.move_code_of_ne _ htt] at hmem
      exact htt (h.exclusive hmem hself)
  · rw [Function.update_of_ne hm, hold]
    by_cases htt : t' = t
    · rw [htt, State.move_code_self, ht]
      exact List.mem_cons.trans (or_iff_right hm)
    · rw [State.move_code_of_ne _ htt]
      rfl

/-- **The locks work.** -/
theorem Locked.step (hd : d.Follows P) (h : Locked d s) (hstep : P.step s ev = some s') :
    Locked d s' := by
  cases Program.step_cases hstep with
  | @act a shared k ht hdoes =>
    obtain ⟨hfits, hheld⟩ := hd hdoes
    exact h.move shared hfits (by rw [hheld, ht]; rfl)
  | lock ht hfree => exact h.lock ht hfree
  | unlock ht => exact h.unlock ht

end

/-! ## Proof outlines -/

/-- The invariant, the assertion of each thread at the action it comes to, and the property of
each lock whose holder is not between two actions under it. -/
structure Sound (d : Plan α μ) (inv : σ → Prop) (knows : σ → α → Prop) (owns : σ → μ → Prop)
    (s : State α μ σ τ) : Prop where
  locked : Locked d s
  inv : inv s.shared
  knows : ∀ t, knows s.shared (s.code t).next
  owns : ∀ m, owns s.shared m ∨ ∃ t, m ∈ d.kept (s.code t).next

/-- **A proof outline.** -/
structure Outline (d : Plan α μ) (P : Program α μ σ ρ ς) (inv : σ → Prop) (knows : σ → α → Prop)
    (owns : σ → μ → Prop) : Prop where
  /-- an action keeps the invariant, establishes the next assertion, and restores what is
  protected by the locks that it does not keep -/
  own : ∀ {a s s' k}, inv s → knows s a → (∀ m ∈ d.held a, m ∉ d.kept a → owns s m) →
    P.Does a s s' k →
    inv s' ∧ knows s' k.next ∧ ∀ m ∈ d.held a, m ∉ d.kept k.next → owns s' m
  /-- it does not interfere with what other locks protect -/
  owns : ∀ {a s s' k m}, inv s → knows s a → P.Does a s s' k → m ∉ d.held a → owns s m → owns s' m
  /-- nor with the assertion of another thread -/
  knows : ∀ {a s s' k b}, inv s → knows s a → P.Does a s s' k →
    (∀ m ∈ d.kept b, m ∉ d.held a) → knows s b → knows s' b

variable {inv : σ → Prop} {knows : σ → α → Prop} {owns : σ → μ → Prop}

/-- A thread that acts knows what it needs. -/
theorem Sound.knows_act (h : Sound d inv knows owns s) {a : α} (ht : s.code t = .act a) :
    knows s.shared a := by
  have hknows := h.knows t
  rwa [ht] at hknows

/-- What a lock protects is in order when a thread acts that took the lock just before. -/
theorem Sound.owns_of_held (h : Sound d inv knows owns s) {a : α} (ht : s.code t = .act a)
    (hm : m ∈ d.held a) (hkept : m ∉ d.kept a) : owns s.shared m := by
  rcases h.owns m with howns | ⟨t', hm'⟩
  · exact howns
  · have hheld : m ∈ d.heldAt (s.code t) := by
      rw [ht]
      exact hm
    obtain rfl := h.locked.exclusive ((h.locked.fits t').kept m hm') hheld
    rw [ht] at hm'
    exact absurd hm' hkept

theorem Sound.owns_of_rest (h : Sound d inv knows owns s) (hrest : ∀ t, m ∉ d.kept (s.code t).next) :
    owns s.shared m :=
  (h.owns m).resolve_right fun ⟨t, ht⟩ => hrest t ht

section

variable [DecidableEq τ]

/-- Taking and giving back a lock changes nothing but the code. -/
theorem Sound.pass (h : Sound d inv knows owns s) {s₀ : State α μ σ τ}
    (hshared : s₀.shared = s.shared) (hcode : s₀.code = s.code) (hlocked : Locked d (s₀.move t k))
    (hnext : k.next = (s.code t).next) : Sound d inv knows owns (s₀.move t k) := by
  have hsame : ∀ t', ((s₀.move t k).code t').next = (s.code t').next := by
    intro t'
    by_cases ht : t' = t
    · rw [ht, State.move_code_self, hnext]
    · rw [State.move_code_of_ne _ ht, hcode]
  refine ⟨hlocked, ?_, fun t' => ?_, fun m => ?_⟩
  · rw [State.move_shared, hshared]
    exact h.inv
  · rw [State.move_shared, hshared, hsame]
    exact h.knows t'
  · rw [State.move_shared, hshared]
    refine (h.owns m).imp_right fun ⟨t', ht'⟩ => ⟨t', ?_⟩
    rw [hsame]
    exact ht'

variable [DecidableEq μ]

/-- **A proof outline is kept** by every step. -/
theorem Outline.step (o : Outline d P inv knows owns) (hd : d.Follows P)
    (h : Sound d inv knows owns s) (hstep : P.step s ev = some s') : Sound d inv knows owns s' := by
  have hlocked := h.locked.step hd hstep
  have hcases := Program.step_cases hstep
  generalize ev.thread = t at hcases
  cases hcases with
  | @act a shared k ht hdoes =>
    have ha := h.knows_act ht
    obtain ⟨hinv, hself, hrestored⟩ :=
      o.own h.inv ha (fun m hm hkept => h.owns_of_held ht hm hkept) hdoes
    refine ⟨hlocked, hinv, fun t' => ?_, fun m => ?_⟩
    · rw [State.move_shared]
      by_cases htt : t' = t
      · rw [htt, State.move_code_self]
        exact hself
      · rw [State.move_code_of_ne _ htt]
        refine o.knows h.inv ha hdoes (fun m hm hheld => htt ?_) (h.knows t')
        refine h.locked.exclusive ((h.locked.fits t').kept m hm) ?_
        rw [ht]
        exact hheld
    · rw [State.move_shared]
      by_cases hkept : m ∈ d.kept k.next
      · exact .inr ⟨t, by rw [State.move_code_self]; exact hkept⟩
      · by_cases hheld : m ∈ d.held a
        · exact .inl (hrestored m hheld hkept)
        · rcases h.owns m with howns | ⟨t', ht'⟩
          · exact .inl (o.owns h.inv ha hdoes hheld howns)
          · have htt : t' ≠ t := by
              rintro rfl
              have hmem := (h.locked.fits t').kept m ht'
              rw [ht] at hmem
              exact hheld hmem
            exact .inr ⟨t', by rw [State.move_code_of_ne _ htt]; exact ht'⟩
  | lock ht | unlock ht => exact h.pass rfl rfl hlocked (by rw [ht]; rfl)

end

/-! ## Balances -/

/-- A number of the shared state is the sum of what threads have in their hands. -/
def Balanced (amount : σ → ℤ) (hand : α → ℕ) (s : State α μ σ τ) : Prop :=
  ∃ ts : Finset τ, (∀ t, t ∉ ts → hand (s.code t).next = 0) ∧
    amount s.shared = ∑ t ∈ ts, (hand (s.code t).next : ℤ)

variable {amount : σ → ℤ} {hand : α → ℕ}

/-- When no thread has anything in its hands, the number is zero. -/
theorem Balanced.rest (h : Balanced amount hand s) (hrest : ∀ t, hand (s.code t).next = 0) :
    amount s.shared = 0 := by
  obtain ⟨ts, -, hsum⟩ := h
  rw [hsum]
  exact Finset.sum_eq_zero fun t _ => by rw [hrest t]; rfl

section

variable [DecidableEq τ]

/-- What is left to show when one thread moves. -/
theorem Balanced.move (h : Balanced amount hand s) {s₀ : State α μ σ τ} (hcode : s₀.code = s.code)
    (hchange : amount s₀.shared - amount s.shared = hand k.next - hand (s.code t).next) :
    Balanced amount hand (s₀.move t k) := by
  obtain ⟨ts, hzero, hsum⟩ := h
  have hwider : amount s.shared = ∑ t' ∈ insert t ts, (hand (s.code t').next : ℤ) := by
    rw [hsum]
    refine Finset.sum_subset (Finset.subset_insert t ts) fun t' _ ht' => ?_
    rw [hzero t' ht']
    rfl
  have hother : ∑ t' ∈ (insert t ts).erase t, (hand ((s₀.move t k).code t').next : ℤ) =
      ∑ t' ∈ (insert t ts).erase t, (hand (s.code t').next : ℤ) := by
    refine Finset.sum_congr rfl fun t' ht' => ?_
    rw [State.move_code_of_ne _ (Finset.ne_of_mem_erase ht'), hcode]
  refine ⟨insert t ts, fun t' ht' => ?_, ?_⟩
  · rw [Finset.mem_insert, not_or] at ht'
    rw [State.move_code_of_ne _ ht'.1, hcode]
    exact hzero t' ht'.2
  · rw [← Finset.add_sum_erase _ _ (Finset.mem_insert_self t ts)] at hwider ⊢
    rw [hother, State.move_code_self, State.move_shared]
    linarith only [hwider, hchange]

variable [DecidableEq μ]

/-- **The rule for balances**: an action changes the number by what it takes in its hands or lays
down. -/
theorem Balanced.step (hkeep : ∀ {a s s' k}, inv s → knows s a → P.Does a s s' k →
      amount s' - amount s = hand k.next - hand a) (hsound : Sound d inv knows owns s)
    (h : Balanced amount hand s) (hstep : P.step s ev = some s') : Balanced amount hand s' := by
  have hcases := Program.step_cases hstep
  generalize ev.thread = t at hcases
  cases hcases with
  | @act a shared k ht hdoes =>
    refine h.move (State.write_code s shared) ?_
    rw [ht]
    exact hkeep hsound.inv (hsound.knows_act ht) hdoes
  | @lock m k ht hfree =>
    refine h.move (State.hand_code s m (some t)) ?_
    rw [ht, State.hand_shared]
    simp only [Code.next, sub_self]
  | @unlock m k ht =>
    refine h.move (State.hand_code s m none) ?_
    rw [ht, State.hand_shared]
    simp only [Code.next, sub_self]

end

/-! ## No waiting in a circle -/

/-- Thread `t` waits for a lock that `t'` holds. -/
def Waits (s : State α μ σ τ) (t t' : τ) : Prop :=
  ∃ m k, s.code t = .lock m k ∧ s.holder m = some t'

/-- What a thread waits for ranks above all that it holds. -/
theorem Locked.rank_lt (h : Locked d s) {m' : μ} (ht : s.code t = .lock m k)
    (hm' : m' ∈ d.heldAt (s.code t)) : d.rank m' < d.rank m := by
  have hfits := h.fits t
  rw [ht] at hfits hm'
  exact hfits.2.2.1 m' hm'

variable {bound : ℕ}

/-- **No set of threads waits in a circle**: one of its threads waits for none of them. -/
theorem Locked.exists_not_waiting (h : Locked d s) (hbound : ∀ m, d.rank m ≤ bound) {S : Set τ}
    (hS : S.Nonempty) : ∃ t ∈ S, ∀ t' ∈ S, ¬ Waits s t t' := by
  by_contra hcircle
  push Not at hcircle
  -- going round the circle, the ranks of what is waited for grow without bound
  have hgrow : ∀ n, ∃ t ∈ S, ∃ m k, s.code t = .lock m k ∧ n ≤ d.rank m := by
    intro n
    induction n with
    | zero =>
      obtain ⟨t, ht⟩ := hS
      obtain ⟨t', -, m, k, hcode, -⟩ := hcircle t ht
      exact ⟨t, ht, m, k, hcode, Nat.zero_le _⟩
    | succ n ih =>
      obtain ⟨t, ht, m, k, hcode, hn⟩ := ih
      obtain ⟨t', ht', m₁, k₁, hcode₁, hholder⟩ := hcircle t ht
      cases hcode₁.symm.trans hcode
      obtain ⟨-, -, m', k', hcode', -⟩ := hcircle t' ht'
      exact ⟨t', ht', m', k', hcode', hn.trans_lt (h.rank_lt hcode' ((h.holder _ t').mp hholder))⟩
  obtain ⟨t, -, m, k, -, hm⟩ := hgrow (bound + 1)
  exact absurd (hbound m) (Nat.not_le_of_lt hm)

/-- Whoever waits, waits in the end for a thread that does not wait. -/
theorem Locked.exists_waited (h : Locked d s) (hbound : ∀ m, d.rank m ≤ bound) (t : τ) :
    ∃ t', (t' = t ∨ ∃ t₀, Waits s t₀ t') ∧ ∀ t'', ¬ Waits s t' t'' := by
  obtain ⟨t', ht', hnone⟩ := h.exists_not_waiting hbound
    (S := {t' | Relation.ReflTransGen (Waits s) t t'}) ⟨t, .refl⟩
  refine ⟨t', ?_, fun t'' hwaits => hnone t'' (ht'.tail hwaits) hwaits⟩
  rcases Relation.ReflTransGen.cases_tail ht' with heq | ⟨t₀, -, hwaits⟩
  · exact .inl heq
  · exact .inr ⟨t₀, hwaits⟩

/-! ## Coming to rest -/

/-- The thread is at an action of rest. -/
def AtRest (rest : α → Prop) (k : Code α μ) : Prop := ∃ a, k = .act a ∧ rest a

variable {size : α → ι}

section

variable [DecidableEq τ] [DecidableEq μ]

/-- A thread that does not wait for a lock goes on, unless its action blocks. -/
theorem exists_run {r : ρ} (hwaits : ∀ t', ¬ Waits s t t')
    (hact : ∀ a, s.code t = .act a → (P.act a r s.shared).isSome = true) :
    ∃ s', P.step s (.run t r) = some s' := by
  cases hcode : s.code t with
  | act a =>
    obtain ⟨⟨shared, k⟩, heq⟩ := Option.isSome_iff_exists.mp (hact a hcode)
    exact ⟨(s.write shared).move t k, by simp only [Program.step, hcode, heq, Option.map_some]⟩
  | lock m k =>
    have hfree : s.holder m = none := by
      cases hholder : s.holder m with
      | none => rfl
      | some t' => exact absurd ⟨m, k, hcode, hholder⟩ (hwaits t')
    exact ⟨(s.hand m (some t)).move t k, by simp only [Program.step, hcode, hfree, if_true]⟩
  | unlock m k => exact ⟨(s.hand m none).move t k, by simp only [Program.step, hcode]⟩

/-- **Some thread can go on**, whatever its action learns, as long as one of them is not at rest, when
the code is ordered by ranks and only an action of rest for which nobody waits may block. -/
theorem Locked.exists_goes (h : Locked d s) (hbound : ∀ m, d.rank m ≤ bound) {rest : α → Prop}
    (hlive : ∀ {t a}, s.code t = .act a → (rest a → ∃ t₀, Waits s t₀ t) →
      ∀ r, (P.act a r s.shared).isSome = true) (hbusy : ¬∀ t, AtRest rest (s.code t)) :
    ∃ t, ∀ r, (P.step s (.run t r)).isSome = true := by
  push Not at hbusy
  obtain ⟨t, hbusy⟩ := hbusy
  obtain ⟨t', hwho, hwaits⟩ := h.exists_waited hbound t
  refine ⟨t', fun r => Option.isSome_iff_exists.mpr (exists_run hwaits fun a ha => ?_)⟩
  exact hlive ha (fun hrest => hwho.resolve_left fun heq => hbusy ⟨a, heq ▸ ha, hrest⟩) r

/-- How far a thread is from its end. -/
def weight (size : α → ι) (k : Code α μ) : ι ×ₗ ℕ := toLex (size k.next, k.depth)

theorem weight_lt [Preorder ι]
    (hsize : ∀ a r s s' k, P.act a r s = some (s', k) → size k.next < size a) {r : ρ}
    (hstep : P.step s (.run t r) = some s') : weight size (s'.code t) < weight size (s.code t) := by
  simp only [Program.step] at hstep
  split at hstep
  · rename_i a hcode
    obtain ⟨⟨shared, k⟩, hact, rfl⟩ := Option.map_eq_some_iff.mp hstep
    rw [State.move_code_self, hcode]
    exact Prod.Lex.toLex_lt_toLex.mpr (.inl (hsize a r s.shared shared k hact))
  · rename_i m k hcode
    obtain ⟨-, heq⟩ := Option.ite_none_right_eq_some.mp hstep
    cases heq
    rw [State.move_code_self, hcode]
    exact Prod.Lex.toLex_lt_toLex.mpr (.inr ⟨rfl, Nat.lt_succ_self k.depth⟩)
  · rename_i m k hcode
    cases hstep
    rw [State.move_code_self, hcode]
    exact Prod.Lex.toLex_lt_toLex.mpr (.inr ⟨rfl, Nat.lt_succ_self k.depth⟩)

/-- One thread goes on, so one of the weights gets smaller. -/
theorem cutExpand_weights [Preorder ι]
    (hsize : ∀ a r s s' k, P.act a r s = some (s', k) → size k.next < size a) {ts : Finset τ}
    (ht : t ∈ ts) {r : ρ} (hstep : P.step s (.run t r) = some s') :
    Relation.CutExpand (· < ·) (ts.val.map fun t => weight size (s'.code t))
      (ts.val.map fun t => weight size (s.code t)) := by
  have hval : ts.val = {t} + (ts.erase t).val := by
    rw [Multiset.singleton_add, Finset.erase_val, Multiset.cons_erase ht]
  have hother : (ts.erase t).val.map (fun t => weight size (s'.code t)) =
      (ts.erase t).val.map fun t => weight size (s.code t) := by
    refine Multiset.map_congr rfl fun t' ht' => ?_
    rw [Program.code_step hstep (Finset.ne_of_mem_erase ht')]
  rw [hval, Multiset.map_add, Multiset.map_add, hother, Multiset.map_singleton,
    Multiset.map_singleton]
  exact Relation.cutExpand_single_add (weight_lt hsize hstep) _

/-- **No run goes on for ever without a call**, when finitely many threads do not rest and each
action brings a thread nearer to its end. -/
theorem acc_run [Preorder ι] [WellFoundedLT ι]
    (hsize : ∀ a r s s' k, P.act a r s = some (s', k) → size k.next < size a) {a₀ : α}
    (hrest : ∀ r s, P.act a₀ r s = none) {ts : Finset τ} (hts : ∀ t ∉ ts, s.code t = .act a₀) :
    Acc (fun s₂ s₁ => ∃ t r, P.step s₁ (.run t r) = some s₂) s := by
  generalize hM : (ts.val.map fun t => weight size (s.code t)) = M
  induction M using (wellFounded_lt (α := ι ×ₗ ℕ)).cutExpand.induction generalizing s with
  | _ M ih =>
    subst hM
    refine ⟨s, fun s' ⟨t, r, hstep⟩ => ?_⟩
    have hmem : t ∈ ts := by
      by_contra hout
      simp [Program.step, hts t hout, hrest] at hstep
    refine ih _ (cutExpand_weights hsize hmem hstep) (fun t' ht' => ?_) rfl
    rw [Program.code_step hstep (ne_of_mem_of_not_mem hmem ht').symm]
    exact hts t' ht'

end

end HstongApi.Locks
