import HstongApi.Transition
import Mathlib.Logic.Function.Basic

/-!
# Threads that share a state under mutexes

A thread is idle, or it stands at a point of a call: it works outside all locks, it
waits for the mutex of a section, it is inside a section, or it is about to unlock. A
`Program` says what one atomic action does at a point. Everything about the mutexes is
in the transition function `Program.step`, so a program cannot forget to unlock and
cannot unlock what it does not hold.

* `Locked` relates the holders of the mutexes to the points of the threads. It holds in
  every state (`Locked.step`), and two threads in sections of one mutex are one thread
  (`Locked.exclusive`).
* `Outline` is the rule of non-interference: an invariant of the shared state and an
  assertion at each point, such that no action of one thread invalidates an assertion of
  another. Locking, unlocking and calling need no argument about other threads.
* `Debts` is the rule for work that a thread has taken upon itself: what is not yet done
  is owed by some thread. When all threads are idle nothing is owed.
* `Tokens` is the rule for exclusion that is not by a mutex: what a thread takes when it is
  free, and only that thread gives back, has one holder at a time.
* `AtMostOne` is exclusion that is not by the program at all: a thread begins something only
  while no other thread is at it.

Debts and tokens are about what a thread does next, which does not change when it takes or gives
back a lock, and so are most assertions; `NextOutline` is the rule for these. Where a thread knows
more inside a section than before its lock, `Assertions` says what it knows at each place.
-/

namespace HstongApi.Threads

open Function (update_self update_of_ne update)

variable {σ ρ ς κ ω μ τ ι : Type*}

/-! ## Programs -/

/-- How a thread goes on outside the sections. -/
inductive Exit (κ ω : Type*)
  /-- the call returns -/
  | ret
  /-- lock the mutex of a section -/
  | enter (c : κ)
  /-- work on without a lock -/
  | go (k : ω)
  deriving DecidableEq

/-- How a thread goes on inside a section. -/
inductive Turn (κ ω : Type*)
  /-- another action under the same lock -/
  | stay (c : κ)
  /-- unlock, then go on outside -/
  | leave (x : Exit κ ω)
  deriving DecidableEq

/-- Where a thread stands. -/
inductive Point (κ ω : Type*)
  /-- in no call -/
  | idle
  /-- about to lock the mutex of a section -/
  | wait (c : κ)
  /-- inside a section, before its action -/
  | inside (c : κ)
  /-- after the action of a section, about to unlock -/
  | leaving (c : κ) (x : Exit κ ω)
  /-- outside all sections, before an action -/
  | work (k : ω)
  deriving DecidableEq

namespace Point

/-- The section whose mutex a thread holds. -/
def region : Point κ ω → Option κ
  | .inside c | .leaving c _ => some c
  | _ => none

/-- What a thread does next outside the sections, or the section that it enters or is in. -/
def next : Point κ ω → Exit κ ω
  | .idle => .ret
  | .wait c | .inside c => .enter c
  | .leaving _ x => x
  | .work k => .go k

end Point

/-- A condition on the work of a thread can be decided. -/
instance Point.decidableForallWork {P : ω → Prop} [DecidablePred P] :
    (p : Point κ ω) → Decidable (∀ k, p = .work k → P k)
  | .work k => decidable_of_iff (P k) ⟨fun h _ hk => Point.work.inj hk ▸ h, fun h => h k rfl⟩
  | .idle | .wait _ | .inside _ | .leaving _ _ => .isTrue nofun

/-- The point after an unlock, or after an action outside. -/
def Exit.point : Exit κ ω → Point κ ω
  | .ret => .idle
  | .enter c => .wait c
  | .go k => .work k

/-- The point after the action of a section. -/
def Turn.point (c : κ) : Turn κ ω → Point κ ω
  | .stay c' => .inside c'
  | .leave x => .leaving c x

@[simp] theorem Exit.region_point (x : Exit κ ω) : x.point.region = none := by
  cases x <;> rfl

@[simp] theorem Exit.next_point (x : Exit κ ω) : x.point.next = x := by
  cases x <;> rfl

/-- What threads do: `ς` are the calls, `ρ` what an action learns from outside, `κ` the
sections and `ω` the work outside of them. -/
structure Program (σ ρ ς κ ω μ : Type*) where
  /-- where a call begins, when it can be made -/
  start : ς → σ → Option (Exit κ ω)
  /-- the mutex of a section -/
  mutex : κ → μ
  /-- the action of a section -/
  body : κ → ρ → σ → σ × Turn κ ω
  /-- an action outside, unless it blocks -/
  work : ω → ρ → σ → Option (σ × Exit κ ω)
  /-- a thread that goes on inside has the same lock -/
  mutex_stay : ∀ c r s c', (body c r s).2 = .stay c' → mutex c' = mutex c

/-- The shared state, the holder of each mutex and the point of each thread. -/
structure State (σ κ ω μ τ : Type*) where
  shared : σ
  holder : μ → Option τ
  point : τ → Point κ ω

/-- A thread is called, or a thread does its next action. -/
inductive Event (ρ ς τ : Type*)
  | call (t : τ) (a : ς)
  | run (t : τ) (r : ρ)
  deriving DecidableEq

/-- All threads are idle and all mutexes are free. -/
def State.init (s : σ) : State σ κ ω μ τ := ⟨s, fun _ => none, fun _ => .idle⟩

/-- No thread is in a call. -/
def State.Quiescent (s : State σ κ ω μ τ) : Prop := ∀ t, s.point t = .idle

variable {run : List (Event ρ ς τ)}

section

variable [DecidableEq τ]

/-- Thread `t` goes to a point. -/
def State.move (s : State σ κ ω μ τ) (t : τ) (p : Point κ ω) : State σ κ ω μ τ :=
  { s with point := Function.update s.point t p }

@[simp] theorem State.move_shared (s : State σ κ ω μ τ) (t : τ) (p : Point κ ω) :
    (s.move t p).shared = s.shared := rfl

@[simp] theorem State.move_holder (s : State σ κ ω μ τ) (t : τ) (p : Point κ ω) :
    (s.move t p).holder = s.holder := rfl

@[simp] theorem State.move_point_self (s : State σ κ ω μ τ) (t : τ) (p : Point κ ω) :
    (s.move t p).point t = p := by
  simp [move]

theorem State.move_point_of_ne (s : State σ κ ω μ τ) {t t' : τ} (h : t' ≠ t) (p : Point κ ω) :
    (s.move t p).point t' = s.point t' := by
  simp [move, h]

/-- A move that does not change what a thread does next changes it for no thread. -/
theorem State.next_move (s : State σ κ ω μ τ) {t : τ} {p : Point κ ω}
    (hp : p.next = (s.point t).next) (t' : τ) :
    ((s.move t p).point t').next = (s.point t').next := by
  by_cases h : t' = t
  · rw [h, move_point_self, hp]
  · rw [move_point_of_ne s h]

/-- The shared state is replaced. -/
def State.write (s : State σ κ ω μ τ) (shared : σ) : State σ κ ω μ τ := { s with shared := shared }

variable [DecidableEq μ]

/-- The mutex has another holder, or none. -/
def State.hand (s : State σ κ ω μ τ) (m : μ) (t : Option τ) : State σ κ ω μ τ :=
  { s with holder := Function.update s.holder m t }

variable (P : Program σ ρ ς κ ω μ)

/-- **One step of the system.** -/
def Program.step (s : State σ κ ω μ τ) : Event ρ ς τ → Option (State σ κ ω μ τ)
  | .call t a =>
    match s.point t with
    | .idle => (P.start a s.shared).map fun x => s.move t x.point
    | _ => none
  | .run t r =>
    match s.point t with
    | .idle => none
    | .wait c =>
      if s.holder (P.mutex c) = none then
        some ((s.hand (P.mutex c) (some t)).move t (.inside c))
      else none
    | .inside c =>
      let (shared, turn) := P.body c r s.shared
      some ((s.write shared).move t (turn.point c))
    | .leaving c x => some ((s.hand (P.mutex c) none).move t x.point)
    | .work k =>
      (P.work k r s.shared).map fun (shared, x) => (s.write shared).move t x.point

/-- What a step can do. -/
inductive Program.Step : State σ κ ω μ τ → Event ρ ς τ → State σ κ ω μ τ → Prop
  | call {s t a x} : s.point t = .idle → P.start a s.shared = some x →
      Program.Step s (.call t a) (s.move t x.point)
  | lock {s t r c} : s.point t = .wait c → s.holder (P.mutex c) = none →
      Program.Step s (.run t r) ((s.hand (P.mutex c) (some t)).move t (.inside c))
  | body {s t r c} : s.point t = .inside c →
      Program.Step s (.run t r) ((s.write (P.body c r s.shared).1).move t
        ((P.body c r s.shared).2.point c))
  | unlock {s t r c x} : s.point t = .leaving c x →
      Program.Step s (.run t r) ((s.hand (P.mutex c) none).move t x.point)
  | work {s t r k shared x} : s.point t = .work k → P.work k r s.shared = some (shared, x) →
      Program.Step s (.run t r) ((s.write shared).move t x.point)

variable {P}

theorem Program.step_cases {s s' : State σ κ ω μ τ} {ev : Event ρ ς τ}
    (h : P.step s ev = some s') : P.Step s ev s' := by
  cases ev with
  | call t a =>
    simp only [step] at h
    split at h
    · obtain ⟨x, hx, rfl⟩ := Option.map_eq_some_iff.mp h
      exact .call ‹_› hx
    · cases h
  | run t r =>
    simp only [step] at h
    split at h
    · cases h
    · obtain ⟨hfree, heq⟩ := Option.ite_none_right_eq_some.mp h
      cases heq
      exact .lock ‹_› hfree
    · cases h
      exact .body ‹_›
    · cases h
      exact .unlock ‹_›
    · obtain ⟨⟨shared, x⟩, hk, rfl⟩ := Option.map_eq_some_iff.mp h
      exact .work ‹_› hk

/-- The thread of an event. -/
def Event.thread : Event ρ ς τ → τ
  | .call t _ | .run t _ => t

/-- A step moves one thread. -/
theorem Program.point_step {s s' : State σ κ ω μ τ} {ev : Event ρ ς τ}
    (h : P.step s ev = some s') {t : τ} (ht : t ≠ ev.thread) : s'.point t = s.point t := by
  cases Program.step_cases h <;> exact State.move_point_of_ne _ ht _

/-- A thread without an event in the run stays where it is. -/
theorem Program.point_exec {s s' : State σ κ ω μ τ} (h : exec P.step s run = some s') {t : τ}
    (ht : ∀ ev ∈ run, t ≠ ev.thread) : s'.point t = s.point t :=
  exec_frame (fun s => s.point t) (fun ev => t = ev.thread) (fun _ _ _ hstep => point_step hstep) h ht

/-- Threads without an event in the run are idle all the time. -/
theorem Program.eachStep_idle {ts : List τ} (hrun : ∀ ev ∈ run, ev.thread ∈ ts)
    {s : State σ κ ω μ τ} (hs : ∀ t, t ∉ ts → s.point t = .idle) :
    EachStep P.step (fun s _ => ∀ t, t ∉ ts → s.point t = .idle) s run := by
  induction run generalizing s with
  | nil => trivial
  | cons ev run ih =>
    refine fun s' hstep => ⟨hs, ih (fun ev' hev' => hrun ev' (List.mem_cons_of_mem _ hev')) ?_⟩
    intro t ht
    rw [point_step hstep]
    · exact hs t ht
    · rintro rfl
      exact ht (hrun ev List.mem_cons_self)

omit [DecidableEq τ] [DecidableEq μ] in
/-- What holds of an idle thread holds of all threads, if it does of the others. -/
theorem State.forall_point {s : State σ κ ω μ τ} {ts : List τ} {p : Point κ ω → Prop}
    (hidle : ∀ t, t ∉ ts → s.point t = .idle) (hp : p .idle) (h : ∀ t ∈ ts, p (s.point t)) (t : τ) :
    p (s.point t) := by
  by_cases ht : t ∈ ts
  · exact h t ht
  · rw [hidle t ht]
    exact hp

/-- When the threads of a run are idle in the end, all threads are. -/
theorem Program.quiescent_of_exec {shared : σ} {s : State σ κ ω μ τ}
    (h : exec P.step (.init shared) run = some s) (hidle : ∀ ev ∈ run, s.point ev.thread = .idle) :
    s.Quiescent := by
  intro t
  by_cases ht : ∀ ev ∈ run, t ≠ ev.thread
  · rw [point_exec h ht]
    rfl
  · simp only [not_forall, not_not] at ht
    obtain ⟨ev, hev, rfl⟩ := ht
    exact hidle ev hev

end

/-! ## Mutual exclusion -/

/-- The mutex that a thread holds at a point. -/
def Program.holds (P : Program σ ρ ς κ ω μ) (p : Point κ ω) : Option μ := p.region.map P.mutex

/-- The holder of a mutex is the thread in one of its sections. -/
def Locked (P : Program σ ρ ς κ ω μ) (s : State σ κ ω μ τ) : Prop :=
  ∀ m t, s.holder m = some t ↔ P.holds (s.point t) = some m

variable {P : Program σ ρ ς κ ω μ} {s s' : State σ κ ω μ τ}

theorem locked_init (shared : σ) : Locked P (State.init shared : State σ κ ω μ τ) :=
  fun _ _ => iff_of_false nofun nofun

/-- **Mutual exclusion.** -/
theorem Locked.exclusive (h : Locked P s) {t t' : τ} {c c' : κ}
    (ht : (s.point t).region = some c) (ht' : (s.point t').region = some c')
    (hmutex : P.mutex c = P.mutex c') : t = t' := by
  have hold : s.holder (P.mutex c) = some t := (h _ t).mpr (by rw [Program.holds, ht]; rfl)
  have hold' : s.holder (P.mutex c) = some t' :=
    (h _ t').mpr (by rw [Program.holds, ht', hmutex]; rfl)
  exact Option.some.inj (hold.symm.trans hold')

section

theorem Locked.write (h : Locked P s) (shared : σ) : Locked P (s.write shared) := h

variable [DecidableEq τ] {t : τ} {p : Point κ ω} {ev : Event ρ ς τ}

theorem Locked.move (h : Locked P s) (hp : P.holds p = P.holds (s.point t)) :
    Locked P (s.move t p) := by
  intro m t'
  rw [State.move_holder, h m t']
  by_cases ht : t' = t
  · rw [ht, State.move_point_self, hp]
  · rw [State.move_point_of_ne _ ht]

variable [DecidableEq μ]

theorem Locked.lock (h : Locked P s) {c : κ} (hp : P.holds (s.point t) = none)
    (hfree : s.holder (P.mutex c) = none) :
    Locked P ((s.hand (P.mutex c) (some t)).move t (.inside c)) := by
  intro m t'
  have hold := h m t'
  have hhand : (s.hand (P.mutex c) (some t)).holder = update s.holder (P.mutex c) (some t) :=
    rfl
  rw [State.move_holder, hhand]
  by_cases ht : t' = t
  · subst ht
    rw [State.move_point_self, Program.holds, Point.region, Option.map_some, Option.some.injEq]
    rw [hp] at hold
    by_cases hm : m = P.mutex c
    · rw [hm, update_self]
      exact iff_of_true rfl rfl
    · rw [update_of_ne hm]
      exact iff_of_false (fun hc => nomatch hold.mp hc) (Ne.symm hm)
  · rw [State.move_point_of_ne _ ht]
    by_cases hm : m = P.mutex c
    · rw [hm] at hold ⊢
      rw [update_self]
      refine iff_of_false (fun hc => ht (Option.some.inj hc).symm) fun hc => ?_
      rw [hold.mpr hc] at hfree
      cases hfree
    · rw [update_of_ne hm]
      exact hold

theorem Locked.unlock (h : Locked P s) {c : κ} (ht : P.holds (s.point t) = some (P.mutex c))
    (hp : P.holds p = none) : Locked P ((s.hand (P.mutex c) none).move t p) := by
  intro m t'
  have hold := h m t'
  have hhand : (s.hand (P.mutex c) none).holder = update s.holder (P.mutex c) none := rfl
  rw [State.move_holder, hhand]
  by_cases hm : m = P.mutex c
  · rw [hm] at hold ⊢
    rw [update_self]
    refine iff_of_false nofun fun hc => ?_
    by_cases htt : t' = t
    · rw [htt, State.move_point_self, hp] at hc
      cases hc
    · rw [State.move_point_of_ne _ htt] at hc
      exact htt (Option.some.inj ((hold.mpr hc).symm.trans ((h _ t).mpr ht)))
  · rw [update_of_ne hm]
    by_cases htt : t' = t
    · subst htt
      rw [State.move_point_self, hp]
      refine iff_of_false (fun hc => ?_) nofun
      have hsome := hold.mp hc
      rw [ht] at hsome
      exact hm (Option.some.inj hsome).symm
    · rw [State.move_point_of_ne _ htt]
      exact hold

/-- **The mutexes work.** -/
theorem Locked.step (h : Locked P s) (hstep : P.step s ev = some s') : Locked P s' := by
  cases Program.step_cases hstep with
  | call ht hx => exact h.move (by rw [ht, Program.holds, Exit.region_point]; rfl)
  | lock ht hfree => exact h.lock (by rw [ht]; rfl) hfree
  | @body t r c ht =>
    refine (h.write _).move ?_
    have hpoint : (s.write (P.body c r s.shared).1).point t = .inside c := ht
    rw [hpoint]
    cases hturn : (P.body c r s.shared).2 with
    | stay c' => exact congrArg some (P.mutex_stay c r s.shared c' hturn)
    | leave x => rfl
  | unlock ht => exact h.unlock (by rw [ht]; rfl) (by rw [Program.holds, Exit.region_point]; rfl)
  | @work t r k shared x ht hk =>
    refine (h.write _).move ?_
    have hpoint : (s.write shared).point t = .work k := ht
    rw [hpoint, Program.holds, Exit.region_point]
    rfl

end

/-! ## Proof outlines -/

/-- The invariant, and every thread's assertion at its point. -/
structure Sound (P : Program σ ρ ς κ ω μ) (inv : σ → Prop) (assert : σ → Point κ ω → Prop)
    (s : State σ κ ω μ τ) : Prop where
  locked : Locked P s
  inv : inv s.shared
  assert : ∀ t, assert s.shared (s.point t)

/-- **A proof outline** for the steps that meet a condition. -/
structure Outline (P : Program σ ρ ς κ ω μ) (cond : State σ κ ω μ τ → Event ρ ς τ → Prop)
    (inv : σ → Prop) (assert : σ → Point κ ω → Prop) : Prop where
  /-- a call establishes its first assertion -/
  start : ∀ {s t a x}, cond s (.call t a) → inv s.shared → P.start a s.shared = some x →
    assert s.shared x.point
  /-- an assertion inside a section does not ask for more than the one before the lock -/
  lock : ∀ {s c}, inv s → assert s (.wait c) → assert s (.inside c)
  /-- an assertion after the unlock does not ask for more than the one before -/
  unlock : ∀ {s c x}, inv s → assert s (.leaving c x) → assert s x.point
  /-- the action of a section keeps the invariant and establishes the next assertion -/
  body : ∀ {s t r c}, Sound P inv assert s → cond s (.run t r) → s.point t = .inside c →
    inv (P.body c r s.shared).1 ∧
      assert (P.body c r s.shared).1 ((P.body c r s.shared).2.point c)
  /-- it does not interfere with another thread -/
  body_other : ∀ {s t r c t'}, Sound P inv assert s → cond s (.run t r) →
    s.point t = .inside c → t' ≠ t → assert (P.body c r s.shared).1 (s.point t')
  /-- an action outside keeps the invariant and establishes the next assertion -/
  work : ∀ {s t r k shared x}, Sound P inv assert s → cond s (.run t r) →
    s.point t = .work k → P.work k r s.shared = some (shared, x) → inv shared ∧ assert shared x.point
  /-- it does not interfere with another thread -/
  work_other : ∀ {s t r k shared x t'}, Sound P inv assert s → cond s (.run t r) →
    s.point t = .work k → P.work k r s.shared = some (shared, x) → t' ≠ t →
    assert shared (s.point t')

section

variable {t : τ} {p : Point κ ω} {ev : Event ρ ς τ} {cond : State σ κ ω μ τ → Event ρ ς τ → Prop}
  {inv : σ → Prop} {assert : σ → Point κ ω → Prop}

/-- What is left to show when one thread moves. -/
theorem assert_move [DecidableEq τ] (hself : assert s.shared p)
    (hother : ∀ t', t' ≠ t → assert s.shared (s.point t')) (t' : τ) :
    assert (s.move t p).shared ((s.move t p).point t') := by
  rw [State.move_shared]
  by_cases ht : t' = t
  · rw [ht, State.move_point_self]
    exact hself
  · rw [State.move_point_of_ne _ ht]
    exact hother t' ht

theorem Sound.at_point (h : Sound P inv assert s) (ht : s.point t = p) : assert s.shared p := by
  rw [← ht]
  exact h.assert t

/-- **A proof outline is kept** by every step that meets its condition. -/
theorem Outline.step [DecidableEq τ] [DecidableEq μ] (o : Outline P cond inv assert)
    (h : Sound P inv assert s) (hcond : cond s ev) (hstep : P.step s ev = some s') :
    Sound P inv assert s' := by
  have hlocked := h.locked.step hstep
  cases Program.step_cases hstep with
  | call ht hx =>
    exact ⟨hlocked, h.inv, assert_move (o.start hcond h.inv hx) fun t' _ => h.assert t'⟩
  | @lock t r c ht hfree =>
    refine ⟨hlocked, h.inv, assert_move (s := s.hand _ _) ?_ fun t' _ => h.assert t'⟩
    exact o.lock h.inv (h.at_point ht)
  | @body t r c ht =>
    obtain ⟨hinv, hself⟩ := o.body h hcond ht
    exact ⟨hlocked, hinv, assert_move (s := s.write _) hself fun t' => o.body_other h hcond ht⟩
  | @unlock t r c x ht =>
    refine ⟨hlocked, h.inv, assert_move (s := s.hand _ _) ?_ fun t' _ => h.assert t'⟩
    exact o.unlock h.inv (h.at_point ht)
  | @work t r k shared x ht hk =>
    obtain ⟨hinv, hself⟩ := o.work h hcond ht hk
    exact ⟨hlocked, hinv, assert_move (s := s.write _) hself
      fun t' => o.work_other (s := s) h hcond ht hk⟩

theorem sound_init {shared : σ} (hinv : inv shared) (hidle : assert shared .idle) :
    Sound P inv assert (State.init shared : State σ κ ω μ τ) :=
  ⟨locked_init shared, hinv, fun _ => hidle⟩

/-- What is known at the places of a thread. -/
structure Assertions (σ κ ω : Type*) where
  /-- before the lock of a section -/
  before : σ → κ → Prop
  /-- inside the section, before its action -/
  inside : σ → κ → Prop
  /-- outside all sections -/
  outside : σ → ω → Prop

namespace Assertions

variable (A : Assertions σ κ ω)

/-- What is known before a thread goes on outside the sections. -/
def atExit (s : σ) : Exit κ ω → Prop
  | .ret => True
  | .enter c => A.before s c
  | .go k => A.outside s k

/-- What is known at a point. -/
def atPoint (s : σ) : Point κ ω → Prop
  | .idle => True
  | .wait c => A.before s c
  | .inside c => A.inside s c
  | .leaving _ x => A.atExit s x
  | .work k => A.outside s k

variable {A} {s s' : σ}

theorem atExit.point {x : Exit κ ω} (h : A.atExit s x) : A.atPoint s x.point := by
  cases x <;> exact h

theorem atExit.mono (hbefore : ∀ c, A.before s c → A.before s' c)
    (houtside : ∀ k, A.outside s k → A.outside s' k) {x : Exit κ ω} (h : A.atExit s x) :
    A.atExit s' x := by
  cases x with
  | ret => trivial
  | enter c => exact hbefore c h
  | go k => exact houtside k h

/-- What is known stays known, if it does so at each place. -/
theorem atPoint.mono (hbefore : ∀ c, A.before s c → A.before s' c)
    (houtside : ∀ k, A.outside s k → A.outside s' k) {p : Point κ ω}
    (hinside : ∀ c, p = .inside c → A.inside s c → A.inside s' c) (h : A.atPoint s p) :
    A.atPoint s' p := by
  cases p with
  | idle => trivial
  | wait c => exact hbefore c h
  | inside c => exact hinside c rfl h
  | leaving c x => exact atExit.mono hbefore houtside h
  | work k => exact houtside k h

end Assertions

/-- A proof outline whose assertions are about what a thread does next. To take or to give back
a lock does not change that. -/
structure NextOutline (P : Program σ ρ ς κ ω μ) (cond : State σ κ ω μ τ → Event ρ ς τ → Prop)
    (inv : σ → Prop) (knows : σ → Exit κ ω → Prop) : Prop where
  start : ∀ {s t a x}, cond s (.call t a) → inv s.shared → P.start a s.shared = some x →
    knows s.shared x
  body : ∀ {s t r c}, Sound P inv (fun s p => knows s p.next) s → cond s (.run t r) →
    s.point t = .inside c →
    inv (P.body c r s.shared).1 ∧
      knows (P.body c r s.shared).1 ((P.body c r s.shared).2.point c).next
  body_other : ∀ {s t r c t'}, Sound P inv (fun s p => knows s p.next) s → cond s (.run t r) →
    s.point t = .inside c → t' ≠ t → knows (P.body c r s.shared).1 (s.point t').next
  work : ∀ {s t r k shared x}, Sound P inv (fun s p => knows s p.next) s → cond s (.run t r) →
    s.point t = .work k → P.work k r s.shared = some (shared, x) → inv shared ∧ knows shared x
  work_other : ∀ {s t r k shared x t'}, Sound P inv (fun s p => knows s p.next) s →
    cond s (.run t r) → s.point t = .work k → P.work k r s.shared = some (shared, x) → t' ≠ t →
    knows shared (s.point t').next

variable {knows : σ → Exit κ ω → Prop}

theorem NextOutline.outline (o : NextOutline P cond inv knows) :
    Outline P cond inv fun s p => knows s p.next where
  start {s t a x} hcond hinv hx := by
    rw [Exit.next_point]
    exact o.start hcond hinv hx
  lock _ h := h
  unlock {s c x} _ h := by
    rw [Exit.next_point]
    exact h
  body := o.body
  body_other := o.body_other
  work {s t r k shared x} hs hcond ht hk := by
    rw [Exit.next_point]
    exact o.work hs hcond ht hk
  work_other := o.work_other

/-- **The rule for actions.** One case analysis of what an action does shows what its thread knows
afterwards, and that the other threads still know what they knew. -/
theorem NextOutline.of_acts
    (hstart : ∀ {s t a x}, cond s (.call t a) → inv s.shared → P.start a s.shared = some x →
      knows s.shared x)
    (hbody : ∀ {s t r c}, Sound P inv (fun s p => knows s p.next) s → cond s (.run t r) →
      s.point t = .inside c → knows s.shared (.enter c) →
      inv (P.body c r s.shared).1 ∧
        knows (P.body c r s.shared).1 ((P.body c r s.shared).2.point c).next ∧
        ∀ t', t' ≠ t → knows s.shared (s.point t').next →
          knows (P.body c r s.shared).1 (s.point t').next)
    (hwork : ∀ {s t r k shared x}, Sound P inv (fun s p => knows s p.next) s → cond s (.run t r) →
      s.point t = .work k → P.work k r s.shared = some (shared, x) → knows s.shared (.go k) →
      inv shared ∧ knows shared x ∧
        ∀ t', t' ≠ t → knows s.shared (s.point t').next → knows shared (s.point t').next) :
    NextOutline P cond inv knows where
  start := hstart
  body hs hcond ht := (hbody hs hcond ht (hs.at_point ht)).imp_right And.left
  body_other hs hcond ht hne := (hbody hs hcond ht (hs.at_point ht)).2.2 _ hne (hs.assert _)
  work hs hcond ht hk := (hwork hs hcond ht hk (hs.at_point ht)).imp_right And.left
  work_other hs hcond ht hk hne := (hwork hs hcond ht hk (hs.at_point ht)).2.2 _ hne (hs.assert _)

theorem NextOutline.step [DecidableEq τ] [DecidableEq μ] (o : NextOutline P cond inv knows)
    (h : Sound P inv (fun s p => knows s p.next) s) (hcond : cond s ev)
    (hstep : P.step s ev = some s') : Sound P inv (fun s p => knows s p.next) s' :=
  o.outline.step h hcond hstep

/-! ## Debts -/

/-- What is not done is owed by a thread. What a thread owes is known from what it does next. -/
def Accounted (done : σ → ι → Prop) (owes : Exit κ ω → ι → Prop) (s : State σ κ ω μ τ) : Prop :=
  ∀ i, done s.shared i ∨ ∃ t, owes (s.point t).next i

/-- **Debts are paid or passed on**, in the steps that meet a condition. -/
structure Debts (P : Program σ ρ ς κ ω μ) (cond : State σ κ ω μ τ → Event ρ ς τ → Prop)
    (done : σ → ι → Prop) (owes : Exit κ ω → ι → Prop) : Prop where
  /-- a thread that has returned owes nothing -/
  ret : ∀ i, ¬ owes .ret i
  /-- after the action of a section, what was done or owed there is done or owed -/
  body : ∀ {s t r c i}, cond s (.run t r) → s.point t = .inside c →
    done s.shared i ∨ owes (.enter c) i →
    done (P.body c r s.shared).1 i ∨ owes ((P.body c r s.shared).2.point c).next i
  /-- and so after an action outside -/
  work : ∀ {s t r k shared x i}, cond s (.run t r) → s.point t = .work k →
    P.work k r s.shared = some (shared, x) → done s.shared i ∨ owes (.go k) i →
    done shared i ∨ owes x i

variable {done : σ → ι → Prop} {owes : Exit κ ω → ι → Prop}

/-- What is left to show when one thread acts and moves. -/
theorem Accounted.move [DecidableEq τ] (h : Accounted done owes s) {q : Point κ ω}
    (ht : s.point t = q) (shared : σ)
    (hself : ∀ i, done s.shared i ∨ owes q.next i → done shared i ∨ owes p.next i) :
    Accounted done owes ((s.write shared).move t p) := by
  subst ht
  intro i
  have hmoved : done shared i ∨ owes p.next i →
      done ((s.write shared).move t p).shared i ∨
        ∃ t', owes (((s.write shared).move t p).point t').next i := by
    rintro (hdone | howes)
    · exact .inl hdone
    · exact .inr ⟨t, by rw [State.move_point_self]; exact howes⟩
  rcases h i with hdone | ⟨t', howes⟩
  · exact hmoved (hself i (.inl hdone))
  · by_cases ht : t' = t
    · exact hmoved (hself i (.inr (ht ▸ howes)))
    · refine .inr ⟨t', ?_⟩
      rw [State.move_point_of_ne _ ht]
      exact howes

theorem Debts.step [DecidableEq τ] [DecidableEq μ] (d : Debts P cond done owes)
    (h : Accounted done owes s) (hcond : cond s ev) (hstep : P.step s ev = some s') :
    Accounted done owes s' := by
  cases Program.step_cases hstep with
  | call ht hx => exact h.move ht s.shared fun i hi => hi.imp_right fun howes => absurd howes (d.ret i)
  | lock ht => exact h.move ht s.shared fun _ => id
  | body ht => exact h.move ht _ fun _ => d.body hcond ht
  | unlock ht =>
    refine h.move ht s.shared fun i hi => ?_
    rw [Exit.next_point]
    exact hi
  | work ht hk =>
    refine h.move ht _ fun i hi => ?_
    rw [Exit.next_point]
    exact d.work hcond ht hk hi

/-- What no thread in a call owes is done. -/
theorem Accounted.done_of_busy (h : Accounted done owes s) (hret : ∀ i, ¬ owes .ret i) {i : ι}
    (hbusy : ∀ t, s.point t ≠ .idle → ¬ owes (s.point t).next i) : done s.shared i := by
  rcases h i with hdone | ⟨t, howes⟩
  · exact hdone
  · by_cases ht : s.point t = .idle
    · rw [ht] at howes
      exact absurd howes (hret i)
    · exact absurd howes (hbusy t ht)

/-- When all threads are idle, all is done. -/
theorem Accounted.quiescent (h : Accounted done owes s) (hret : ∀ i, ¬ owes .ret i)
    (hquiet : s.Quiescent) (i : ι) : done s.shared i :=
  h.done_of_busy hret fun t hbusy => absurd (hquiet t) hbusy

/-! ## Tokens -/

/-- A token that is not free has at most one holder, and a free one has none. What a thread holds is
known from what it does next. -/
def Held (free : σ → ι → Prop) (holds : Exit κ ω → ι → Prop) (s : State σ κ ω μ τ) : Prop :=
  ∀ i, (∀ t, holds (s.point t).next i → ¬ free s.shared i) ∧
    ∀ t t', holds (s.point t).next i → holds (s.point t').next i → t = t'

variable {free : σ → ι → Prop} {holds : Exit κ ω → ι → Prop}

/-- What is left to show when one thread acts and moves. -/
theorem Held.move [DecidableEq τ] (h : Held free holds s) (shared : σ)
    (htake : ∀ i, holds p.next i → ¬ free shared i ∧ (holds (s.point t).next i ∨ free s.shared i))
    (hgive : ∀ i, free shared i → free s.shared i ∨ holds (s.point t).next i) :
    Held free holds ((s.write shared).move t p) := by
  intro i
  obtain ⟨hbusy, hone⟩ := h i
  -- a thread that moves to a holding point was the holder, if there was one
  have hnew : ∀ t', t' ≠ t → holds p.next i → ¬ holds (s.point t').next i := by
    intro t' ht hp ht'
    rcases (htake i hp).2 with hold | hfree
    · exact ht (hone t' t ht' hold)
    · exact hbusy t' ht' hfree
  refine ⟨fun t' ht' => ?_, fun t₁ t₂ h₁ h₂ => ?_⟩
  · rw [State.move_shared]
    by_cases ht : t' = t
    · rw [ht, State.move_point_self] at ht'
      exact (htake i ht').1
    · rw [State.move_point_of_ne _ ht] at ht'
      intro hfree
      rcases hgive i hfree with hfree | hold
      · exact hbusy t' ht' hfree
      · exact ht (hone t' t ht' hold)
  · by_cases ht₁ : t₁ = t <;> by_cases ht₂ : t₂ = t
    · rw [ht₁, ht₂]
    · rw [ht₁, State.move_point_self] at h₁
      rw [State.move_point_of_ne _ ht₂] at h₂
      exact absurd h₂ (hnew t₂ ht₂ h₁)
    · rw [ht₂, State.move_point_self] at h₂
      rw [State.move_point_of_ne _ ht₁] at h₁
      exact absurd h₁ (hnew t₁ ht₁ h₂)
    · rw [State.move_point_of_ne _ ht₁] at h₁
      rw [State.move_point_of_ne _ ht₂] at h₂
      exact hone t₁ t₂ h₁ h₂

theorem Held.not_free (h : Held free holds s) (i : ι) (ht : s.point t = p) (hp : holds p.next i) :
    ¬ free s.shared i := by
  rw [← ht] at hp
  exact (h i).1 t hp

/-- **Tokens are taken when free and given back by their holder**, in the steps that meet a
condition. -/
structure Tokens (P : Program σ ρ ς κ ω μ) (cond : State σ κ ω μ τ → Event ρ ς τ → Prop)
    (free : σ → ι → Prop) (holds : Exit κ ω → ι → Prop) : Prop where
  start : ∀ {s t a x i}, cond s (.call t a) → P.start a s.shared = some x → ¬ holds x i
  /-- the action of a section takes a token only if it is free -/
  body_take : ∀ {s t r c i}, Held free holds s → cond s (.run t r) →
    s.point t = .inside c → holds ((P.body c r s.shared).2.point c).next i →
    ¬ free (P.body c r s.shared).1 i ∧ (holds (.enter c) i ∨ free s.shared i)
  /-- and gives back only what its thread holds -/
  body_give : ∀ {s t r c i}, cond s (.run t r) → s.point t = .inside c →
    free (P.body c r s.shared).1 i → free s.shared i ∨ holds (.enter c) i
  work_take : ∀ {s t r k shared x i}, Held free holds s →
    cond s (.run t r) → s.point t = .work k → P.work k r s.shared = some (shared, x) → holds x i →
    ¬ free shared i ∧ (holds (.go k) i ∨ free s.shared i)
  work_give : ∀ {s t r k shared x i}, cond s (.run t r) → s.point t = .work k →
    P.work k r s.shared = some (shared, x) → free shared i → free s.shared i ∨ holds (.go k) i

theorem Tokens.step [DecidableEq τ] [DecidableEq μ] (k : Tokens P cond free holds)
    (h : Held free holds s) (hcond : cond s ev) (hstep : P.step s ev = some s') :
    Held free holds s' := by
  have hkeep : ∀ {t : τ} {p : Point κ ω}, (∀ i, holds p.next i → holds (s.point t).next i) →
      Held free holds ((s.write s.shared).move t p) := fun hp =>
    h.move s.shared (fun i hi => ⟨(h i).1 _ (hp i hi), .inl (hp i hi)⟩) fun _ => .inl
  cases Program.step_cases hstep with
  | @call t a x ht hx =>
    refine hkeep fun i hi => ?_
    rw [Exit.next_point] at hi
    exact absurd hi (k.start hcond hx)
  | @lock t r c ht hfree => exact hkeep fun i hi => ht ▸ hi
  | @body t r c ht =>
    exact h.move _ (fun i hi => ht ▸ k.body_take h hcond ht hi) fun i hi => ht ▸ k.body_give hcond ht hi
  | @unlock t r c x ht =>
    refine hkeep fun i hi => ?_
    rw [Exit.next_point] at hi
    exact ht ▸ hi
  | @work t r w shared x ht hw =>
    refine h.move _ (fun i hi => ?_) fun i hi => ht ▸ k.work_give hcond ht hw hi
    rw [Exit.next_point] at hi
    exact ht ▸ k.work_take h hcond ht hw hi

theorem held_init (shared : σ) (hret : ∀ i, ¬ holds .ret i) :
    Held free holds (State.init shared : State σ κ ω μ τ) :=
  fun i => ⟨fun _ h => absurd h (hret i), fun _ _ h => absurd h (hret i)⟩

end

/-! ## One at a time -/

/-- At most one thread is at something. -/
def AtMostOne (busy : Exit κ ω → Prop) (s : State σ κ ω μ τ) : Prop :=
  ∀ t t', busy (s.point t).next → busy (s.point t').next → t = t'

/-- A thread begins something only while no thread is at it. -/
structure NextAlone (P : Program σ ρ ς κ ω μ) (cond : State σ κ ω μ τ → Event ρ ς τ → Prop)
    (busy : Exit κ ω → Prop) : Prop where
  start : ∀ {s t a x}, cond s (.call t a) → P.start a s.shared = some x → ¬ busy x
  body : ∀ {s t r c}, cond s (.run t r) → s.point t = .inside c →
    busy ((P.body c r s.shared).2.point c).next → busy (.enter c) ∨ ∀ t', ¬ busy (s.point t').next
  work : ∀ {s t r k shared x}, cond s (.run t r) → s.point t = .work k →
    P.work k r s.shared = some (shared, x) → busy x → busy (.go k) ∨ ∀ t', ¬ busy (s.point t').next

section

variable {cond : State σ κ ω μ τ → Event ρ ς τ → Prop} {busy : Exit κ ω → Prop}
  {P : Program σ ρ ς κ ω μ} {s s' : State σ κ ω μ τ} {ev : Event ρ ς τ} [DecidableEq τ]
  [DecidableEq μ]

/-- The thread of the step is not at it afterwards, or was before, or no thread was. -/
theorem AtMostOne.of_step (h : AtMostOne busy s) (hstep : P.step s ev = some s')
    (hthread : busy (s'.point ev.thread).next →
      busy (s.point ev.thread).next ∨ ∀ t, ¬ busy (s.point t).next) :
    AtMostOne busy s' := by
  have halone : ∀ t, t ≠ ev.thread → busy (s'.point t).next → ¬ busy (s'.point ev.thread).next := by
    intro t hne ht hev
    rw [Program.point_step hstep hne] at ht
    rcases hthread hev with hbefore | hnone
    · exact hne (h t _ ht hbefore)
    · exact hnone t ht
  intro t t' ht ht'
  by_cases hev : t = ev.thread
  · by_cases hev' : t' = ev.thread
    · rw [hev, hev']
    · exact absurd (hev ▸ ht) (halone t' hev' ht')
  · by_cases hev' : t' = ev.thread
    · exact absurd (hev' ▸ ht') (halone t hev ht)
    · rw [Program.point_step hstep hev] at ht
      rw [Program.point_step hstep hev'] at ht'
      exact h t t' ht ht'

theorem NextAlone.step (o : NextAlone P cond busy) (h : AtMostOne busy s) (hcond : cond s ev)
    (hstep : P.step s ev = some s') : AtMostOne busy s' := by
  refine h.of_step hstep fun hbusy => ?_
  cases Program.step_cases hstep with
  | call ht hx =>
    rw [Event.thread, State.move_point_self, Exit.next_point] at hbusy
    exact absurd hbusy (o.start hcond hx)
  | lock ht | unlock ht =>
    simp only [Event.thread, State.move_point_self, Exit.next_point, ht] at hbusy ⊢
    exact .inl hbusy
  | body ht =>
    simp only [Event.thread, State.move_point_self, ht] at hbusy ⊢
    exact o.body hcond ht hbusy
  | work ht hk =>
    simp only [Event.thread, State.move_point_self, Exit.next_point, ht] at hbusy ⊢
    exact o.work hcond ht hk hbusy

omit [DecidableEq τ] [DecidableEq μ] in
theorem atMostOne_init (shared : σ) (hret : ¬ busy .ret) :
    AtMostOne busy (State.init shared : State σ κ ω μ τ) :=
  fun _ _ h => absurd h hret

end

end HstongApi.Threads
