import HstongApi.Threads
import Mathlib.Algebra.Order.BigOperators.Group.Finset
import Mathlib.Data.Finset.Dedup
import Mathlib.Data.Prod.Lex
import Mathlib.Data.Set.Finite.Basic
import Mathlib.Order.WellFounded

/-!
# Threads that come to rest, and threads that panic

`Inevitable` says that a goal is reached whatever the schedule is: there is always a thread that
can go on whatever it is answered, and no run goes on for ever without the goal. No fairness is
assumed, since a thread that waits has no step to take.

Two things give this for the threads of a program when no more calls come. A state in which some
thread is in a call has a thread that can go on, as soon as one of the threads in a call is not
blocked outside the sections (`Locked.blocked`). And there is a variant: every thread has a rank
that its own actions lower, and an action that makes the rank of others greater, as a broadcast
does, is paid from a credit that nothing fills up again (`NextVariant`).

An action outside the sections may be a call out of the program. When it panics, and the owner of
the goroutine recovers, then the thread is idle again and nothing is done of what came after the
action, except for what was deferred. `Unwinding` says which actions these are and what they defer.
-/

namespace HstongApi

/-! ## What happens in every schedule -/

section

variable {σ ℓ τ ρ α : Type*} {step : σ → ℓ → Option σ} {turn : τ → ρ → ℓ} {may : σ → ℓ → Prop}
  {goal : σ → Prop} {s : σ}

/-- **The goal is reached in every schedule**: it is reached, or some thread can go on whatever it
is answered, and after each step that may come next it is reached in every schedule. -/
inductive Inevitable (step : σ → ℓ → Option σ) (turn : τ → ρ → ℓ) (may : σ → ℓ → Prop)
    (goal : σ → Prop) : σ → Prop
  | reached {s : σ} : goal s → Inevitable step turn may goal s
  | next {s : σ} : (∃ t, ∀ r, (step s (turn t r)).isSome = true) →
      (∀ a s', may s a → step s a = some s' → Inevitable step turn may goal s') →
      Inevitable step turn may goal s

/-- Where each thread is blocked, unless it gets the right answer, nothing is inevitable any more. -/
theorem Inevitable.of_stuck (h : Inevitable step turn may goal s)
    (hstuck : ∀ t, ∃ r, step s (turn t r) = none) : goal s := by
  cases h with
  | reached hgoal => exact hgoal
  | next hcan =>
    obtain ⟨t, ht⟩ := hcan
    obtain ⟨r, hr⟩ := hstuck t
    have hsome := ht r
    rw [hr] at hsome
    cases hsome

/-- **The rule for variants.** -/
theorem Inevitable.of_variant [LT α] [WellFoundedLT α] (inv : σ → Prop) (variant : σ → α)
    (hprogress : ∀ s, inv s → ¬goal s → ∃ t, ∀ r, (step s (turn t r)).isSome = true)
    (hkeep : ∀ s a s', inv s → may s a → step s a = some s' → inv s' ∧ variant s' < variant s)
    (hs : inv s) : Inevitable step turn may goal s := by
  induction hm : variant s using WellFoundedLT.induction generalizing s with
  | ind m ih =>
    by_cases hgoal : goal s
    · exact .reached hgoal
    · refine .next (hprogress s hs hgoal) fun a s' hmay hstep => ?_
      obtain ⟨hs', hlt⟩ := hkeep s a s' hs hmay hstep
      exact ih (variant s') (hm ▸ hlt) hs' rfl

end

namespace Threads

variable {σ ρ ς κ ω μ τ ι : Type*}

/-! ## Panics -/

/-- What a panic does that comes out of an action outside the sections. What is deferred there is
done in one step, when its mutex is free. -/
structure Unwinding (σ ω μ : Type*) where
  /-- the action is a call out of the program -/
  calls : ω → Bool
  /-- the mutex that is locked on the way out -/
  mutex : ω → Option μ
  /-- what is done on the way out -/
  deferred : ω → σ → σ

/-- A thread is called or acts, or the call out of the program that it is in panics. -/
inductive Happening (ρ ς τ : Type*)
  | event (ev : Event ρ ς τ)
  | panic (t : τ)
  deriving DecidableEq

/-- The thread of it. -/
def Happening.thread : Happening ρ ς τ → τ
  | .event ev => ev.thread
  | .panic t => t

section

variable [DecidableEq τ] [DecidableEq μ]

/-- **One step of the system with panics.** -/
def Unwinding.step (U : Unwinding σ ω μ) (P : Program σ ρ ς κ ω μ) (s : State σ κ ω μ τ) :
    Happening ρ ς τ → Option (State σ κ ω μ τ)
  | .event ev => P.step s ev
  | .panic t =>
    match s.point t with
    | .work k =>
      if U.calls k = true ∧ ∀ m ∈ U.mutex k, s.holder m = none then
        some ((s.write (U.deferred k s.shared)).move t .idle)
      else none
    | _ => none

variable {U : Unwinding σ ω μ} {P : Program σ ρ ς κ ω μ} {s s' : State σ κ ω μ τ}

theorem Unwinding.panic_cases {t : τ} (h : U.step P s (.panic t) = some s') :
    ∃ k, s.point t = .work k ∧ U.calls k = true ∧
      s' = (s.write (U.deferred k s.shared)).move t .idle := by
  simp only [step] at h
  split at h
  · obtain ⟨hcalls, heq⟩ := Option.ite_none_right_eq_some.mp h
    exact ⟨_, ‹_›, hcalls.1, (Option.some.inj heq).symm⟩
  · cases h

theorem Unwinding.point_step {a : Happening ρ ς τ} (h : U.step P s a = some s') {t : τ}
    (ht : t ≠ a.thread) : s'.point t = s.point t := by
  cases a with
  | event ev => exact Program.point_step h ht
  | panic t' =>
    obtain ⟨k, -, -, rfl⟩ := panic_cases h
    exact State.move_point_of_ne _ ht _

/-- When the other threads of a run from the start are idle at its end, so are all the others. -/
theorem Unwinding.idle_of_exec {shared : σ} {run : List (Happening ρ ς τ)} {t : τ}
    (h : exec (U.step P) (.init shared) run = some s)
    (hthreads : ∀ a ∈ run, a.thread = t ∨ s.point a.thread = .idle) (t' : τ) (hne : t' ≠ t) :
    s.point t' = .idle := by
  by_cases hrun : ∃ a ∈ run, t' = a.thread
  · obtain ⟨a, ha, rfl⟩ := hrun
    exact (hthreads a ha).resolve_left hne
  · exact exec_frame (fun s => s.point t') (fun a => t' = a.thread)
      (fun _ _ _ hstep => point_step hstep) h fun a ha heq => hrun ⟨a, ha, heq⟩

theorem Locked.unwind {a : Happening ρ ς τ} (h : Locked P s) (hstep : U.step P s a = some s') :
    Locked P s' := by
  cases a with
  | event ev => exact h.step hstep
  | panic t =>
    obtain ⟨k, ht, -, rfl⟩ := Unwinding.panic_cases hstep
    refine (h.write _).move ?_
    have hpoint : (s.write (U.deferred k s.shared)).point t = .work k := ht
    rw [hpoint]
    rfl

/-- The mutexes work in a run with panics. -/
theorem Unwinding.locked_of_exec {shared : σ} {run : List (Happening ρ ς τ)}
    (h : exec (U.step P) (.init shared) run = some s) : Locked P s :=
  (always_of_step (fun _ _ _ hs hstep => hs.unwind hstep) (locked_init shared) run).last h

/-- A thread that is blocked outside the sections stays where it is. -/
theorem Unwinding.point_of_blocked {a : Happening ρ ς τ} (h : U.step P s a = some s') {t : τ} {k : ω}
    (ht : s.point t = .work k) (hcalls : U.calls k = false)
    (hblocked : ∀ r, a = .event (.run t r) → P.work k r s.shared = none) : s'.point t = .work k := by
  by_cases hthread : t = a.thread
  · exfalso
    subst hthread
    cases a with
    | event ev =>
      cases ev with
      | call t b =>
        simp only [Happening.thread, Event.thread] at ht
        simp only [step, Program.step, ht] at h
        cases h
      | run t r =>
        have hnone := hblocked r rfl
        simp only [Happening.thread, Event.thread] at ht
        simp only [step, Program.step, ht, hnone] at h
        cases h
    | panic t =>
      simp only [Happening.thread] at ht
      simp only [step, ht, hcalls] at h
      cases h
  · rw [point_step h hthread]
    exact ht

/-- Nothing is inevitable any more where the only thread in a call is blocked, unless it gets the right
answer. -/
theorem Unwinding.of_blocked {may : State σ κ ω μ τ → Happening ρ ς τ → Prop}
    {goal : State σ κ ω μ τ → Prop} {t : τ} {k : ω} {r : ρ}
    (h : Inevitable (U.step P) (fun t r => .event (.run t r)) may goal s)
    (hidle : ∀ t', t' ≠ t → s.point t' = .idle) (ht : s.point t = .work k)
    (hk : P.work k r s.shared = none) : goal s := by
  refine h.of_stuck fun t' => ⟨r, ?_⟩
  by_cases hthread : t' = t
  · rw [hthread]
    simp only [step, Program.step, ht, hk]
    rfl
  · simp only [step, Program.step, hidle t' hthread]

/-- In a run from the start, finitely many threads are in a call at a time. -/
theorem Unwinding.finite_busy {a : Happening ρ ς τ} (h : U.step P s a = some s')
    (hs : {t | s.point t ≠ .idle}.Finite) : {t | s'.point t ≠ .idle}.Finite := by
  refine (hs.insert a.thread).subset fun t ht => ?_
  by_cases hthread : t = a.thread
  · exact .inl hthread
  · refine .inr fun hidle => ht ?_
    rw [point_step h hthread, hidle]

/-- Which panics there are. -/
def Only (may : State σ κ ω μ τ → τ → Prop) (s : State σ κ ω μ τ) : Happening ρ ς τ → Prop
  | .event _ => True
  | .panic t => may s t

instance {may : State σ κ ω μ τ → τ → Prop} [∀ s, DecidablePred (may s)] (s : State σ κ ω μ τ) :
    DecidablePred (Only (ρ := ρ) (ς := ς) may s)
  | .event _ => .isTrue trivial
  | .panic t => inferInstanceAs (Decidable (may s t))

/-- And no more calls come. -/
def Later (may : State σ κ ω μ τ → τ → Prop) (s : State σ κ ω μ τ) : Happening ρ ς τ → Prop
  | .event (.call _ _) => False
  | .event (.run _ _) => True
  | .panic t => may s t

omit [DecidableEq τ] [DecidableEq μ] in
theorem Later.only {may : State σ κ ω μ τ → τ → Prop} {a : Happening ρ ς τ} (h : Later may s a) :
    Only may s a := by
  cases a with
  | event ev => trivial
  | panic t => exact h

/-! ## A thread that gives up a call out of the program -/

section

variable {t : τ} {k : ω} {inv : σ → Prop} {assert : σ → Point κ ω → Prop} {done : σ → ι → Prop}
  {owes : Exit κ ω → ι → Prop} {free : σ → ι → Prop} {holds : Exit κ ω → ι → Prop}

omit [DecidableEq μ]

theorem Sound.giveUp (h : Sound P inv assert s) (ht : s.point t = .work k)
    (hidle : assert s.shared .idle) : Sound P inv assert (s.move t .idle) := by
  refine ⟨h.locked.move ?_, h.inv, assert_move hidle fun t' _ => h.assert t'⟩
  rw [ht]
  rfl

theorem Accounted.giveUp (h : Accounted done owes s) (ht : s.point t = .work k)
    (hk : ∀ i, ¬owes (.go k) i) : Accounted done owes (s.move t .idle) :=
  h.move ht s.shared fun i hi => .inl (hi.resolve_right (hk i))

theorem Held.giveUp (h : Held free holds s) (hret : ∀ i, ¬holds .ret i) :
    Held free holds (s.move t .idle) :=
  h.move s.shared (fun i hi => absurd hi (hret i)) fun _ => .inl

end

/-! ## Some thread can go on -/

/-- A thread in a call can go on, or the holder of the mutex for which it waits, unless it is
blocked outside the sections. -/
theorem Locked.can_run (h : Locked P s) {t : τ} (hbusy : s.point t ≠ .idle)
    (hfree : ∀ k, s.point t = .work k → ∀ r, (P.work k r s.shared).isSome = true) :
    ∃ t', ∀ r, (P.step s (.run t' r)).isSome = true := by
  -- a thread in a section does its action or unlocks
  have hinside : ∀ t' c, (s.point t').region = some c →
      ∀ r, (P.step s (.run t' r)).isSome = true := by
    intro t' c hregion r
    cases hpoint : s.point t' with
    | inside c' | leaving c' x =>
      simp only [Program.step, hpoint]
      rfl
    | _ =>
      rw [hpoint] at hregion
      cases hregion
  cases hpoint : s.point t with
  | idle => exact absurd hpoint hbusy
  | inside c | leaving c x => exact ⟨t, hinside t c (by rw [hpoint]; rfl)⟩
  | work k =>
    refine ⟨t, fun r => ?_⟩
    simp only [Program.step, hpoint, Option.isSome_map]
    exact hfree k hpoint r
  | wait c =>
    cases hholder : s.holder (P.mutex c) with
    | none =>
      refine ⟨t, fun r => ?_⟩
      simp only [Program.step, hpoint, hholder]
      rfl
    | some t' =>
      have hheld := (h _ t').mp hholder
      obtain ⟨c', hregion, -⟩ := Option.map_eq_some_iff.mp hheld
      exact ⟨t', hinside t' c' hregion⟩

/-- When no thread can go on whatever it is answered, the threads in a call are blocked. -/
theorem Locked.blocked (h : Locked P s)
    (hstuck : ¬∃ t, ∀ r, (P.step s (.run t r)).isSome = true) {t : τ} (hbusy : s.point t ≠ .idle) :
    ∃ k r, s.point t = .work k ∧ P.work k r s.shared = none := by
  by_contra hnone
  refine hstuck (h.can_run hbusy fun k hk r => ?_)
  by_contra hblocked
  exact hnone ⟨k, r, hk, Option.not_isSome_iff_eq_none.mp hblocked⟩

/-! ## A thread alone -/

/-- The thread gets so far with so many actions when it alone runs and all mutexes are free. -/
def Alone (P : Program σ ρ ς κ ω μ) (s : State σ κ ω μ τ) (t : τ) (r : ρ) (n : ℕ) (shared : σ)
    (p : Point κ ω) : Prop :=
  ∃ s', exec P.step s (List.replicate n (.run t r)) = some s' ∧ s'.shared = shared ∧
    s'.point t = p ∧ ∀ m, s'.holder m = none

omit [DecidableEq τ] [DecidableEq μ] in
/-- The mutexes are free when no thread is in a call. -/
theorem Locked.free_of_quiescent (h : Locked P s) (hquiet : s.Quiescent) (m : μ) :
    s.holder m = none := by
  by_contra hheld
  obtain ⟨t, ht⟩ := Option.ne_none_iff_exists'.mp hheld
  have hholds := (h m t).mp ht
  rw [hquiet t] at hholds
  cases hholds

variable {t : τ} {r : ρ} {n : ℕ} {shared shared' : σ} {x : Exit κ ω}

omit [DecidableEq τ] [DecidableEq μ] in
theorem exec_replicate_succ {step : σ → ρ → Option σ} {s s' s'' : σ} {a : ρ}
    (h : exec step s (List.replicate n a) = some s') (hstep : step s' a = some s'') :
    exec step s (List.replicate (n + 1) a) = some s'' := by
  rw [List.replicate_succ', exec_concat h, hstep]

theorem alone_start (hfree : ∀ m, s.holder m = none) (p : Point κ ω) :
    Alone P (s.move t p) t r 0 s.shared p :=
  ⟨_, rfl, rfl, State.move_point_self .., hfree⟩

/-- A thread in no call gets as far as it does after the call. -/
theorem Alone.exec_call {p : Point κ ω} (h : Alone P (s.move t x.point) t r n shared p) (a : ς)
    (ht : s.point t = .idle) (hx : P.start a s.shared = some x) :
    ∃ s', exec P.step s (.call t a :: List.replicate n (.run t r)) = some s' ∧ s'.point t = p := by
  obtain ⟨s', hrun, -, hpoint, -⟩ := h
  refine ⟨s', exec_eq_some.mpr ⟨_, ?_, hrun⟩, hpoint⟩
  simp only [Program.step, ht, hx, Option.map_some]

theorem Alone.work {k : ω} (h : Alone P s t r n shared (.work k))
    (hk : P.work k r shared = some (shared', x)) : Alone P s t r (n + 1) shared' x.point := by
  obtain ⟨s₁, hrun, rfl, hpoint, hfree⟩ := h
  have hstep : P.step s₁ (.run t r) = some ((s₁.write shared').move t x.point) := by
    simp only [Program.step, hpoint, hk, Option.map_some]
  exact ⟨_, exec_replicate_succ hrun hstep, rfl, State.move_point_self .., hfree⟩

theorem Alone.section {c : κ} (h : Alone P s t r n shared (.wait c))
    (hbody : P.body c r shared = (shared', .leave x)) : Alone P s t r (n + 3) shared' x.point := by
  obtain ⟨s₁, hrun, rfl, hpoint, hfree⟩ := h
  let s₂ := (s₁.hand (P.mutex c) (some t)).move t (.inside c)
  let s₃ := (s₂.write shared').move t (.leaving c x)
  have hlock : P.step s₁ (.run t r) = some s₂ := by
    simp only [Program.step, hpoint, hfree, if_true, s₂]
  have hact : P.step s₂ (.run t r) = some s₃ := by
    have hinside : s₂.point t = .inside c := State.move_point_self ..
    have hshared : s₂.shared = s₁.shared := rfl
    simp only [Program.step, hinside, hshared, hbody]
    rfl
  have hunlock : P.step s₃ (.run t r) = some ((s₃.hand (P.mutex c) none).move t x.point) := by
    have hleaving : s₃.point t = .leaving c x := State.move_point_self ..
    simp only [Program.step, hleaving]
  refine ⟨_, exec_replicate_succ (exec_replicate_succ (exec_replicate_succ hrun hlock) hact) hunlock,
    rfl, State.move_point_self .., fun m => ?_⟩
  have hholder : ((s₃.hand (P.mutex c) none).move t x.point).holder =
      Function.update (Function.update s₁.holder (P.mutex c) (some t)) (P.mutex c) none := rfl
  rw [hholder, Function.update_idem]
  by_cases hm : m = P.mutex c
  · rw [hm, Function.update_self]
  · rw [Function.update_of_ne hm, hfree]

end

/-! ## Variants -/

/-- How many actions come at most, from bounds for the sections and for the work outside. -/
@[simp] def Exit.rank (sec : κ → ℕ) (out : ω → ℕ) : Exit κ ω → ℕ
  | .ret => 0
  | .enter c => sec c + 2
  | .go k => out k

@[simp, inherit_doc Exit.rank]
def Point.rank (sec : κ → ℕ) (out : ω → ℕ) : Point κ ω → ℕ
  | .idle => 0
  | .wait c => sec c + 2
  | .inside c => sec c + 1
  | .leaving _ x => x.rank sec out + 1
  | .work k => out k

@[simp] theorem Exit.rank_point (sec : κ → ℕ) (out : ω → ℕ) (x : Exit κ ω) :
    x.point.rank sec out = x.rank sec out := by
  cases x <;> rfl

/-- **An action spends credit, or it lowers the rank of its thread and of no other.** -/
structure NextVariant (P : Program σ ρ ς κ ω μ) (U : Unwinding σ ω μ) (credit : Exit κ ω → ℕ)
    (sec : κ → ℕ) (out : σ → ω → ℕ) : Prop where
  ret : credit .ret = 0
  body : ∀ {s r c}, credit ((P.body c r s).2.point c).next < credit (.enter c) ∨
    credit ((P.body c r s).2.point c).next ≤ credit (.enter c) ∧ out (P.body c r s).1 = out s ∧
      ((P.body c r s).2.point c).rank sec (out s) ≤ sec c
  work : ∀ {s r k shared x}, P.work k r s = some (shared, x) → credit x < credit (.go k) ∨
    credit x ≤ credit (.go k) ∧ out shared = out s ∧ x.rank sec (out s) < out s k
  calls : ∀ {s k}, U.calls k = true → 0 < out s k

/-- One thread has gone on. -/
def Advances (credit : Exit κ ω → ℕ) (sec : κ → ℕ) (out : σ → ω → ℕ) (s s' : State σ κ ω μ τ)
    (t : τ) : Prop :=
  credit (s'.point t).next < credit (s.point t).next ∨
    credit (s'.point t).next ≤ credit (s.point t).next ∧ out s'.shared = out s.shared ∧
      (s'.point t).rank sec (out s.shared) < (s.point t).rank sec (out s.shared)

/-- What the threads have before them. -/
def State.variant (credit : Exit κ ω → ℕ) (sec : κ → ℕ) (out : σ → ω → ℕ) (ts : Finset τ)
    (s : State σ κ ω μ τ) : ℕ ×ₗ ℕ :=
  toLex (∑ t ∈ ts, credit (s.point t).next, ∑ t ∈ ts, (s.point t).rank sec (out s.shared))

section

variable {credit : Exit κ ω → ℕ} {sec : κ → ℕ} {out : σ → ω → ℕ} {s s' : State σ κ ω μ τ}

theorem Advances.variant_lt {t : τ} (h : Advances credit sec out s s' t) {ts : Finset τ}
    (ht : t ∈ ts) (hother : ∀ t', t' ≠ t → s'.point t' = s.point t') :
    s'.variant credit sec out ts < s.variant credit sec out ts := by
  -- a sum over the threads changes by what one of them changes
  have hsum : ∀ f : Point κ ω → ℕ, f (s'.point t) ≤ f (s.point t) →
      ∀ t' ∈ ts, f (s'.point t') ≤ f (s.point t') := by
    intro f hle t' _
    by_cases heq : t' = t
    · rw [heq]
      exact hle
    · rw [hother t' heq]
  refine Prod.Lex.toLex_lt_toLex.mpr ?_
  rcases h with hless | ⟨hle, hout, hrank⟩
  · exact .inl (Finset.sum_lt_sum (hsum (credit ·.next) hless.le) ⟨t, ht, hless⟩)
  · rcases (Finset.sum_le_sum (hsum (credit ·.next) hle)).lt_or_eq with hlt | heq
    · exact .inl hlt
    · refine .inr ⟨heq, ?_⟩
      rw [hout]
      exact Finset.sum_lt_sum (hsum (·.rank sec (out s.shared)) hrank.le) ⟨t, ht, hrank⟩

variable [DecidableEq τ] [DecidableEq μ] {P : Program σ ρ ς κ ω μ} {U : Unwinding σ ω μ}

theorem NextVariant.advances (v : NextVariant P U credit sec out) {t : τ} {r : ρ}
    (hstep : P.step s (.run t r) = some s') : Advances credit sec out s s' t := by
  cases Program.step_cases hstep with
  | @lock _ _ c ht hfree =>
    refine .inr ?_
    rw [State.move_point_self, ht]
    exact ⟨le_refl _, rfl, Nat.lt_succ_self _⟩
  | @body _ _ c ht =>
    rw [Advances, State.move_point_self, ht]
    refine v.body.imp_right ?_
    rintro ⟨hcredit, hout, hrank⟩
    exact ⟨hcredit, hout, Nat.lt_succ_of_le hrank⟩
  | @unlock _ _ c x ht =>
    refine .inr ?_
    rw [State.move_point_self, ht, Exit.next_point, Exit.rank_point]
    exact ⟨le_refl _, rfl, Nat.lt_succ_self _⟩
  | @work _ _ k shared x ht hk =>
    rw [Advances, State.move_point_self, ht, Exit.next_point, Exit.rank_point]
    exact v.work hk

omit [DecidableEq μ] in
theorem NextVariant.advances_giveUp (v : NextVariant P U credit sec out) {t : τ} {k : ω}
    (ht : s.point t = .work k) (hcalls : U.calls k = true) :
    Advances credit sec out s (s.move t .idle) t := by
  refine .inr ?_
  rw [State.move_point_self, ht]
  refine ⟨?_, rfl, v.calls hcalls⟩
  rw [Point.next, v.ret]
  exact Nat.zero_le _

variable {may : State σ κ ω μ τ → τ → Prop} {inv goal : State σ κ ω μ τ → Prop}

/-- **Threads come to rest.** Let some thread be able to go on as long as the goal is not reached,
and let the panics that may be defer nothing. Then the goal is reached in every schedule, in every
state of a run. -/
theorem NextVariant.settles (v : NextVariant P U credit sec out)
    (hdefers : ∀ s t k, may s t → s.point t = .work k → U.deferred k s.shared = s.shared)
    (hprogress : ∀ s, inv s → ¬goal s → ∃ t, ∀ r, (P.step s (.run t r)).isSome = true)
    (hkeep : ∀ s a s', inv s → Only may s a → U.step P s a = some s' → inv s')
    {shared : σ} (hinit : inv (.init shared)) {run : List (Happening ρ ς τ)}
    (hrun : EachStep (U.step P) (Only may) (.init shared) run) :
    Always (U.step P)
      (Inevitable (U.step P) (fun t r => .event (.run t r)) (Later may) goal) (.init shared) run := by
  have hfinite : Always (U.step P) (fun s => inv s ∧ {t | s.point t ≠ .idle}.Finite)
      (.init shared) run := by
    refine hrun.always (fun s a s' hs hcond hstep => ?_) ⟨hinit, ?_⟩
    · exact ⟨hkeep s a s' hs.1 hcond hstep, U.finite_busy hstep hs.2⟩
    · have hnone : {t : τ | (State.init shared : State σ κ ω μ τ).point t ≠ .idle} = ∅ :=
        Set.eq_empty_of_forall_notMem fun t ht => ht rfl
      rw [hnone]
      exact Set.finite_empty
  refine hfinite.mono fun s hs => ?_
  obtain ⟨hs, hbusy⟩ := hs
  -- the threads that are in a call now are the only ones that act from now on
  refine Inevitable.of_variant (fun s => inv s ∧ ∀ t, t ∉ hbusy.toFinset → s.point t = .idle)
    (State.variant credit sec out hbusy.toFinset) (fun s hs hgoal => hprogress s hs.1 hgoal)
    (fun s a s' hs hlater hstep => ?_) ⟨hs, fun t ht => not_not.mp fun hne => ht (hbusy.mem_toFinset.mpr hne)⟩
  obtain ⟨hs, hidle⟩ := hs
  have hother : ∀ t, t ≠ a.thread → s'.point t = s.point t := fun t => U.point_step hstep
  have hadvances : Advances credit sec out s s' a.thread ∧ s.point a.thread ≠ .idle := by
    cases a with
    | event ev =>
      cases ev with
      | call t b => exact hlater.elim
      | run t r =>
        refine ⟨v.advances hstep, fun hpoint => ?_⟩
        simp only [Unwinding.step, Program.step] at hstep
        simp only [Happening.thread, Event.thread] at hpoint
        rw [hpoint] at hstep
        cases hstep
    | panic t =>
      obtain ⟨k, ht, hcalls, rfl⟩ := U.panic_cases hstep
      rw [hdefers s t k hlater ht]
      exact ⟨v.advances_giveUp ht hcalls, fun hpoint => by cases ht.symm.trans hpoint⟩
  have hthread : a.thread ∈ hbusy.toFinset := by
    by_contra hnot
    exact hadvances.2 (hidle _ hnot)
  refine ⟨⟨hkeep s a s' hs hlater.only hstep, fun t ht => ?_⟩, hadvances.1.variant_lt hthread hother⟩
  rw [hother t (fun heq => ht (heq ▸ hthread))]
  exact hidle t ht

end

end Threads

end HstongApi
