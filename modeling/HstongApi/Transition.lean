import Mathlib.Data.List.Basic
import Mathlib.Order.Basic

/-!
# Runs of a transition function

A system is a partial function `step : σ → ℓ → Option σ`: in the state `s` the
label `a` is enabled when `step s a` is some state, and that state comes next.
A run is a list of labels; the order of the labels is the schedule, so a
statement about every run is a statement about every interleaving.

* `exec step s run` is the state a run ends in.
* `Always step good s run` says that `good` holds in every state of the run.
* `EachStep step cond s run` says that each step of the run meets `cond`, a
  condition on the state before the step and on its label.

Two rules carry the safety proofs. `EachStep.always` is the invariant rule for
guarded runs: what every step that meets the condition keeps, holds throughout.
`EachStep.always_iff` is its sharp form: when a step that does not meet the condition
leads to a state that is not good, then all states of a run are good exactly if every
step of the run meets the condition.

What the steps of a run bring out, one after the other, is `gather step out s run`, and
`gather_inv` is the invariant rule for a state together with that.
-/

namespace HstongApi

universe u v

variable {σ : Type u} {ℓ : Type v} {step : σ → ℓ → Option σ}

/-- The state in which a run ends, when every label is enabled in its turn. -/
def exec (step : σ → ℓ → Option σ) : σ → List ℓ → Option σ
  | s, [] => some s
  | s, a :: run => (step s a).bind fun s' => exec step s' run

/-- The property holds in every state of the run, the first one included. -/
def Always (step : σ → ℓ → Option σ) (good : σ → Prop) : σ → List ℓ → Prop
  | s, [] => good s
  | s, a :: run => good s ∧ ∀ s', step s a = some s' → Always step good s' run

/-- Every step of the run meets the condition in the state it is taken in. -/
def EachStep (step : σ → ℓ → Option σ) (cond : σ → ℓ → Prop) : σ → List ℓ → Prop
  | _, [] => True
  | s, a :: run => ∀ s', step s a = some s' → cond s a ∧ EachStep step cond s' run

/-- A condition that can be decided can be decided along a run. -/
instance EachStep.decidable {cond : σ → ℓ → Prop} [∀ s, DecidablePred (cond s)] :
    (s : σ) → (run : List ℓ) → Decidable (EachStep step cond s run)
  | _, [] => .isTrue trivial
  | s, a :: run =>
    match h : step s a with
    | none => .isTrue fun s' h' => by rw [h] at h'; cases h'
    | some s' =>
      have : Decidable (EachStep step cond s' run) := EachStep.decidable s' run
      decidable_of_iff (cond s a ∧ EachStep step cond s' run)
        ⟨fun hs s'' h' => Option.some.inj (h.symm.trans h') ▸ hs, fun hs => hs s' h⟩

variable {s s' : σ} {run : List ℓ} {cond cond' : σ → ℓ → Prop} {inv good : σ → Prop}

theorem exec_eq_some {s'' : σ} {a : ℓ} :
    exec step s (a :: run) = some s'' ↔ ∃ s', step s a = some s' ∧ exec step s' run = some s'' :=
  Option.bind_eq_some_iff

theorem exec_concat (h : exec step s run = some s') (a : ℓ) :
    exec step s (run ++ [a]) = step s' a := by
  induction run generalizing s with
  | nil =>
    obtain rfl := Option.some.inj h
    exact Option.bind_fun_some (step s a)
  | cons b run ih =>
    obtain ⟨s₁, hstep, hrun⟩ := exec_eq_some.mp h
    rw [List.cons_append, exec, hstep]
    exact ih hrun

/-- A computed run: the state it ends in has a property that can be decided. -/
theorem exec_exists {p : σ → Prop} [DecidablePred p]
    (h : (exec step s run).any (fun s' => decide (p s')) = true) :
    ∃ s', exec step s run = some s' ∧ p s' := by
  cases hrun : exec step s run with
  | none =>
    rw [hrun] at h
    cases h
  | some s' =>
    rw [hrun] at h
    exact ⟨s', rfl, of_decide_eq_true h⟩

/-- **The frame rule.** What no step of a run touches is the same at its end. -/
theorem exec_frame {β : Type*} (view : σ → β) (touches : ℓ → Prop)
    (hframe : ∀ s a s', step s a = some s' → ¬touches a → view s' = view s)
    (hrun : exec step s run = some s') (h : ∀ a ∈ run, ¬touches a) : view s' = view s := by
  induction run generalizing s with
  | nil => rw [Option.some.inj hrun]
  | cons a run ih =>
    obtain ⟨s₁, hstep, hrun⟩ := exec_eq_some.mp hrun
    rw [ih hrun fun b hb => h b (List.mem_cons_of_mem _ hb)]
    exact hframe s a s₁ hstep (h a List.mem_cons_self)

/-! ## Properties along a run -/

theorem Always.first (h : Always step good s run) : good s := by
  cases run with
  | nil => exact h
  | cons a run => exact h.1

/-- A property of all states of a run is one of its last state. -/
theorem Always.last (h : Always step good s run) (hrun : exec step s run = some s') : good s' := by
  induction run generalizing s with
  | nil => exact Option.some.inj hrun ▸ h
  | cons a run ih =>
    obtain ⟨s₁, hstep, hrun⟩ := exec_eq_some.mp hrun
    exact ih (h.2 s₁ hstep) hrun

theorem Always.mono {good' : σ → Prop} (himp : ∀ s, good s → good' s) (h : Always step good s run) :
    Always step good' s run := by
  induction run generalizing s with
  | nil => exact himp s h
  | cons a run ih => exact ⟨himp s h.1, fun s' hstep => ih (h.2 s' hstep)⟩

/-- A condition on labels only holds along a run when it holds of every label. -/
theorem EachStep.of_forall (h : ∀ a ∈ run, ∀ s, cond s a) (s : σ) : EachStep step cond s run := by
  induction run generalizing s with
  | nil => trivial
  | cons a run ih =>
    exact fun s' _ => ⟨h a List.mem_cons_self s, ih (fun b hb => h b (List.mem_cons_of_mem _ hb)) s'⟩

theorem EachStep.and (h : EachStep step cond s run) (h' : EachStep step cond' s run) :
    EachStep step (fun s a => cond s a ∧ cond' s a) s run := by
  induction run generalizing s with
  | nil => trivial
  | cons a run ih =>
    intro s' hstep
    obtain ⟨ha, hrest⟩ := h s' hstep
    obtain ⟨ha', hrest'⟩ := h' s' hstep
    exact ⟨⟨ha, ha'⟩, ih hrest hrest'⟩

/-- **The invariant rule.** What every step that meets the condition keeps holds in
every state of a run whose steps all meet it. -/
theorem EachStep.always (hkeep : ∀ s a s', inv s → cond s a → step s a = some s' → inv s')
    (hinit : inv s) (h : EachStep step cond s run) : Always step inv s run := by
  induction run generalizing s with
  | nil => exact hinit
  | cons a run ih =>
    refine ⟨hinit, fun s' hstep => ?_⟩
    obtain ⟨hcond, hrest⟩ := h s' hstep
    exact ih (hkeep s a s' hinit hcond hstep) hrest

/-- A condition gives another one along a run if it does so wherever an invariant holds, and
keeps that invariant. -/
theorem EachStep.imp (himp : ∀ s a s', inv s → step s a = some s' → cond s a → cond' s a ∧ inv s')
    (hinit : inv s) (h : EachStep step cond s run) : EachStep step cond' s run := by
  induction run generalizing s with
  | nil => trivial
  | cons a run ih =>
    intro s' hstep
    obtain ⟨hcond, hrest⟩ := h s' hstep
    obtain ⟨hcond', hinv⟩ := himp s a s' hinit hstep hcond
    exact ⟨hcond', ih hinv hrest⟩

theorem EachStep.mono (himp : ∀ s a, cond s a → cond' s a) (h : EachStep step cond s run) :
    EachStep step cond' s run :=
  h.imp (fun s a _ (_ : True) _ ha => ⟨himp s a ha, trivial⟩) trivial

/-- **The rule for potentials.** What no step that meets the condition makes greater is not
greater at the end of a run. -/
theorem EachStep.exec_le {α : Type*} [Preorder α] {potential : σ → α}
    (hkeep : ∀ s a s', inv s → cond s a → step s a = some s' → inv s' ∧ potential s' ≤ potential s)
    (hinit : inv s) (h : EachStep step cond s run) (hrun : exec step s run = some s') :
    potential s' ≤ potential s := by
  have hall : Always step (fun s' => inv s' ∧ potential s' ≤ potential s) s run := by
    refine h.always (fun s₁ a s₂ hs hcond hstep => ?_) ⟨hinit, le_rfl⟩
    exact (hkeep s₁ a s₂ hs.1 hcond hstep).imp_right hs.2.trans'
  exact (hall.last hrun).2

/-- The invariant rule without a condition. -/
theorem always_of_step (hkeep : ∀ s a s', inv s → step s a = some s' → inv s') (hinit : inv s)
    (run : List ℓ) : Always step inv s run :=
  (EachStep.of_forall (fun _ _ _ => trivial) s).always
    (fun s a s' hs (_ : True) => hkeep s a s' hs) hinit

/-- **The exactness rule.** Let an invariant make a state good. When a step that meets
the condition keeps the invariant, and a step that does not meet it leads to a state
that is not good, then all states of a run are good exactly when all its steps meet the
condition. This may be asked of the steps that meet a side condition only. -/
theorem EachStep.always_iff {side : σ → ℓ → Prop} (hgood : ∀ s, inv s → good s)
    (hkeep : ∀ s a s', inv s → side s a → cond s a → step s a = some s' → inv s')
    (hbad : ∀ s a s', inv s → side s a → step s a = some s' → good s' → cond s a)
    (hside : EachStep step side s run) (hinit : inv s) :
    Always step good s run ↔ EachStep step cond s run := by
  refine ⟨fun h => ?_, fun h => ?_⟩
  · induction run generalizing s with
    | nil => trivial
    | cons a run ih =>
      intro s' hstep
      obtain ⟨ha, hside⟩ := hside s' hstep
      have hrest := h.2 s' hstep
      have hcond := hbad s a s' hinit ha hstep hrest.first
      exact ⟨hcond, ih hside (hkeep s a s' hinit ha hcond hstep) hrest⟩
  · refine Always.mono hgood (EachStep.always ?_ hinit (hside.and h))
    exact fun s a s' hs hcond hstep => hkeep s a s' hs hcond.1 hcond.2 hstep

/-- The exactness rule without a side condition. -/
theorem always_iff_eachStep (hgood : ∀ s, inv s → good s)
    (hkeep : ∀ s a s', inv s → cond s a → step s a = some s' → inv s')
    (hbad : ∀ s a s', inv s → step s a = some s' → good s' → cond s a) (hinit : inv s)
    (run : List ℓ) : Always step good s run ↔ EachStep step cond s run :=
  EachStep.always_iff hgood (fun s a s' hs (_ : True) => hkeep s a s' hs)
    (fun s a s' hs (_ : True) => hbad s a s' hs)
    (EachStep.of_forall (fun _ _ _ => trivial) s) hinit

/-! ## What a run brings out -/

/-- What the steps of a run bring out, in their order. -/
def gather {β : Type*} (step : σ → ℓ → Option σ) (out : σ → ℓ → σ → List β) : σ → List ℓ → List β
  | _, [] => []
  | s, a :: run =>
    match step s a with
    | none => []
    | some s' => out s a s' ++ gather step out s' run

/-- **The invariant rule** for a state and what was brought out before it. -/
theorem gather_inv {β : Type*} {out : σ → ℓ → σ → List β} {inv : σ → List β → Prop}
    (hkeep : ∀ s a s' before, inv s before → step s a = some s' → inv s' (before ++ out s a s'))
    (hinit : inv s []) (hrun : exec step s run = some s') : inv s' (gather step out s run) := by
  have hgeneral : ∀ (run : List ℓ) (s : σ) (before : List β), inv s before →
      exec step s run = some s' → inv s' (before ++ gather step out s run) := by
    intro run
    induction run with
    | nil =>
      intro s before hs hrun
      cases hrun
      rw [gather, List.append_nil]
      exact hs
    | cons a run ih =>
      intro s before hs hrun
      obtain ⟨s₁, hstep, hrun⟩ := exec_eq_some.mp hrun
      rw [gather, hstep, ← List.append_assoc]
      exact ih s₁ _ (hkeep s a s₁ before hs hstep) hrun
  exact hgeneral run s [] hinit hrun

/-! ## Runs without some of their steps -/

/-- What the steps of a run keep and what does not hold at its end, held nowhere in it. -/
theorem EachStep.always_not {p : σ → Prop}
    (hkeep : ∀ s a s', p s → cond s a → step s a = some s' → p s') (h : EachStep step cond s run)
    (hrun : exec step s run = some s') (hnot : ¬p s') : Always step (fun s => ¬p s) s run := by
  induction run generalizing s with
  | nil => exact Option.some.inj hrun ▸ hnot
  | cons a run ih =>
    refine ⟨fun hp => hnot ((EachStep.always hkeep hp h).last hrun), fun s₁ hstep => ?_⟩
    obtain ⟨s₂, hstep₂, hrun⟩ := exec_eq_some.mp hrun
    cases hstep.symm.trans hstep₂
    exact ih (h s₁ hstep).2 hrun

/-- **The erasure rule.** A run may be simulated without the labels that are not kept, if a step
with a kept label can be followed, and a step with another label can be ignored. -/
theorem EachStep.exec_filter {sim : σ → σ → Prop} {keep : ℓ → Bool}
    (hkeep : ∀ s t a s', sim s t → cond s a → step s a = some s' → good s' → keep a = true →
      ∃ t', step t a = some t' ∧ sim s' t')
    (hdrop : ∀ s t a s', sim s t → cond s a → step s a = some s' → good s' → keep a = false →
      sim s' t)
    {t : σ} (hsim : sim s t) (h : EachStep step cond s run) (hgood : Always step good s run)
    (hrun : exec step s run = some s') :
    ∃ t', exec step t (run.filter keep) = some t' ∧ sim s' t' := by
  induction run generalizing s t with
  | nil => exact ⟨t, rfl, Option.some.inj hrun ▸ hsim⟩
  | cons a run ih =>
    obtain ⟨s₁, hstep, hrun⟩ := exec_eq_some.mp hrun
    obtain ⟨hcond, hrest⟩ := h s₁ hstep
    have hgood₁ := hgood.2 s₁ hstep
    cases hlabel : keep a with
    | true =>
      obtain ⟨t₁, htstep, hsim₁⟩ := hkeep s t a s₁ hsim hcond hstep hgood₁.first hlabel
      obtain ⟨t', htrun, hsim'⟩ := ih hsim₁ hrest hgood₁ hrun
      rw [List.filter_cons_of_pos hlabel]
      exact ⟨t', exec_eq_some.mpr ⟨t₁, htstep, htrun⟩, hsim'⟩
    | false =>
      have hsim₁ := hdrop s t a s₁ hsim hcond hstep hgood₁.first hlabel
      rw [List.filter_cons_of_neg (by rw [hlabel]; exact Bool.false_ne_true)]
      exact ih hsim₁ hrest hgood₁ hrun

end HstongApi
