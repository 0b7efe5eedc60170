import Mathlib.Data.List.Basic
import Mathlib.Data.List.TakeWhile

/-!
# Maximal runs

`runs p i s` lists the maximal runs of elements of `s` that pass the test `p`,
each as the pair of its first position and the position after its last, where
`s` starts at position `i`. This is what a regular expression of the form `[…]+`
finds when it is matched repeatedly from left to right.

The list is computed in one pass with the start of the open run in hand. Proofs
never look at that pass: they use the equations `runs_cons` and `runs_append`,
the membership rule `mem_runs`, and the order of the list (`runs_pairwise`).
-/

namespace HstongApi

universe u

variable {α : Type u} {p : α → Bool}

/-- The runs of `s`, which starts at position `i`; `o` is where the open run
began. -/
def runsFrom (p : α → Bool) : ℕ → Option ℕ → List α → List (ℕ × ℕ)
  | i, o, [] => o.toList.map fun st => (st, i)
  | i, o, c :: s =>
    if p c then runsFrom p (i + 1) (some (o.getD i)) s
    else o.toList.map (fun st => (st, i)) ++ runsFrom p (i + 1) none s

/-- The maximal runs of `s`, which starts at position `i`. -/
def runs (p : α → Bool) (i : ℕ) (s : List α) : List (ℕ × ℕ) := runsFrom p i none s

/-- An open run is closed by the first element that fails the test. -/
theorem runsFrom_some {i st : ℕ} {k y : List α} (hk : ∀ c ∈ k, p c = true)
    (hy : ∀ c ∈ y.head?, p c = false) :
    runsFrom p i (some st) (k ++ y) = (st, i + k.length) :: runs p (i + k.length) y := by
  induction k generalizing i with
  | nil =>
    cases y with
    | nil => rfl
    | cons c y => simp [runs, runsFrom, hy c rfl]
  | cons c k ih =>
    have hc : p c = true := hk c List.mem_cons_self
    rw [List.cons_append, runsFrom, if_pos hc, Option.getD_some,
      ih fun d hd => hk d (List.mem_cons_of_mem _ hd)]
    simp [Nat.add_assoc, Nat.add_comm 1]

/-- An element that fails the test starts no run. -/
theorem runs_cons {i : ℕ} {c : α} {y : List α} (hc : p c = false) :
    runs p i (c :: y) = runs p (i + 1) y := by
  simp [runs, runsFrom, hc]

/-- A nonempty block of passing elements that cannot be prolonged is one run. -/
theorem runs_append {i : ℕ} {k y : List α} (hne : k ≠ []) (hk : ∀ c ∈ k, p c = true)
    (hy : ∀ c ∈ y.head?, p c = false) :
    runs p i (k ++ y) = (i, i + k.length) :: runs p (i + k.length) y := by
  cases k with
  | nil => exact absurd rfl hne
  | cons c k =>
    have hc : p c = true := hk c List.mem_cons_self
    rw [List.cons_append, runs, runsFrom, if_pos hc,
      runsFrom_some (fun d hd => hk d (List.mem_cons_of_mem _ hd)) hy]
    simp [Nat.add_assoc, Nat.add_comm 1]

/-- Every nonempty text starts with an element that fails the test or with a
block that is one run. -/
theorem runs_cases (p : α → Bool) (s : List α) :
    s = [] ∨ (∃ c y, s = c :: y ∧ p c = false) ∨
      ∃ k y, s = k ++ y ∧ k ≠ [] ∧ (∀ c ∈ k, p c = true) ∧ ∀ c ∈ y.head?, p c = false := by
  cases s with
  | nil => exact .inl rfl
  | cons c s =>
    cases hc : p c with
    | false => exact .inr (.inl ⟨c, s, rfl, hc⟩)
    | true =>
      refine .inr (.inr ⟨(c :: s).takeWhile p, (c :: s).dropWhile p,
        List.takeWhile_append_dropWhile.symm, ?_, fun d hd => List.mem_takeWhile_imp hd, ?_⟩)
      · rw [List.takeWhile_cons_of_pos hc]
        exact List.cons_ne_nil _ _
      · intro d hd
        have hne : (c :: s).dropWhile p ≠ [] := by
          intro hnil
          rw [hnil] at hd
          cases hd
        rw [List.head?_eq_some_head hne] at hd
        rw [← Option.some.inj hd]
        exact List.head_dropWhile_not p hne

/-- Induction along the runs of a text: it is empty, or starts with an element
outside every run, or starts with a whole run. -/
theorem runs_induction {motive : ℕ → List α → Prop} (p : α → Bool)
    (nil : ∀ i, motive i [])
    (skip : ∀ i c y, p c = false → motive (i + 1) y → motive i (c :: y))
    (run : ∀ i k y, k ≠ [] → (∀ c ∈ k, p c = true) → (∀ c ∈ y.head?, p c = false) →
      motive (i + k.length) y → motive i (k ++ y)) (i : ℕ) (s : List α) : motive i s := by
  induction hn : s.length using Nat.strong_induction_on generalizing i s with
  | _ n ih =>
    rcases runs_cases p s with rfl | ⟨c, y, rfl, hc⟩ | ⟨k, y, rfl, hne, hk, hy⟩
    · exact nil i
    · exact skip i c y hc (ih y.length (by simp at hn; omega) _ _ rfl)
    · have hpos : 0 < k.length := List.length_pos_of_ne_nil hne
      exact run i k y hne hk hy (ih y.length (by simp at hn; omega) _ _ rfl)

/-- A text cut at an element outside every run has the runs of its two sides. -/
theorem runs_split {i : ℕ} {x y : List α} {c : α} (hc : p c = false) :
    runs p i (x ++ c :: y) = runs p i x ++ runs p (i + x.length + 1) y := by
  refine runs_induction (motive := fun i x =>
    runs p i (x ++ c :: y) = runs p i x ++ runs p (i + x.length + 1) y) p ?_ ?_ ?_ i x
  · intro i
    rw [List.nil_append, runs_cons hc]
    rfl
  · intro i d x hd ih
    rw [List.cons_append, runs_cons hd, runs_cons hd, ih, List.length_cons]
    congr 2
    omega
  · intro i k x hne hk hx ih
    have hhead : ∀ d ∈ (x ++ c :: y).head?, p d = false := by
      intro d hd
      cases x with
      | nil =>
        cases hd
        exact hc
      | cons a x => exact hx d hd
    rw [List.append_assoc, runs_append hne hk hhead, runs_append hne hk hx, ih,
      List.length_append, List.cons_append]
    congr 3
    omega

/-- What a run is: a nonempty block of passing elements with no passing element
on either side. -/
theorem mem_runs {i a b : ℕ} {s : List α} :
    (a, b) ∈ runs p i s ↔ ∃ x k y, s = x ++ k ++ y ∧ k ≠ [] ∧ (∀ c ∈ k, p c = true) ∧
      (∀ c ∈ x.getLast?, p c = false) ∧ (∀ c ∈ y.head?, p c = false) ∧
      a = i + x.length ∧ b = i + x.length + k.length := by
  constructor
  · refine runs_induction (motive := fun i s => (a, b) ∈ runs p i s → ∃ x k y, s = x ++ k ++ y ∧
      k ≠ [] ∧ (∀ c ∈ k, p c = true) ∧ (∀ c ∈ x.getLast?, p c = false) ∧
      (∀ c ∈ y.head?, p c = false) ∧ a = i + x.length ∧ b = i + x.length + k.length) p ?_ ?_ ?_ i s
    · intro i h
      cases h
    · intro i c s hc ih h
      rw [runs_cons hc] at h
      obtain ⟨x, k, y, rfl, hne, hk, hx, hy, ha, hb⟩ := ih h
      refine ⟨c :: x, k, y, rfl, hne, hk, ?_, hy, by simp; omega, by simp; omega⟩
      intro d hd
      cases x with
      | nil =>
        cases hd
        exact hc
      | cons e x => exact hx d (by simpa using hd)
    · intro i k s hne hk hs ih h
      rw [runs_append hne hk hs] at h
      rcases List.mem_cons.mp h with heq | h
      · cases heq
        exact ⟨[], k, s, rfl, hne, hk, (by simp), hs, rfl, by simp⟩
      · obtain ⟨x, k', y, rfl, hne', hk', hx, hy, ha, hb⟩ := ih h
        have hx' : x ≠ [] := by
          rintro rfl
          obtain ⟨d, k'', rfl⟩ := List.exists_cons_of_ne_nil hne'
          exact absurd (hk' d List.mem_cons_self) (by simp [hs d rfl])
        refine ⟨k ++ x, k', y, by simp, hne', hk', ?_, hy, by simp; omega, by simp; omega⟩
        intro d hd
        rw [List.getLast?_append_of_ne_nil _ hx'] at hd
        exact hx d hd
  · rintro ⟨x, k, y, rfl, hne, hk, hx, hy, rfl, rfl⟩
    -- a nonempty left side ends in a failing element, where the text is cut
    rcases List.eq_nil_or_concat x with rfl | ⟨x, c, rfl⟩
    · rw [List.nil_append, runs_append hne hk hy]
      exact List.mem_cons_self
    · have hc : p c = false := hx c (by simp)
      rw [List.concat_eq_append, List.append_assoc, List.append_assoc, List.singleton_append, runs_split hc,
        runs_append hne hk hy, List.length_append, List.length_singleton, ← Nat.add_assoc]
      exact List.mem_append_right _ List.mem_cons_self

/-- The runs come from left to right, with a gap between any two. -/
theorem runs_pairwise {i : ℕ} {s : List α} :
    (∀ r ∈ runs p i s, i ≤ r.1) ∧ (runs p i s).Pairwise fun a b => a.2 < b.1 := by
  refine runs_induction (motive := fun i s => (∀ r ∈ runs p i s, i ≤ r.1) ∧
    (runs p i s).Pairwise fun a b => a.2 < b.1) p ?_ ?_ ?_ i s
  · intro i
    exact ⟨fun r hr => absurd hr List.not_mem_nil, List.Pairwise.nil⟩
  · intro i c y hc ih
    rw [runs_cons hc]
    exact ⟨fun r hr => Nat.le_of_succ_le (ih.1 r hr), ih.2⟩
  · intro i k y hne hk hy ih
    rw [runs_append hne hk hy]
    refine ⟨?_, List.pairwise_cons.mpr ⟨?_, ih.2⟩⟩
    · intro r hr
      rcases List.mem_cons.mp hr with rfl | hr
      · exact Nat.le_refl _
      · exact Nat.le_trans (Nat.le_add_right ..) (ih.1 r hr)
    · intro r hr
      -- the element after the block fails the test, so the next run starts later
      cases y with
      | nil => cases hr
      | cons c y =>
        rw [runs_cons (hy c rfl)] at hr
        obtain ⟨x, k', z, -, -, -, -, -, ha, -⟩ := mem_runs.mp (show (r.1, r.2) ∈ _ from hr)
        show i + k.length < r.1
        omega

end HstongApi
