import HstongApi.PushThreads

/-!
# The two locks do not exclude each other

The comment at `subMu` says that it is never held while `mu` is not. The code does not
nest the two: everything that changes the registry takes `subMu` alone and a dispatch
takes `mu` alone. Sections under one lock exclude each other; a dispatch excludes none of
the sections that modify what it reads.

`race_free_iff` gives the exact condition under which no two threads are ever in
sections of which one reads and the other modifies the same part of the registry. It
speaks of the holder of the other lock only, at the moment a lock is taken: this is the
one way for two such sections to meet.
-/

namespace HstongApi.PushThreads

open Threads

/-- The first section reads what the second one modifies. -/
def Section.Clash (c c' : Section) : Prop := ∃ x, c.reads x = true ∧ c'.modifies x = true

/-- One thread is in a section that reads a part of the registry while another is in a
section that modifies it. -/
def Race (s : System) : Prop :=
  ∃ t t' c c', t ≠ t' ∧ (s.point t).region = some c ∧ (s.point t').region = some c' ∧ c.Clash c'

/-- The lock that a section does not take. -/
def Mutex.other : Mutex → Mutex
  | .subMu => .mu
  | .mu => .subMu

/-- A lock is taken only while the holder of the other lock, if there is one, is in no
section that clashes with the one to be entered. -/
def Apart (s : System) : Action → Prop
  | .run t _ => ∀ c, s.point t = .wait c → ∀ t', s.holder c.mutex.other = some t' →
      ∀ c', (s.point t').region = some c' → ¬ c.Clash c' ∧ ¬ c'.Clash c
  | .call _ _ => True

/-- The actions of one critical section touch the same parts. -/
theorem Section.Next.access {c c' : Section} (h : c.Next c') :
    c'.reads = c.reads ∧ c'.modifies = c.modifies := by
  cases h <;> refine ⟨funext fun x => ?_, funext fun x => ?_⟩ <;> cases x <;> rfl

/-- The regions after thread `t` has moved. -/
theorem region_move {s : System} {t t' : ℕ} {p : Point Section Work} {c : Section}
    (h : ((s.move t p).point t').region = some c) :
    t' = t ∧ p.region = some c ∨ t' ≠ t ∧ (s.point t').region = some c := by
  by_cases ht : t' = t
  · rw [ht, State.move_point_self] at h
    exact .inl ⟨ht, h⟩
  · rw [State.move_point_of_ne _ ht] at h
    exact .inr ⟨ht, h⟩

/-- No race begins as long as threads only leave sections, or go on in them. -/
theorem not_race_move {s : System} (h : ¬ Race s) {t : ℕ} {p : Point Section Work}
    (hp : ∀ c, p.region = some c → ∃ c₀, (s.point t).region = some c₀ ∧ c.reads = c₀.reads ∧
      c.modifies = c₀.modifies) : ¬ Race (s.move t p) := by
  have hback : ∀ {t' c}, ((s.move t p).point t').region = some c → ∃ c₀,
      (s.point t').region = some c₀ ∧ c.reads = c₀.reads ∧ c.modifies = c₀.modifies := by
    intro t' c hc
    rcases region_move hc with ⟨rfl, hself⟩ | ⟨-, hother⟩
    · exact hp c hself
    · exact ⟨c, hother, rfl, rfl⟩
  rintro ⟨t₁, t₂, c₁, c₂, hne, h₁, h₂, x, hreads, hmodifies⟩
  obtain ⟨c₁', h₁', hreads', -⟩ := hback h₁
  obtain ⟨c₂', h₂', -, hmodifies'⟩ := hback h₂
  exact h ⟨t₁, t₂, c₁', c₂', hne, h₁', h₂', x, hreads' ▸ hreads, hmodifies' ▸ hmodifies⟩

theorem Mutex.eq_other_of_ne {m m' : Mutex} (h : m' ≠ m) : m' = m.other := by
  cases m <;> cases m' <;> first | exact absurd rfl h | rfl

section

variable [UnicodeTables]

/-- Taking a lock begins no race, if the sections are apart. -/
theorem not_race_lock {s : System} (hlocked : Locked program s) (h : ¬ Race s) {t : ℕ} {r : Reply}
    {c : Section} (ht : s.point t = .wait c) (hfree : s.holder c.mutex = none)
    (hapart : Apart s (.run t r)) : ¬ Race ((s.hand c.mutex (some t)).move t (.inside c)) := by
  -- a section of another thread is under the other lock, since this one is free
  have hclash : ∀ {t' c'}, (s.point t').region = some c' → ¬ c.Clash c' ∧ ¬ c'.Clash c := by
    intro t' c' hc'
    have hholder : s.holder c'.mutex = some t' :=
      (hlocked _ t').mpr (by rw [Program.holds, hc']; rfl)
    have hother : c'.mutex ≠ c.mutex := by
      intro heq
      rw [heq, hfree] at hholder
      cases hholder
    exact hapart c ht t' (Mutex.eq_other_of_ne hother ▸ hholder) c' hc'
  rintro ⟨t₁, t₂, c₁, c₂, hne, h₁, h₂, hc⟩
  rcases region_move h₁ with ⟨ht₁, hself₁⟩ | ⟨-, hother₁⟩ <;>
    rcases region_move h₂ with ⟨ht₂, hself₂⟩ | ⟨-, hother₂⟩
  · exact hne (ht₁.trans ht₂.symm)
  · cases hself₁
    exact (hclash hother₂).1 hc
  · cases hself₂
    exact (hclash hother₁).2 hc
  · exact h ⟨t₁, t₂, c₁, c₂, hne, hother₁, hother₂, hc⟩

/-- One step that takes its lock apart from others keeps the system free of races. -/
theorem not_race_step {s s' : System} (hlocked : Locked program s) (h : ¬ Race s) {a : Action}
    (hapart : Apart s a) (hstep : step s a = some s') : ¬ Race s' := by
  have hnone : ∀ (x : Exit Section Work) (t : ℕ) (c : Section), x.point.region = some c →
      ∃ c₀, (s.point t).region = some c₀ ∧ c.reads = c₀.reads ∧ c.modifies = c₀.modifies := by
    intro x t c hc
    rw [Exit.region_point] at hc
    cases hc
  cases Program.step_cases hstep with
  | @call t a x ht hx => exact not_race_move h (hnone x t)
  | lock ht hfree => exact not_race_lock hlocked h ht hfree hapart
  | @body t r c ht =>
    refine not_race_move (s := s.write _) h fun c' hc' => ?_
    have hregion : ((s.write (body c r s.shared).1).point t).region = some c := by
      rw [State.write, ht]
      rfl
    refine ⟨c, hregion, ?_⟩
    have hturn : ((body c r s.shared).2.point c).region = some c' := hc'
    -- a longer section reads and modifies the same throughout
    cases hstay : (body c r s.shared).2 with
    | stay c'' =>
      rw [hstay] at hturn
      exact Option.some.inj hturn ▸ (body_stay hstay).access
    | leave x =>
      rw [hstay] at hturn
      exact Option.some.inj hturn ▸ ⟨rfl, rfl⟩
  | @unlock t r c x ht => exact not_race_move (s := s.hand _ _) h (hnone x t)
  | @work t r k shared x ht hk => exact not_race_move (s := s.write _) h (hnone x t)

/-- A step that takes its lock beside a clashing section begins a race. -/
theorem apart_of_not_race {s s' : System} {a : Action} (hstep : step s a = some s')
    (h : ¬ Race s') : Apart s a := by
  cases a with
  | call t a => trivial
  | run t r =>
    intro c ht t' ht' c' hc'
    have hne : t' ≠ t := by
      rintro rfl
      rw [ht] at hc'
      cases hc'
    cases Program.step_cases hstep with
    | @lock _ _ c₀ ht₀ hfree =>
      obtain rfl : c₀ = c := Point.wait.inj (ht₀.symm.trans ht)
      have hself : (((s.hand c₀.mutex (some t)).move t (.inside c₀)).point t).region = some c₀ := by
        rw [State.move_point_self]
        rfl
      have hother : (((s.hand c₀.mutex (some t)).move t (.inside c₀)).point t').region =
          some c' := by
        rw [State.move_point_of_ne _ hne]
        exact hc'
      exact ⟨fun hc => h ⟨t, t', c₀, c', hne.symm, hself, hother, hc⟩,
        fun hc => h ⟨t', t, c', c₀, hne, hother, hself, hc⟩⟩
    | body ht₀ | unlock ht₀ | work ht₀ _ =>
      rw [ht] at ht₀
      cases ht₀

/-- **Races, exactly.** No state of a run has a race exactly when each lock is taken
apart from a clashing section under the other lock. -/
theorem race_free_iff (market trade transport : Bool) (n : ℤ) (run : List Action) :
    Always step (fun s => ¬ Race s) (init market trade transport n) run ↔
      EachStep step Apart (init market trade transport n) run := by
  refine always_iff_eachStep (fun s (h : Locked program s ∧ ¬ Race s) => h.2)
    (fun s a s' h hapart hstep => ⟨h.1.step hstep, not_race_step h.1 h.2 hapart hstep⟩)
    (fun s a s' _ hstep h => apart_of_not_race hstep h) ⟨locked_init _, ?_⟩ run
  rintro ⟨t, t', c, c', -, hc, -⟩
  cases hc

end

/-- A quote that a dispatch routes. -/
def quote : PushUpdate :=
  ⟨basicQotNotifyMsgType, bytes "00700.HK", 0, some (.quote (bytes "00700.HK") [])⟩

/-- A dispatch that has taken `mu` next to a `Subscribe` that is about to register. -/
def dispatchBesideSubscribe : List Action :=
  [.call 0 (.subscribe topicBasicQot [some ⟨10000, bytes "00700.HK"⟩]), .call 1 (.dispatch quote 1),
    .run 0 none, .run 0 none, .run 0 none, .run 0 none, .run 1 none, .run 1 none]

/-- The dispatch reads the routing index while the `Subscribe` modifies it. -/
theorem dispatch_races_subscribe : ∃ s,
    exec (@step asciiTables) (init true true true 0) dispatchBesideSubscribe = some s ∧
      s.point 0 = .inside (.register ⟨topicBasicQot, basicQotNotifyMsgType,
        [⟨10000, bytes "00700.HK"⟩]⟩ none) ∧
      s.point 1 = .inside (.dispatchMarket quote 1) ∧ Race s := by
  obtain ⟨s, hs, h₀, h₁⟩ : ∃ s,
      exec (@step asciiTables) (init true true true 0) dispatchBesideSubscribe = some s ∧
      s.point 0 = .inside (.register ⟨topicBasicQot, basicQotNotifyMsgType,
        [⟨10000, bytes "00700.HK"⟩]⟩ none) ∧
      s.point 1 = .inside (.dispatchMarket quote 1) := exec_exists (by decide +kernel)
  exact ⟨s, hs, h₀, h₁, 1, 0, _, _, Nat.one_ne_zero, by rw [h₁]; rfl, by rw [h₀]; rfl, .byKey,
    rfl, rfl⟩

end HstongApi.PushThreads
