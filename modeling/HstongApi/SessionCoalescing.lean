import HstongApi.SessionService

/-!
# Concurrent logins of the session service

Two things that the login gate is for, in every run.

* For each account at most one login request is in flight, since the leader of an attempt
  holds the gate of the account until it has published the outcome (`gateTokens`).
* A caller that has joined an attempt returns what its leader returns: the outcome of an
  attempt is written once, by its leader (`attemptsOutline`), and the leader of each attempt
  has returned or will (`leaderDebts`).
-/

namespace HstongApi.SessionService

open Threads
open Auth (AccountID Session)
open Function (update_self update_of_ne update)

/-! ## Who holds the gate -/

/-- The account and the attempt that a thread leads, before a section. -/
def Section.led : Section → Option (AccountID × ℕ)
  | .begin _ => none
  | .publish account n _ => some (account, n)
  | .auth n c => some (c.account, n)

/-- And outside the sections. -/
def Work.led : Work → Option (AccountID × ℕ)
  | .lead account n | .discard account n _ => some (account, n)
  | .auth n k => some (k.account, n)
  | _ => none

/-- The account and the attempt that a thread leads. -/
def led : Exit Section Work → Option (AccountID × ℕ)
  | .ret => none
  | .enter c => c.led
  | .go k => k.led

theorem led_proceed {account : AccountID} {n : ℕ} {next : Auth.Next} (h : next.On account) :
    led (proceed account n next) = some (account, n) := by
  cases next with
  | done role result => cases result <;> rfl
  | _ => exact congrArg (fun a => some (a, n)) h

variable {s : Shared} {k : Work} {r : Reply} {out : Shared × Exit Section Work}

/-- The actions without a lock leave the gate alone. -/
structure GateFrame (s s' : Shared) : Prop where
  pending : s'.pending = s.pending
  attempts : s'.attempts = s.attempts
  begun : s'.begun = s.begun

theorem Acts.gate (h : Acts s k r out) : GateFrame s out.1 := by
  cases h with
  | auth => exact ⟨acknowledge_pending .., acknowledge_attempts .., acknowledge_begun ..⟩
  | _ => exact ⟨rfl, rfl, rfl⟩

/-- And a thread leads the attempt that it led. -/
theorem Acts.led_eq (h : Acts s k r out) : SessionService.led out.2 = k.led := by
  cases h with
  | auth hauth => exact led_proceed hauth.on
  | _ => rfl

/-- And forgets no return. -/
theorem Acts.mem_returns (h : Acts s k r out) : ∀ r' ∈ s.returns, r' ∈ out.1.returns := by
  intro r' hr'
  cases h with
  | refused | held | cancelled | joined => exact List.mem_cons_of_mem _ hr'
  | auth =>
    rw [acknowledge_returns]
    exact hr'
  | _ => exact hr'

/-- What a section does to the gate and to the lead of its thread. -/
theorem body_led (s : Shared) (c : Section) {account : AccountID} {n : ℕ}
    (h : led (body s c).2 = some (account, n)) :
    (s.pending account = none ∧ (body s c).1.pending account = some n) ∨
      (c.led = some (account, n) ∧ (body s c).1.pending = s.pending) := by
  cases c with
  | begin a =>
    simp only [body] at h ⊢
    split at h <;> cases h
    rename_i hfree
    rw [hfree]
    exact .inl ⟨rfl, update_self ..⟩
  | publish a m result => cases h
  | auth m c =>
    have hlead := led_proceed (n := m) (Auth.body_on s.auth c)
    exact .inr ⟨hlead.symm.trans h, rfl⟩

/-- The gate of an account has one holder. -/
theorem gateTokens [UnicodeTables] : Tokens (τ := ℕ) program (fun _ _ => True)
    (fun s account => s.pending account = none)
    (fun x account => ∃ n, led x = some (account, n)) where
  start {s t a x i} _ hx := by
    rintro ⟨n, hn⟩
    cases a <;> cases hx <;> cases hn
  body_take {s t r c i} hs _ ht hp := by
    obtain ⟨n, hn⟩ := hp
    rcases body_led s.shared c hn with ⟨hfree, htaken⟩ | ⟨hled, hpending⟩
    · exact ⟨fun hnone => (nomatch hnone.symm.trans htaken), .inr hfree⟩
    · refine ⟨fun hnone => ?_, .inl ⟨n, hled⟩⟩
      exact hs.not_free i ht ⟨n, hled⟩ ((congrFun hpending i).symm.trans hnone)
  body_give {s t r c i} _ _ hfree := by
    cases c with
    | begin a =>
      refine .inl ?_
      simp only [program, body] at hfree
      split at hfree
      · exact hfree
      · by_cases ha : i = a
        · rw [ha]
          assumption
        · simp only [update_of_ne ha] at hfree
          exact hfree
    | publish a m result =>
      by_cases ha : i = a
      · exact .inr ⟨m, by rw [ha]; rfl⟩
      · simp only [program, body, Shared.return, update_of_ne ha] at hfree
        exact .inl hfree
    | auth m c => exact .inl hfree
  work_take {s t r k shared x i} hs _ ht hk hp := by
    have hacts := work_acts hk
    obtain ⟨n, hn⟩ := hp
    have hled : k.led = some (i, n) := hacts.led_eq.symm.trans hn
    refine ⟨fun hfree => ?_, .inl ⟨n, hled⟩⟩
    exact hs.not_free i ht ⟨n, hled⟩ ((congrFun hacts.gate.pending i).symm.trans hfree)
  work_give {s t r k shared x i} _ _ hk hfree := by
    have hacts := work_acts hk
    exact .inl ((congrFun hacts.gate.pending i).symm.trans hfree)

/-! ## One request for an account -/

/-- The login request of the thread is in flight for the account. -/
def inFlight (account : AccountID) : Point Section Work → Prop
  | .work (.auth _ (.request a _)) => a = account
  | _ => False

theorem led_of_inFlight {account : AccountID} {p : Point Section Work} (h : inFlight account p) :
    ∃ n, led p.next = some (account, n) := by
  unfold inFlight at h
  split at h
  · rename_i n a flight
    exact ⟨n, by rw [← h]; rfl⟩
  · exact h.elim

/-- **For each account at most one login request is in flight.** -/
def SingleFlight (s : System) : Prop :=
  ∀ account t t', inFlight account (s.point t) → inFlight account (s.point t') → t = t'

/-- The gates of the accounts have one holder each. -/
abbrev GateHeld (s : System) : Prop :=
  Held (fun s account => s.pending account = none)
    (fun x account => ∃ n, led x = some (account, n)) s

theorem singleFlight_of_gateHeld {s : System} (h : GateHeld s) : SingleFlight s :=
  fun account t t' ht ht' => (h account).2 t t' (led_of_inFlight ht) (led_of_inFlight ht')

/-- What a thread leads another does not lead. -/
theorem GateHeld.ne {s : System} (h : GateHeld s) {t t' : ℕ} (hne : t' ≠ t)
    {account other : AccountID} {n m : ℕ} (ht : led (s.point t).next = some (other, n))
    (ht' : led (s.point t').next = some (account, m)) : account ≠ other := by
  rintro rfl
  exact hne ((h account).2 t' t ⟨m, ht'⟩ ⟨n, ht⟩)

/-! ## Joiners return what their leader returns -/

/-- **A caller that has joined an attempt returns what its leader returns.** The leader of
the attempt has returned the same, or has yet to return. -/
structure Coalesced (s : System) : Prop where
  same : ∀ r ∈ s.shared.returns, ∀ r' ∈ s.shared.returns, ∀ n,
    r.role = .led n → r'.role = .joined n → r'.result = r.result
  leader : ∀ r' ∈ s.shared.returns, ∀ n, r'.role = .joined n →
    (∃ r ∈ s.shared.returns, r.role = .led n) ∨ ∃ t account, led (s.point t).next = some (account, n)

/-- The return is of an attempt. -/
def Role.of (n : ℕ) (role : Role) : Prop := role = .led n ∨ role = .joined n

/-- The bookkeeping of the attempts. -/
structure Attempts (s : Shared) : Prop where
  begun : ∀ {account n}, s.pending account = some n → n < s.begun
  inj : ∀ {account account' n}, s.pending account = some n → s.pending account' = some n →
    account = account'
  open_ : ∀ {account n}, s.pending account = some n → s.attempts n = none
  fresh : ∀ {n}, s.begun ≤ n → s.attempts n = none
  returned : ∀ r ∈ s.returns, ∀ n, r.role.of n →
    ∃ result, s.attempts n = some result ∧ r.result = loginResult result

/-- A leader has its attempt at the gate. -/
def Leads (s : Shared) (x : Exit Section Work) : Prop :=
  ∀ account n, led x = some (account, n) → s.pending account = some n

section

variable {s : Shared} {account : AccountID} {n : ℕ}

theorem Attempts.begin (h : Attempts s) (hfree : s.pending account = none) :
    Attempts { s with
      pending := update s.pending account (some s.begun), begun := s.begun + 1 } := by
  have hpending : ∀ {a m}, update s.pending account (some s.begun) a = some m →
      (a = account ∧ m = s.begun) ∨ s.pending a = some m := by
    intro a m hm
    by_cases ha : a = account
    · rw [ha, update_self] at hm
      exact .inl ⟨ha, (Option.some.inj hm).symm⟩
    · rw [update_of_ne ha] at hm
      exact .inr hm
  constructor
  case begun =>
    intro a m hm
    rcases hpending hm with ⟨-, rfl⟩ | hold
    · exact Nat.lt_succ_self _
    · exact Nat.lt_succ_of_lt (h.begun hold)
  case inj =>
    intro a a' m hm hm'
    rcases hpending hm with ⟨rfl, rfl⟩ | hold <;> rcases hpending hm' with ⟨rfl, hnew⟩ | hold'
    · rfl
    · exact absurd (h.begun hold') (Nat.lt_irrefl _)
    · exact absurd (hnew ▸ h.begun hold) (Nat.lt_irrefl _)
    · exact h.inj hold hold'
  case open_ =>
    intro a m hm
    rcases hpending hm with ⟨-, rfl⟩ | hold
    · exact h.fresh (Nat.le_refl _)
    · exact h.open_ hold
  case fresh => exact fun hm => h.fresh (Nat.le_of_succ_le hm)
  case returned => exact h.returned

/-- The leader writes the outcome of its attempt, which had none, and returns. -/
theorem Attempts.publish (h : Attempts s) (hn : s.pending account = some n) (result : Auth.Result) :
    Attempts (body s (.publish account n result)).1 := by
  have hpending : ∀ {a m}, update s.pending account none a = some m →
      s.pending a = some m ∧ m ≠ n := by
    intro a m hm
    by_cases ha : a = account
    · rw [ha, update_self] at hm
      cases hm
    · rw [update_of_ne ha] at hm
      refine ⟨hm, ?_⟩
      rintro rfl
      exact ha (h.inj hm hn)
  constructor
  case begun => exact fun hm => h.begun (hpending hm).1
  case inj => exact fun hm hm' => h.inj (hpending hm).1 (hpending hm').1
  case open_ =>
    intro a m hm
    obtain ⟨hold, hne⟩ := hpending hm
    exact (update_of_ne hne ..).trans (h.open_ hold)
  case fresh =>
    intro m hm
    have hne : m ≠ n := Nat.ne_of_gt (Nat.lt_of_lt_of_le (h.begun hn) hm)
    exact (update_of_ne hne ..).trans (h.fresh hm)
  case returned =>
    intro r hr m hm
    rcases List.mem_cons.mp hr with rfl | hold
    · obtain rfl : m = n := by
        rcases hm with hm | hm <;> cases hm
        rfl
      exact ⟨result, update_self .., rfl⟩
    · obtain ⟨outcome, hout, hres⟩ := h.returned r hold m hm
      have hne : m ≠ n := by
        rintro rfl
        cases (h.open_ hn).symm.trans hout
      exact ⟨outcome, (update_of_ne hne ..).trans hout, hres⟩

/-- What leaves the gate alone keeps the bookkeeping, and a call may return the outcome of
an attempt. -/
theorem Attempts.frame (h : Attempts s) {s' : Shared} (hgate : GateFrame s s')
    (hreturns : ∀ r ∈ s'.returns, r ∈ s.returns ∨ ∀ n, r.role.of n →
      ∃ result, s.attempts n = some result ∧ r.result = loginResult result) : Attempts s' := by
  obtain ⟨hpending, hattempts, hbegun⟩ := hgate
  constructor
  case begun =>
    intro a m hm
    rw [hbegun]
    exact h.begun (hpending ▸ hm)
  case inj => exact fun hm hm' => h.inj (hpending ▸ hm) (hpending ▸ hm')
  case open_ =>
    intro a m hm
    rw [hattempts]
    exact h.open_ (hpending ▸ hm)
  case fresh =>
    intro m hm
    rw [hattempts]
    exact h.fresh (hbegun ▸ hm)
  case returned =>
    intro r hr m hm
    rw [hattempts]
    rcases hreturns r hr with hold | hnew
    · exact h.returned r hold m hm
    · exact hnew m hm

end

/-- The calls that return at an action without a lock. -/
theorem Acts.returns (h : Acts s k r out) : ∀ r' ∈ out.1.returns, r' ∈ s.returns ∨
    ∀ n, r'.role.of n → ∃ result, s.attempts n = some result ∧ r'.result = loginResult result := by
  have halone : ∀ account result, ∀ r' ∈ (s.return account .alone result).returns,
      r' ∈ s.returns ∨ ∀ n, r'.role.of n →
        ∃ outcome, s.attempts n = some outcome ∧ r'.result = loginResult outcome := by
    intro account result r' hr'
    rcases List.mem_cons.mp hr' with rfl | hold
    · refine .inr fun n hn => ?_
      rcases hn with hn | hn <;> cases hn
    · exact .inl hold
  cases h with
  | refused | held | cancelled => exact halone _ _
  | @joined account n _ result hresult =>
    intro r' hr'
    rcases List.mem_cons.mp hr' with rfl | hold
    · refine .inr fun m hm => ?_
      rcases hm with hm | hm <;> cases hm
      exact ⟨result, hresult, rfl⟩
    · exact .inl hold
  | auth =>
    intro r' hr'
    rw [acknowledge_returns] at hr'
    exact .inl hr'
  | _ => exact fun _ => .inl

/-- What the threads know about the attempts. -/
theorem attemptsOutline [UnicodeTables] :
    NextOutline (τ := ℕ) program (fun s _ => GateHeld s) Attempts Leads := by
  refine .of_acts (fun {s t a x} _ _ hx account n hn => ?_) (fun {s t r c} hs hheld ht hleads => ?_)
    fun {s t r k shared x} hs _ ht hk hleads => ?_
  · cases a <;> cases hx <;> cases hn
  · have hnext : ∀ account n, led (body s.shared c).2 = some (account, n) →
        (body s.shared c).1.pending account = some n := by
      intro account n hn
      rcases body_led s.shared c hn with ⟨-, htaken⟩ | ⟨hled, hpending⟩
      · exact htaken
      · exact (congrFun hpending account).trans (hleads account n hled)
    cases c with
    | begin a =>
      refine ⟨?_, hnext, fun t' _ hother account n hn => ?_⟩ <;> simp only [program, body] <;> split
      · exact hs.inv.frame ⟨rfl, rfl, rfl⟩ fun _ => .inl
      · exact hs.inv.begin ‹_›
      · exact hother account n hn
      · rename_i hfree
        have hne : account ≠ a := by
          rintro rfl
          cases hfree.symm.trans (hother account n hn)
        exact (update_of_ne hne ..).trans (hother account n hn)
    | publish a m result =>
      refine ⟨hs.inv.publish (hleads a m rfl) result, hnext, fun t' hne hother account n hn => ?_⟩
      have hled : led (s.point t).next = some (a, m) := by
        rw [ht]
        rfl
      exact (update_of_ne (hheld.ne hne hled hn) ..).trans (hother account n hn)
    | auth n c => exact ⟨hs.inv.frame ⟨rfl, rfl, rfl⟩ fun _ => .inl, hnext, fun _ _ => id⟩
  · have hacts := work_acts hk
    refine ⟨hs.inv.frame hacts.gate hacts.returns, fun account n hn => ?_, fun t' _ hother => ?_⟩
    · rw [hacts.gate.pending]
      exact hleads account n (hacts.led_eq.symm.trans hn)
    · rw [Leads, hacts.gate.pending]
      exact hother

/-- Each attempt has a leader that has returned or will. -/
theorem leaderDebts [UnicodeTables] : Debts (τ := ℕ) program (fun _ _ => True)
    (fun s n => s.begun ≤ n ∨ ∃ r ∈ s.returns, r.role = .led n)
    (fun x n => ∃ account, led x = some (account, n)) where
  ret n := by
    rintro ⟨account, h⟩
    cases h
  body {s t r c n} _ ht h := by
    cases c with
    | begin a =>
      simp only [program, body]
      rcases h with hdone | ⟨account, howes⟩
      · split
        · exact .inl hdone
        · rcases hdone with hle | hreturned
          · rcases Nat.eq_or_lt_of_le hle with heq | hlt
            · exact .inr ⟨a, by rw [← heq]; rfl⟩
            · exact .inl (.inl hlt)
          · exact .inl (.inr hreturned)
      · cases howes
    | publish a m result =>
      refine .inl ?_
      rcases h with (hle | ⟨r', hr', hrole⟩) | ⟨account, howes⟩
      · exact .inl hle
      · exact .inr ⟨r', List.mem_cons_of_mem _ hr', hrole⟩
      · cases howes
        exact .inr ⟨_, List.mem_cons_self, rfl⟩
    | auth m c =>
      refine h.imp_right ?_
      rintro ⟨account, howes⟩
      exact ⟨account, (led_proceed (Auth.body_on s.shared.auth c)).trans howes⟩
  work {s t r k shared x n} _ ht hk h := by
    have hacts := work_acts hk
    rw [hacts.gate.begun, hacts.led_eq]
    refine h.imp_left fun hdone => hdone.imp_right ?_
    rintro ⟨r', hr', hrole⟩
    exact ⟨r', hacts.mem_returns r' hr', hrole⟩

theorem coalesced_of_attempts {s : System} (h : Attempts s.shared)
    (hleaders : Accounted (fun s n => s.begun ≤ n ∨ ∃ r ∈ s.returns, r.role = .led n)
      (fun x n => ∃ account, led x = some (account, n)) s) : Coalesced s := by
  refine ⟨fun r hr r' hr' n hled hjoined => ?_, fun r' hr' n hjoined => ?_⟩
  · obtain ⟨result, hresult, hr⟩ := h.returned r hr n (.inl hled)
    obtain ⟨result', hresult', hr'⟩ := h.returned r' hr' n (.inr hjoined)
    obtain rfl : result = result' := Option.some.inj (hresult.symm.trans hresult')
    exact hr'.trans hr.symm
  · obtain ⟨result, hresult, -⟩ := h.returned r' hr' n (.inr hjoined)
    rcases hleaders n with (hle | hreturned) | hleading
    · cases (h.fresh hle).symm.trans hresult
    · exact .inl hreturned
    · exact .inr hleading

end HstongApi.SessionService
