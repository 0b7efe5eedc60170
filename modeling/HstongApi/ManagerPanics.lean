import HstongApi.SessionLogins
import HstongApi.Settling

/-!
# The session manager when a request panics

`finishLogin` makes the request of a login and then publishes its outcome; nothing is deferred. When
the request panics the machine stays at `LoggingIn`, the calls that wait for the login are not woken,
and every later call waits as well (`panic_strands_waiter`).

A request of `Logout` may panic. As long as no request of a login does, a machine at `LoggingIn` has a
thread that will publish (`loginDebts`), a call sleeps only while the machine is there
(`sleepOutline`), and so all calls return in every schedule and the next login can begin
(`always_released`).
-/

namespace HstongApi.SessionManager

open Threads

/-! ## Panics -/

/-- The requests are the calls out of the manager. -/
def unwinding : Unwinding Shared Work Unit where
  calls := fun k =>
    match k with
    | .loginReply _ _ | .logoutRequest => true
    | _ => false
  mutex := fun _ => none
  deferred := fun _ s => s

/-- One step of the system with panics. -/
def stepPanic : System → Happening Answer Call ℕ → Option System := unwinding.step program

/-- The request of the thread is not the one of a login. -/
def LoginSpared (s : System) (t : ℕ) : Prop := inFlight (s.point t) = false

instance (s : System) : DecidablePred (LoginSpared s) := fun t =>
  inferInstanceAs (Decidable (inFlight (s.point t) = false))

/-- A call of `Login` begins a login. -/
def LoginBegins (s : System) : Prop :=
  ∀ t r, ∃ s', exec step s (.call t .login :: List.replicate 3 (.run t r)) = some s' ∧
    ∃ began login, s'.point t = .work (.doLogin began login)

/-- **All calls return and the next login can begin**, in every schedule. -/
def Released : System → Prop :=
  Inevitable stepPanic (fun t r => .event (.run t r)) (Later LoginSpared)
    fun s => s.Quiescent ∧ LoginBegins s

/-! ## What the actions do -/

/-- Only a `Logout` returns at an action outside the sections. -/
theorem work_ret {k : Work} {r : Answer} {s shared : Shared} (h : work k r s = some (shared, .ret)) :
    k = .logout ∨ k = .logoutRequest := by
  cases k with
  | logout => exact .inl rfl
  | logoutRequest => exact .inr rfl
  | doLogin b n =>
    simp only [work] at h
    split at h
    · cases h
    · cases r <;> cases h
  | loginReply b n => cases r <;> cases h
  | parked ticket c => cases (Option.ite_none_right_eq_some.mp h).2

/-- Only a call that sleeps is blocked. -/
theorem work_blocked {k : Work} {r : Answer} {s : Shared} (h : work k r s = none) :
    ∃ ticket c, k = .parked ticket c ∧ s.broadcasts ≤ ticket := by
  cases k with
  | logout => cases h
  | logoutRequest | loginReply b n => cases r <;> cases h
  | doLogin b n =>
    simp only [work] at h
    split at h
    · cases h
    · cases r <;> cases h
  | parked ticket c =>
    refine ⟨ticket, c, rfl, ?_⟩
    by_contra hwoken
    simp only [work, if_pos (not_le.mp hwoken)] at h
    cases h

/-! ## Who publishes -/

/-- While the machine is at `LoggingIn`, a thread has begun a login and will publish. -/
theorem loginDebts : Debts (τ := ℕ) program (fun _ _ => True)
    (fun s (_ : Unit) => s.state ≠ .loggingIn) (fun x _ => attempting x) where
  ret _ := id
  body {s t r c i} _ _ h := by
    have hdoes := body_does c r s.shared
    simp only [program]
    generalize body c r s.shared = out at hdoes ⊢
    cases hdoes with
    | loginWaits hstate | ensureWaits hstate | waitsAgain hstate | reLoginWaits hstate =>
      exact absurd hstate (h.resolve_right id)
    | ensured hstate | waited hstate | ends hstate => exact .inl hstate
    | logsIn | ensures => exact .inr trivial
    | resets => exact .inl (by rintro ⟨⟩)
  work {s t r k shared x i} _ _ hk h := by
    obtain ⟨rfl, hfollows⟩ := work_follows hk
    refine h.imp_right fun howes => ?_
    cases hfollows with
    | ret =>
      rcases work_ret hk with rfl | rfl
      · exact howes
      · exact howes
    | logoutRequest | logoutEnd | woken => exact howes
    | _ => trivial

/-- What a call that sleeps knows: it has been woken, or the machine is at `LoggingIn`. -/
def Sleeps (s : Shared) : Exit Section Work → Prop
  | .go (.parked ticket c) =>
    ¬c.attempting ∧ ticket ≤ s.broadcasts ∧ (ticket = s.broadcasts → s.state = .loggingIn)
  | _ => True

theorem Sleeps.mono {s s' : Shared} {x : Exit Section Work} (h : Sleeps s x)
    (hwoken : s'.broadcasts = s.broadcasts + 1 ∨
      s'.broadcasts = s.broadcasts ∧ (s.state = .loggingIn → s'.state = .loggingIn)) :
    Sleeps s' x := by
  unfold Sleeps at h ⊢
  split at h
  · obtain ⟨hc, hle, hstate⟩ := h
    rcases hwoken with hwoken | ⟨hsame, hkept⟩
    · exact ⟨hc, by omega, fun heq => by omega⟩
    · rw [hsame]
      exact ⟨hc, hle, fun heq => hkept (hstate heq)⟩
  all_goals trivial

theorem Does.wakes {s : Shared} {c : Section} {out : Shared × Turn Section Work} (h : Does s c out) :
    out.1.broadcasts = s.broadcasts + 1 ∨
      out.1.broadcasts = s.broadcasts ∧ (s.state = .loggingIn → out.1.state = .loggingIn) := by
  cases h with
  | loginWaits | ensureWaits | waitsAgain | reLoginWaits | ensured | waited =>
    exact .inr ⟨rfl, id⟩
  | logsIn | ensures => exact .inr ⟨rfl, fun _ => rfl⟩
  | resets hstate => exact .inr ⟨rfl, fun hin => absurd hin hstate⟩
  | ends _ hwoken => exact .inl hwoken

/-- A call sleeps only while the machine is at `LoggingIn`. -/
theorem sleepOutline : NextOutline (τ := ℕ) program (fun _ _ => True) (fun _ => True) Sleeps where
  start {s t a x} _ _ hx := by
    cases a with
    | login | ensureLoggedIn | logout =>
      cases hx
      trivial
    | reLogin cause =>
      simp only [program, start] at hx
      split at hx <;> cases hx <;> trivial
  body {s t r c} _ _ _ := by
    refine ⟨trivial, ?_⟩
    have hdoes := body_does c r s.shared
    simp only [program]
    generalize body c r s.shared = out at hdoes ⊢
    cases hdoes with
    | loginWaits hstate | ensureWaits hstate | waitsAgain hstate | reLoginWaits hstate =>
      exact ⟨id, le_refl _, fun _ => hstate⟩
    | _ => trivial
  body_other {s t r c t'} hs _ _ _ := (hs.assert t').mono (body_does c r s.shared).wakes
  work {s t r k shared x} _ _ _ hk := by
    obtain ⟨rfl, hfollows⟩ := work_follows hk
    refine ⟨trivial, ?_⟩
    cases hfollows <;> trivial
  work_other {s t r k shared x t'} hs _ _ hk _ := by
    obtain ⟨rfl, -⟩ := work_follows hk
    exact hs.assert t'

/-! ## All calls return -/

/-- How often the call may still wake everybody. -/
def Section.wakes : Section → ℕ
  | .ensureWait _ _ => 0
  | _ => 1

@[inherit_doc Section.wakes]
def wakes : Exit Section Work → ℕ
  | .ret => 0
  | .enter c | .go (.parked _ c) => c.wakes
  | _ => 1

/-- How many actions come at most after a section. -/
def Section.rank : Section → ℕ
  | .finish _ _ _ | .logoutEnd | .ensureWait _ _ => 1
  | .login _ | .ensure _ => 6
  | .reLogin _ => 9

/-- And outside the sections, until a call sleeps. -/
def Work.rank (broadcasts : ℕ) : Work → ℕ
  | .loginReply _ _ | .logoutRequest => 4
  | .doLogin _ _ | .logout => 5
  | .parked ticket c => if ticket < broadcasts then c.rank + 3 else 0

/-- A call sleeps again only after somebody has woken it, and each call wakes the others once. -/
theorem callVariant :
    NextVariant program unwinding wakes Section.rank fun s => Work.rank s.broadcasts where
  ret := rfl
  body {s r c} := by
    have hdoes := body_does c r s
    simp only [program]
    generalize body c r s = out at hdoes ⊢
    have hasleep : ∀ c, Work.rank s.broadcasts (.parked s.broadcasts c) = 0 :=
      fun c => if_neg (Nat.lt_irrefl _)
    cases hdoes with
    | loginWaits | ensureWaits | waitsAgain | reLoginWaits =>
      exact .inr (by simp [wait, Turn.point, Point.next, wakes, Section.wakes, hasleep, Section.rank])
    | ensured | waited =>
      exact .inr (by simp [Shared.return, Turn.point, Point.next, wakes, Section.rank])
    | logsIn | ensures | resets =>
      exact .inr (by
        simp [beginning, Turn.point, Point.next, wakes, Section.wakes, Section.rank, Work.rank])
    | ends _ _ hc =>
      refine .inl ?_
      rcases hc with rfl | hc
      · exact Nat.one_pos
      · cases c with
        | finish => exact Nat.one_pos
        | _ => exact hc.elim
  work {s r k shared x} hk := by
    obtain ⟨rfl, hfollows⟩ := work_follows hk
    refine .inr ?_
    cases hfollows with
    | ret => rcases work_ret hk with rfl | rfl <;> simp [wakes, Work.rank]
    | logoutRequest | logoutEnd | loginReply | unsent | replied =>
      simp [wakes, Section.wakes, Section.rank, Work.rank]
    | @woken ticket c =>
      have hwoken : ticket < shared.broadcasts := (Option.ite_none_right_eq_some.mp hk).1
      refine ⟨le_refl _, rfl, ?_⟩
      simp only [Exit.rank, Work.rank, if_pos hwoken]
      exact Nat.lt_succ_self _
  calls {s k} hcalls := by
    cases k with
    | loginReply | logoutRequest => exact Nat.succ_pos _
    | _ => cases hcalls

/-- What holds as long as no request of a login panics. -/
structure Orderly (s : System) : Prop where
  sleep : Sound program (fun _ => True) (fun s p => Sleeps s p.next) s
  logins : Accounted (fun s (_ : Unit) => s.state ≠ .loggingIn) (fun x _ => attempting x) s

theorem orderly_init (password : Bytes) : Orderly (init password) :=
  ⟨sound_init trivial trivial, fun _ => .inl nofun⟩

theorem Orderly.step {s s' : System} {a : Happening Answer Call ℕ} (h : Orderly s)
    (hspared : Only LoginSpared s a) (hstep : stepPanic s a = some s') : Orderly s' := by
  cases a with
  | event ev => exact ⟨sleepOutline.step h.sleep trivial hstep, loginDebts.step h.logins trivial hstep⟩
  | panic t =>
    obtain ⟨k, ht, hcalls, rfl⟩ := Unwinding.panic_cases hstep
    refine ⟨h.sleep.giveUp ht trivial, h.logins.giveUp ht fun _ howes => ?_⟩
    have hlogout : inFlight (s.point t) = false := hspared
    rw [ht] at hlogout
    cases k with
    | logoutRequest => exact howes
    | loginReply => cases hlogout
    | _ => cases hcalls

theorem LoginBegins.of_quiescent {s : System} (hlocked : Locked program s) (hquiet : s.Quiescent)
    (hstate : s.shared.state ≠ .loggingIn) : LoginBegins s := by
  intro t r
  have hcall : Alone program (s.move t _) t r 0 s.shared (.wait (.login s.shared.outcomes.length)) :=
    alone_start (hlocked.free_of_quiescent hquiet) _
  have hbegins : Alone program _ t r 3 _ (.work (.doLogin s.shared.outcomes.length s.shared.begun)) :=
    hcall.section (by simp only [program, body, if_neg hstate]; rfl)
  obtain ⟨s', hrun, hpoint⟩ := hbegins.exec_call (x := .enter _) .login (hquiet t) rfl
  exact ⟨s', hrun, _, _, hpoint⟩

/-- As long as a call has not returned, some thread can go on. -/
theorem Orderly.can_run {s : System} (h : Orderly s) (hgoal : ¬(s.Quiescent ∧ LoginBegins s)) :
    ∃ t, ∀ r, (program.step s (.run t r)).isSome = true := by
  by_contra hstuck
  have hasleep : ∀ t, s.point t ≠ .idle → ∃ ticket c, s.point t = .work (.parked ticket c) ∧
      s.shared.broadcasts ≤ ticket ∧ Sleeps s.shared (.go (.parked ticket c)) := by
    intro t hbusy
    obtain ⟨k, r, ht, hblocked⟩ := h.sleep.locked.blocked hstuck hbusy
    obtain ⟨ticket, c, rfl, hle⟩ := work_blocked hblocked
    exact ⟨ticket, c, ht, hle, h.sleep.at_point ht⟩
  have hstate : s.shared.state ≠ .loggingIn := by
    refine h.logins.done_of_busy (i := ()) (fun _ => id) fun t hbusy howes => ?_
    -- the thread that has to publish would sleep, which it does not
    obtain ⟨ticket, c, ht, -, hsleeps⟩ := hasleep t hbusy
    rw [ht] at howes
    exact absurd howes hsleeps.1
  have hquiet : s.Quiescent := by
    intro t
    by_contra hbusy
    obtain ⟨ticket, c, -, hle, -, hticket, hlogin⟩ := hasleep t hbusy
    exact hstate (hlogin (le_antisymm hticket hle))
  exact hgoal ⟨hquiet, .of_quiescent h.sleep.locked hquiet hstate⟩

/-- All calls return in every schedule, as long as no request of a login panics. -/
theorem always_released (password : Bytes) {run : List (Happening Answer Call ℕ)}
    (hrun : EachStep stepPanic (Only LoginSpared) (init password) run) :
    Always stepPanic Released (init password) run :=
  callVariant.settles (fun _ _ _ _ _ => rfl) (fun _ hs hgoal => hs.can_run hgoal)
    (fun _ _ _ hs hspared hstep => hs.step hspared hstep) (orderly_init password) hrun

/-! ## A request that panics -/

/-- The thread does not log in, and has not asked the Gateway to log out. -/
def Bystands : Exit Section Work → Prop
  | .ret | .go .logout => True
  | .enter c | .go (.parked _ c) => ¬c.attempting ∧ c ≠ .logoutEnd
  | _ => False

/-- When nobody logs in or out while the machine is at `LoggingIn`, then that stays so. -/
theorem strandedOutline (b : ℕ) : NextOutline (τ := ℕ) program (fun _ _ => True)
    (fun s => s.state = .loggingIn ∧ s.broadcasts = b) (fun _ => Bystands) where
  start {s t a x} _ _ hx := by
    cases a with
    | login | ensureLoggedIn =>
      cases hx
      exact ⟨id, by rintro ⟨⟩⟩
    | logout =>
      cases hx
      trivial
    | reLogin cause =>
      simp only [program, start] at hx
      split at hx <;> cases hx
      · exact ⟨id, by rintro ⟨⟩⟩
      · trivial
  body {s t r c} hs _ ht := by
    have hbystands : Bystands (.enter c) := hs.at_point ht
    have hdoes := body_does c r s.shared
    simp only [program]
    generalize body c r s.shared = out at hdoes ⊢
    cases hdoes with
    | loginWaits | ensureWaits | waitsAgain | reLoginWaits => exact ⟨hs.inv, id, by rintro ⟨⟩⟩
    | ensured hstate | waited hstate | logsIn hstate | ensures hstate | resets hstate =>
      exact absurd hs.inv.1 hstate
    | ends _ _ hc => exact absurd hc (not_or.mpr ⟨hbystands.2, hbystands.1⟩)
  body_other {s t r c t'} hs _ _ _ := hs.assert t'
  work {s t r k shared x} hs _ ht hk := by
    have hbystands : Bystands (.go k) := hs.at_point ht
    obtain ⟨rfl, hfollows⟩ := work_follows hk
    refine ⟨hs.inv, ?_⟩
    cases hfollows with
    | ret => trivial
    | woken => exact hbystands
    | logoutRequest =>
      -- `Logout` looks at the machine first
      have hreturns : work .logout r s.shared = some (s.shared, .ret) := by
        simp only [work, hs.inv.1]
        rfl
      cases hreturns.symm.trans hk
    | _ => exact hbystands.elim
  work_other {s t r k shared x t'} hs _ _ _ _ := hs.assert t'

/-- Nobody logs in or out while the machine is at `LoggingIn`. -/
abbrev Stranded (b : ℕ) : System → Prop :=
  Sound program (fun s => s.state = .loggingIn ∧ s.broadcasts = b) fun _ p => Bystands p.next

theorem Stranded.step {b : ℕ} {s s' : System} {a : Happening Answer Call ℕ} (h : Stranded b s)
    (hstep : stepPanic s a = some s') : Stranded b s' := by
  cases a with
  | event ev => exact (strandedOutline b).step h trivial hstep
  | panic t =>
    obtain ⟨k, ht, -, rfl⟩ := Unwinding.panic_cases hstep
    exact h.giveUp ht trivial

/-- A call that sleeps then sleeps for ever, and no request of a login is sent any more. -/
theorem Stranded.forever {b t : ℕ} {c : Section} {s : System} (h : Stranded b s)
    (ht : s.point t = .work (.parked b c)) (run : List (Happening Answer Call ℕ)) :
    Always stepPanic (fun s => s.point t = .work (.parked b c) ∧ ∀ t, inFlight (s.point t) = false)
      s run := by
  have hboth : Always stepPanic (fun s => Stranded b s ∧ s.point t = .work (.parked b c)) s run := by
    refine always_of_step (fun s a s' h hstep => ⟨h.1.step hstep, ?_⟩) ⟨h, ht⟩ run
    refine Unwinding.point_of_blocked hstep h.2 rfl fun r _ => if_neg ?_
    rw [h.1.inv.2]
    exact Nat.lt_irrefl b
  refine hboth.mono fun s h => ⟨h.2, fun t' => ?_⟩
  have hbystands := h.1.assert t'
  cases hpoint : s.point t' with
  | work k =>
    rw [hpoint] at hbystands
    cases k with
    | loginReply => exact hbystands.elim
    | _ => rfl
  | _ => rfl

/-- A call of `Login` by a thread that has to wait. -/
def loginWaits (t : ℕ) : List Action :=
  [.call t .login, .run t .success, .run t .success, .run t .success]

/-- Thread `0` logs in and thread `1` waits for it, and then the request panics. -/
def panickedLogin : List (Happening Answer Call ℕ) :=
  (loginUnderWay 0 ++ loginWaits 1).map .event ++ [.panic 0]

/-- Thread `1` waits for ever, and nobody logs in any more. -/
theorem panic_strands_waiter : ∃ s, exec stepPanic (init (bytes "p")) panickedLogin = some s ∧
    ¬Released s ∧ ∀ run, Always stepPanic
      (fun s => s.point 1 = .work (.parked 0 (.login 0)) ∧ ∀ t, inFlight (s.point t) = false) s run := by
  obtain ⟨s, hs, hstate, hbroadcasts, hwaits, hothers⟩ :
      ∃ s, exec stepPanic (init (bytes "p")) panickedLogin = some s ∧
        s.shared.state = .loggingIn ∧ s.shared.broadcasts = 0 ∧
        s.point 1 = .work (.parked 0 (.login 0)) ∧
        ∀ a ∈ panickedLogin, a.thread = 1 ∨ s.point a.thread = .idle := exec_exists (by decide +kernel)
  have hidle := Unwinding.idle_of_exec hs hothers
  have hstranded : Stranded 0 s := by
    refine ⟨Unwinding.locked_of_exec hs, ⟨hstate, hbroadcasts⟩, fun t => ?_⟩
    by_cases ht : t = 1
    · rw [ht, hwaits]
      exact ⟨id, nofun⟩
    · rw [hidle t ht]
      trivial
  refine ⟨s, hs, fun hreleased => ?_, hstranded.forever hwaits⟩
  have hasleep : program.work (.parked 0 (.login 0)) .success s.shared = none := by
    simp only [program, work, hbroadcasts, if_neg (Nat.lt_irrefl 0)]
  have hrest := Unwinding.of_blocked hreleased hidle hwaits hasleep
  cases (hrest.1 1).symm.trans hwaits

end HstongApi.SessionManager
