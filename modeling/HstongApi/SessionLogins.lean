import HstongApi.SessionManager

/-!
# What the session manager guarantees

A `Logout` that is under way does not keep a login from beginning, and when it then moves
the machine to `LoggedOut` it hides that login: another call begins a second one, and a
call that waits for the first wakes up and takes the cleared error for success.

* `single_flight`: if each `Logout` finds no login in progress when it moves the machine,
  at most one login request is in flight.
* `no_false_login`: if each `Logout` finds no call waiting for a login when it moves the
  machine, or neither a login in progress nor the error of one, then a call that returns no
  error has seen the state `LoggedIn` or overlapped a login that succeeded, and a call that
  waited returns the outcome of a login that ended meanwhile.
-/

namespace HstongApi.SessionManager

open Threads

/-! ## One login at a time -/

/-- The thread has begun a login and has not published its outcome, before a section. -/
def Section.attempting : Section → Prop
  | .finish _ _ _ => True
  | _ => False

/-- And outside the sections. -/
def Work.attempting : Work → Prop
  | .doLogin _ _ | .loginReply _ _ => True
  | .parked _ c => c.attempting
  | .logout | .logoutRequest => False

/-- The thread has begun a login and has not published its outcome. -/
def attempting : Exit Section Work → Prop
  | .ret => False
  | .enter c => c.attempting
  | .go k => k.attempting

/-- The request of the thread is in flight. -/
def inFlight : Point Section Work → Bool
  | .work (.loginReply _ _) => true
  | _ => false

theorem attempting_of_inFlight {p : Point Section Work} (h : inFlight p = true) :
    attempting p.next := by
  cases p with
  | work k =>
    cases k with
    | loginReply began login => trivial
    | _ => cases h
  | _ => cases h

/-- **At most one login request is in flight.** -/
def SingleFlight (s : System) : Prop :=
  ∀ t t', inFlight (s.point t) = true → inFlight (s.point t') = true → t = t'

/-- The thread is about to move the machine to `LoggedOut` at the end of `Logout`. -/
def endsLogout : Point Section Work → Bool
  | .inside .logoutEnd => true
  | _ => false

/-- A `Logout` moves the machine while no login is in progress. -/
def LogoutApart (s : System) : Action → Prop
  | .call _ _ => True
  | .run t _ => endsLogout (s.point t) = true → s.shared.state ≠ .loggingIn

instance (s : System) : DecidablePred (LogoutApart s) := by
  rintro (_ | _) <;> dsimp only [LogoutApart] <;> infer_instance

/-- A login can begin when the machine is neither at `LoggedIn` nor at `LoggingIn`. -/
theorem beginLogin_of_out {m : LoginState} (hout : m ≠ .loggedIn) (hnot : m ≠ .loggingIn) :
    m.beginLogin = (.loggingIn, true) := by
  cases m with
  | loggedOut => rfl
  | loggedIn => exact absurd rfl hout
  | loggingIn => exact absurd rfl hnot

/-- What a section does: a call waits, returns or begins a login, `ReLogin` resets the machine, and a
login or a `Logout` ends, after which everybody is woken. -/
inductive Does (s : Shared) : Section → Shared × Turn Section Work → Prop
  | loginWaits {b} : s.state = .loggingIn → Does s (.login b) (wait s (.login b))
  | ensureWaits {b n} : s.state = .loggingIn → Does s (.ensure b) (wait s (.ensureWait b n))
  | waitsAgain {b n} : s.state = .loggingIn → Does s (.ensureWait b n) (wait s (.ensureWait b n))
  | reLoginWaits {b} : s.state = .loggingIn → Does s (.reLogin b) (wait s (.reLogin b))
  | ensured {b r} : s.state ≠ .loggingIn → Does s (.ensure b) (s.return r, .leave .ret)
  | waited {b n r} : s.state ≠ .loggingIn → Does s (.ensureWait b n) (s.return r, .leave .ret)
  | logsIn {b} : s.state ≠ .loggingIn → Does s (.login b) (beginning s .loggingIn b)
  | ensures {b} : s.state ≠ .loggingIn → Does s (.ensure b) (beginning s .loggingIn b)
  | resets {b} : s.state ≠ .loggingIn →
      Does s (.reLogin b) ({ s with state := .loggedOut }, .leave (.enter (.ensure b)))
  | ends {c s'} : s'.state ≠ .loggingIn → s'.broadcasts = s.broadcasts + 1 →
      c = .logoutEnd ∨ c.attempting → Does s c (s', .leave .ret)

variable {s s' : Shared} {c : Section} {x : Exit Section Work}

theorem ensureLoop_does {b n : ℕ}
    (hwait : s.state = .loggingIn → Does s c (wait s (.ensureWait b n)))
    (hreturn : ∀ r, s.state ≠ .loggingIn → Does s c (s.return r, .leave .ret)) :
    Does s c (ensureLoop s b n) := by
  rw [ensureLoop]
  split
  · exact hwait ‹_›
  · exact hreturn _ ‹_›

theorem body_does (c : Section) (r : Answer) (s : Shared) : Does s c (body c r s) := by
  cases c with
  | login b =>
    simp only [body]
    split
    · exact .loginWaits ‹_›
    · exact .logsIn ‹_›
  | ensure b =>
    simp only [body]
    split
    · rename_i hin
      exact .ensured (by rw [hin]; nofun)
    · split
      · exact ensureLoop_does .ensureWaits fun _ => .ensured
      · rename_i hout hnot
        rw [beginLogin_of_out hout hnot]
        exact .ensures hnot
  | ensureWait b n => exact ensureLoop_does .waitsAgain fun _ => .waited
  | reLogin b =>
    simp only [body]
    split
    · exact .reLoginWaits ‹_›
    · exact .resets ‹_›
  | finish b n err =>
    have hended : ∀ m : LoginState, m.loginSucceeded ≠ .loggingIn ∧ m.loginFailed ≠ .loggingIn := by
      intro m
      cases m <;> decide
    refine .ends ?_ rfl (.inr trivial)
    simp only [Shared.return]
    split
    · exact (hended _).1
    · exact (hended _).2
  | logoutEnd => exact .ends nofun rfl (.inl rfl)

/-- What a section does to the machine and to the login of its thread: it begins one when
there is none, it ends its own, or it leaves the machine where it is. -/
theorem body_token (c : Section) (r : Answer) (s : Shared)
    (hlogout : c = .logoutEnd → s.state ≠ .loggingIn) :
    (attempting ((body c r s).2.point c).next →
      (body c r s).1.state = .loggingIn ∧ s.state ≠ .loggingIn) ∧
    ((body c r s).1.state ≠ .loggingIn → s.state ≠ .loggingIn ∨ c.attempting) := by
  have hdoes := body_does c r s
  generalize body c r s = out at hdoes ⊢
  cases hdoes with
  | loginWaits | ensureWaits | waitsAgain | reLoginWaits | ensured | waited =>
    exact ⟨False.elim, .inl⟩
  | logsIn hstate | ensures hstate => exact ⟨fun _ => ⟨rfl, hstate⟩, fun _ => .inl hstate⟩
  | resets hstate => exact ⟨False.elim, fun _ => .inl hstate⟩
  | ends _ _ hends => exact ⟨False.elim, fun _ => hends.imp_left hlogout⟩

/-- What comes after an action outside the sections. -/
inductive Follows : Work → Exit Section Work → Prop
  | ret {k} : Follows k .ret
  | logoutRequest : Follows .logout (.go .logoutRequest)
  | logoutEnd : Follows .logoutRequest (.enter .logoutEnd)
  | loginReply {b n} : Follows (.doLogin b n) (.go (.loginReply b n))
  | unsent {b n err} : Follows (.doLogin b n) (.enter (.finish b n err))
  | replied {b n err} : Follows (.loginReply b n) (.enter (.finish b n err))
  | woken {ticket c} : Follows (.parked ticket c) (.enter c)

/-- An action outside the sections leaves the shared state alone. -/
theorem work_follows {k : Work} {r : Answer} {shared : Shared} (h : work k r s = some (shared, x)) :
    shared = s ∧ Follows k x := by
  cases k with
  | logout =>
    obtain ⟨rfl, rfl⟩ := Prod.ext_iff.mp (Option.some.inj h)
    refine ⟨rfl, ?_⟩
    dsimp only
    split
    · exact .logoutRequest
    · exact .ret
  | logoutRequest =>
    cases r <;> cases h
    · exact ⟨rfl, .logoutEnd⟩
    · exact ⟨rfl, .logoutEnd⟩
    · exact ⟨rfl, .ret⟩
  | doLogin began login =>
    simp only [work] at h
    split at h
    · cases h
      exact ⟨rfl, .unsent⟩
    · cases r <;> cases h
      · exact ⟨rfl, .loginReply⟩
      · exact ⟨rfl, .loginReply⟩
      · exact ⟨rfl, .unsent⟩
  | loginReply began login =>
    cases r <;> obtain ⟨rfl, rfl⟩ := Prod.ext_iff.mp (Option.some.inj h) <;> exact ⟨rfl, .replied⟩
  | parked ticket c =>
    obtain ⟨-, heq⟩ := Option.ite_none_right_eq_some.mp h
    cases heq
    exact ⟨rfl, .woken⟩

/-- A thread that has a login after an action outside had it before. -/
theorem Follows.attempting {k : Work} (h : Follows k x) (hx : attempting x) : k.attempting := by
  cases h with
  | ret | logoutRequest | logoutEnd => exact hx.elim
  | loginReply | unsent | replied => trivial
  | woken => exact hx

/-- A login in progress belongs to one thread. -/
theorem loginTokens : Tokens program LogoutApart (fun s (_ : Unit) => s.state ≠ .loggingIn)
    (fun x _ => attempting x) where
  start {s t a x i} _ hx := by
    cases a with
    | login | ensureLoggedIn | logout =>
      cases hx
      exact id
    | reLogin cause =>
      simp only [program, start] at hx
      split at hx <;> cases hx <;> exact id
  body_take {s t r c i} _ hcond ht hp := by
    obtain ⟨hin, hout⟩ := (body_token c r s.shared (by rintro rfl; exact hcond (by rw [ht]; rfl))).1 hp
    exact ⟨not_not_intro hin, .inr hout⟩
  body_give {s t r c i} hcond ht :=
    (body_token c r s.shared (by rintro rfl; exact hcond (by rw [ht]; rfl))).2
  work_take {s t r k shared x i} hs _ ht hk hp := by
    obtain ⟨rfl, hfollows⟩ := work_follows hk
    have hhad : k.attempting := hfollows.attempting hp
    exact ⟨hs.not_free i ht hhad, .inl hhad⟩
  work_give {s t r k shared x i} _ _ hk hfree := by
    obtain ⟨rfl, -⟩ := work_follows hk
    exact .inl hfree

/-- **Single flight.** In a run in which each `Logout` moves the machine while no login is
in progress, at most one login request is in flight at any time. -/
theorem single_flight (password : Bytes) (run : List Action)
    (h : EachStep step LogoutApart (init password) run) :
    Always step SingleFlight (init password) run := by
  have hheld : Always step (Held (fun s (_ : Unit) => s.state ≠ .loggingIn)
      fun x _ => attempting x) (init password) run :=
    h.always (fun _ _ _ hs hcond hstep => loginTokens.step hs hcond hstep)
      (held_init _ fun _ => id)
  exact hheld.mono fun s hs t t' ht ht' =>
    (hs ()).2 t t' (attempting_of_inFlight ht) (attempting_of_inFlight ht')

/-- A call of `Login` by a thread up to the reply to its request. -/
def loginUnderWay (t : ℕ) : List Action :=
  [.call t .login, .run t .success, .run t .success, .run t .success, .run t .success]

/-- The reply, and the rest of the call. -/
def loginEnds (t : ℕ) (reply : Answer) : List Action :=
  [.run t reply, .run t reply, .run t reply, .run t reply]

/-- A call of `Logout` up to the reply to its request. -/
def logoutUnderWay (t : ℕ) : List Action :=
  [.call t .logout, .run t .success, .run t .success]

/-- The rest of the call. -/
def logoutEnds (t : ℕ) : List Action := [.run t .success, .run t .success, .run t .success]

/-- Thread `0` logs in, thread `1` logs out, and while its request is under way thread `0`
logs in again. The end of the logout lets thread `2` begin a second login. -/
def hiddenLogin : List Action :=
  loginUnderWay 0 ++ loginEnds 0 .success ++ logoutUnderWay 1 ++ loginUnderWay 0 ++ logoutEnds 1 ++
    [.call 2 .ensureLoggedIn, .run 2 .success, .run 2 .success, .run 2 .success, .run 2 .success]

/-- Two login requests are in flight. -/
theorem logout_hides_login : ∃ run s, exec step (init (bytes "p")) run = some s ∧
    ¬ SingleFlight s := by
  obtain ⟨s, hs, h₀, h₂⟩ : ∃ s, exec step (init (bytes "p")) hiddenLogin = some s ∧
      inFlight (s.point 0) = true ∧ inFlight (s.point 2) = true := exec_exists (by decide +kernel)
  exact ⟨hiddenLogin, s, hs, fun hone => absurd (hone 0 2 h₀ h₂) (by decide)⟩

/-- The logout has ended when thread `0` logs in again. -/
def seenLogin : List Action :=
  loginUnderWay 0 ++ loginEnds 0 .success ++ logoutUnderWay 1 ++ logoutEnds 1 ++ loginUnderWay 0 ++
    [.call 2 .ensureLoggedIn, .run 2 .success, .run 2 .success, .run 2 .success]

theorem single_flight_seenLogin : (exec step (init (bytes "p")) seenLogin).isSome = true ∧
    Always step SingleFlight (init (bytes "p")) seenLogin :=
  ⟨by decide +kernel, single_flight (bytes "p") seenLogin (by decide +kernel)⟩

/-! ## No login that did not happen -/

/-- **The return of a call is true to the logins.** A call that returns no error has seen
the state `LoggedIn`, or a login succeeded that began before the return and ended after the
call began; and a call that waited returns the outcome of a login that ended meanwhile. -/
def Return.Truthful (r : Return) (outcomes : List (ℕ × Option GoError)) : Prop :=
  (r.result = none →
    r.observed = true ∨ ∃ login < r.begun, (login, none) ∈ outcomes.drop r.began) ∧
  ∀ ended, r.waited = some ended → r.result ∈ ended

/-- All calls that have returned are true to the logins. -/
def Truthful (s : System) : Prop := ∀ r ∈ s.shared.returns, r.Truthful s.shared.outcomes

/-- The thread waits for a login, before a section. -/
def Section.waits : Section → Prop
  | .ensureWait _ _ => True
  | _ => False

/-- And outside the sections. -/
def Work.waits : Work → Prop
  | .parked _ c => c.waits
  | _ => False

/-- The thread waits for a login in `EnsureLoggedIn`. -/
def waits : Exit Section Work → Prop
  | .ret => False
  | .enter c => c.waits
  | .go k => k.waits

/-- A `Logout` moves the machine while no call waits for a login, or while there is neither
a login in progress nor the error of one. -/
def LogoutUnnoticed (s : System) : Action → Prop
  | .call _ _ => True
  | .run t _ => endsLogout (s.point t) = true →
      (∀ t', ¬ waits (s.point t').next) ∨ (s.shared.state ≠ .loggingIn ∧ s.shared.loginErr = none)

/-- A call that began to wait after `since` logins still has to wait, or the error of the last
login is the outcome of one that ended meanwhile. -/
def Heard (s : Shared) (since : ℕ) : Prop :=
  s.state = .loggingIn ∨ s.loginErr ∈ (s.outcomes.drop since).map (·.2)

/-- The logins that have ended have begun, and the returns are true. -/
structure Recorded (s : Shared) : Prop where
  numbered : ∀ a ∈ s.outcomes, a.1 < s.begun
  truthful : ∀ r ∈ s.returns, r.Truthful s.outcomes

/-- What a thread knows before a section. -/
def Section.Knows (s : Shared) : Section → Prop
  | .login began | .ensure began | .reLogin began => began ≤ s.outcomes.length
  | .ensureWait began since => began ≤ since ∧ since ≤ s.outcomes.length ∧ Heard s since
  | .finish began n _ => began ≤ s.outcomes.length ∧ n < s.begun
  | .logoutEnd => True

/-- And outside the sections. -/
def Work.Knows (s : Shared) : Work → Prop
  | .logout | .logoutRequest => True
  | .doLogin began login | .loginReply began login =>
    began ≤ s.outcomes.length ∧ login < s.begun
  | .parked _ c => c.Knows s

/-- What a thread knows at a point. -/
def Knows (s : Shared) : Exit Section Work → Prop
  | .ret => True
  | .enter c => c.Knows s
  | .go k => k.Knows s

/-- Logins begin and end, and nothing of that is forgotten. -/
structure Grows (s s' : Shared) : Prop where
  begun : s.begun ≤ s'.begun
  outcomes : s.outcomes <+: s'.outcomes

theorem Grows.drop (h : Grows s s') {k : ℕ} {a : ℕ × Option GoError} (ha : a ∈ s.outcomes.drop k) :
    a ∈ s'.outcomes.drop k := by
  obtain ⟨more, hmore⟩ := h.outcomes
  rw [← hmore, List.drop_append]
  exact List.mem_append_left _ ha

theorem Return.Truthful.grows (h : Grows s s') {r : Return} (hr : r.Truthful s.outcomes) :
    r.Truthful s'.outcomes := by
  refine ⟨fun hnone => (hr.1 hnone).imp_right ?_, hr.2⟩
  rintro ⟨login, hlt, hmem⟩
  exact ⟨login, hlt, h.drop hmem⟩

theorem Section.Knows.grows (h : Grows s s')
    (hheard : c.waits → ∀ since ≤ s.outcomes.length, Heard s since → Heard s' since)
    (hc : c.Knows s) : c.Knows s' := by
  have hlen : s.outcomes.length ≤ s'.outcomes.length := h.outcomes.length_le
  cases c with
  | login _ | ensure _ | reLogin _ => exact Nat.le_trans hc hlen
  | ensureWait began since =>
    obtain ⟨hbegan, hsince, hh⟩ := hc
    exact ⟨hbegan, Nat.le_trans hsince hlen, hheard trivial since hsince hh⟩
  | finish began login err => exact ⟨Nat.le_trans hc.1 hlen, Nat.lt_of_lt_of_le hc.2 h.begun⟩
  | logoutEnd => trivial

/-- What a thread knows outlives the actions of others. -/
theorem Knows.grows (h : Grows s s')
    (hheard : waits x → ∀ since ≤ s.outcomes.length, Heard s since → Heard s' since)
    (hx : Knows s x) : Knows s' x := by
  have hlen : s.outcomes.length ≤ s'.outcomes.length := h.outcomes.length_le
  cases x with
  | ret => trivial
  | enter c => exact Section.Knows.grows h hheard hx
  | go k =>
    cases k with
    | logout | logoutRequest => trivial
    | doLogin began login | loginReply began login =>
      exact ⟨Nat.le_trans hx.1 hlen, Nat.lt_of_lt_of_le hx.2 h.begun⟩
    | parked ticket c => exact Section.Knows.grows (c := c) h hheard hx

/-- A return that is true can be recorded. -/
theorem Recorded.return (h : Recorded s) {r : Return} (hr : r.Truthful s.outcomes) :
    Recorded (s.return r) :=
  ⟨h.numbered, List.forall_mem_cons.mpr ⟨hr, h.truthful⟩⟩

/-- What the action of a section makes of the records and of what its thread knows. -/
structure Keeps (s : Shared) (c : Section) (out : Shared × Turn Section Work) : Prop where
  grows : Grows s out.1
  recorded : Recorded out.1
  knows : Knows out.1 (out.2.point c).next

theorem keeps_wait (h : Recorded s) {c' : Section} (hc : c'.Knows s) : Keeps s c (wait s c') :=
  ⟨⟨Nat.le_refl _, List.prefix_rfl⟩, h, hc⟩

theorem keeps_return (h : Recorded s) {r : Return} (hr : r.Truthful s.outcomes) :
    Keeps s c (s.return r, .leave .ret) :=
  ⟨⟨Nat.le_refl _, List.prefix_rfl⟩, h.return hr, trivial⟩

theorem keeps_beginning (h : Recorded s) {m : LoginState} {began : ℕ}
    (hbegan : began ≤ s.outcomes.length) : Keeps s c (beginning s m began) where
  grows := ⟨Nat.le_succ _, List.prefix_rfl⟩
  recorded := ⟨fun a ha => Nat.lt_succ_of_lt (h.numbered a ha), h.truthful⟩
  knows := ⟨hbegan, Nat.lt_succ_self _⟩

/-- A call that stops waiting returns the outcome of a login that ended meanwhile. -/
theorem keeps_ensureLoop (h : Recorded s) {began since : ℕ}
    (hknows : (Section.ensureWait began since).Knows s) : Keeps s c (ensureLoop s began since) := by
  rw [ensureLoop]
  split
  · exact keeps_wait h hknows
  · obtain ⟨hbegan, -, hheard⟩ := hknows
    have hended : s.loginErr ∈ (s.outcomes.drop since).map (·.2) := hheard.resolve_left ‹_›
    refine keeps_return h ⟨fun hnone => .inr ?_, fun ended hsome => ?_⟩
    · obtain ⟨⟨login, err⟩, hmem, herr⟩ := List.mem_map.mp hended
      obtain rfl : err = none := herr.trans hnone
      have hdrop := List.mem_of_mem_drop hmem
      exact ⟨login, h.numbered _ hdrop, List.drop_subset_drop_left _ hbegan hmem⟩
    · rw [← Option.some.inj hsome]
      exact hended

/-- The end of a login is recorded, and its caller returns its outcome. -/
theorem keeps_finish (h : Recorded s) {r : Answer} {began login : ℕ} {err : Option GoError}
    (hknows : (Section.finish began login err).Knows s) :
    Keeps s (.finish began login err) (body (.finish began login err) r s) := by
  obtain ⟨hbegan, hlogin⟩ := hknows
  have hgrows : Grows s (body (.finish began login err) r s).1 :=
    ⟨Nat.le_refl _, List.prefix_append _ _⟩
  refine ⟨hgrows, ⟨?_, ?_⟩, trivial⟩
  · intro a ha
    rcases List.mem_append.mp ha with hold | hnew
    · exact h.numbered a hold
    · rw [List.mem_singleton.mp hnew]
      exact hlogin
  · refine List.forall_mem_cons.mpr ⟨⟨fun hnone => .inr ⟨login, hlogin, ?_⟩, nofun⟩,
      fun r hr => (h.truthful r hr).grows hgrows⟩
    rw [← show err = none from hnone]
    have hlast : s.outcomes ++ [(login, err)] =
        (body (.finish began login err) r s).1.outcomes := rfl
    rw [← hlast, List.drop_append_of_le_length hbegan]
    exact List.mem_append_right _ (List.mem_singleton.mpr rfl)

theorem keeps_body (h : Recorded s) (hc : c.Knows s) (r : Answer) : Keeps s c (body c r s) := by
  cases c with
  | login began =>
    simp only [body]
    split
    · exact keeps_wait h hc
    · exact keeps_beginning h hc
  | ensure began =>
    simp only [body]
    split
    · exact keeps_return h ⟨fun _ => .inl rfl, nofun⟩
    · split
      · exact keeps_ensureLoop h ⟨hc, Nat.le_refl _, .inl ‹_›⟩
      · rw [beginLogin_of_out ‹_› ‹_›]
        exact keeps_beginning h hc
  | ensureWait began since => exact keeps_ensureLoop h hc
  | reLogin began =>
    simp only [body]
    split
    · exact keeps_wait h hc
    · exact ⟨⟨Nat.le_refl _, List.prefix_rfl⟩, ⟨h.numbered, h.truthful⟩, hc⟩
  | finish began login err => exact keeps_finish h hc
  | logoutEnd => exact ⟨⟨Nat.le_refl _, List.prefix_rfl⟩, ⟨h.numbered, h.truthful⟩, trivial⟩

theorem Does.heard {out : Shared × Turn Section Work} (h : Does s c out)
    (hc : ¬(c = .logoutEnd ∨ c.attempting)) {since : ℕ} (hheard : Heard s since) :
    Heard out.1 since := by
  cases h with
  | loginWaits | ensureWaits | waitsAgain | reLoginWaits | ensured | waited => exact hheard
  | logsIn | ensures => exact .inl rfl
  | resets hstate => exact .inr (hheard.resolve_left hstate)
  | ends _ _ hends => exact absurd hends hc

/-- Only `Logout` ends the wait of a call without a login. -/
theorem heard_body (hc : c ≠ .logoutEnd) (r : Answer) {since : ℕ}
    (hsince : since ≤ s.outcomes.length) (h : Heard s since) : Heard (body c r s).1 since := by
  cases c with
  | login | ensure | ensureWait | reLogin =>
    exact (body_does _ r s).heard (not_or.mpr ⟨hc, id⟩) h
  | finish began login err =>
    refine .inr (List.mem_map.mpr ⟨(login, err), ?_, rfl⟩)
    have hlast : s.outcomes ++ [(login, err)] =
        (body (.finish began login err) r s).1.outcomes := rfl
    rw [← hlast, List.drop_append_of_le_length hsince]
    exact List.mem_append_right _ (List.mem_singleton.mpr rfl)
  | logoutEnd => exact absurd rfl hc

theorem knows_start {a : Call} (h : start a s = some x) : Knows s x := by
  cases a with
  | login | ensureLoggedIn =>
    cases h
    exact Nat.le_refl s.outcomes.length
  | logout =>
    cases h
    trivial
  | reLogin cause =>
    simp only [start] at h
    split at h <;> cases h
    · exact Nat.le_refl s.outcomes.length
    · trivial

theorem Follows.knows {k : Work} (h : Follows k x) (hk : k.Knows s) : Knows s x := by
  cases h with
  | ret | logoutRequest | logoutEnd => trivial
  | _ => exact hk

/-- What the threads know about the logins. -/
theorem loginOutline : NextOutline (τ := ℕ) program LogoutUnnoticed Recorded Knows := by
  refine .of_acts (fun _ _ hx => knows_start hx) (fun {s t r c} hs hcond ht hknows => ?_)
    fun {s t r k shared x} hs _ _ hk hknows => ?_
  · have hkeeps : Keeps s.shared c (body c r s.shared) := keeps_body hs.inv hknows r
    refine ⟨hkeeps.recorded, hkeeps.knows, fun t' _ =>
      Knows.grows hkeeps.grows fun hwaits since hsince hheard => ?_⟩
    by_cases hlogout : c = .logoutEnd
    · subst hlogout
      rcases hcond (by rw [ht]; rfl) with hnobody | ⟨hstate, herr⟩
      · exact absurd hwaits (hnobody t')
      · -- the error was cleared before, so nothing changes for the thread
        refine .inr ?_
        have hended := hheard.resolve_left hstate
        rw [herr] at hended
        exact hended
    · exact heard_body hlogout r hsince hheard
  · obtain ⟨rfl, hfollows⟩ := work_follows hk
    exact ⟨hs.inv, hfollows.knows hknows, fun _ _ => id⟩

/-- **No login is reported that did not happen.** In a run in which each `Logout` moves the
machine while no call waits for a login, or while there is neither a login in progress nor
the error of one, all returns are true to the logins. -/
theorem no_false_login (password : Bytes) (run : List Action)
    (h : EachStep step LogoutUnnoticed (init password) run) :
    Always step Truthful (init password) run := by
  have hsound : Always step (Sound program Recorded fun s p => Knows s p.next)
      (init password) run :=
    h.always (fun _ _ _ hs hcond hstep => loginOutline.step hs hcond hstep)
      (sound_init ⟨nofun, nofun⟩ trivial)
  exact hsound.mono fun s hs => hs.inv.truthful

/-- Thread `2` waits for the second login of thread `0`. The end of the logout of thread `1`
wakes it, and only then the login fails. -/
def falseLogin : List Action :=
  loginUnderWay 0 ++ loginEnds 0 .success ++ logoutUnderWay 1 ++ loginUnderWay 0 ++
    [.call 2 .ensureLoggedIn, .run 2 .success, .run 2 .success, .run 2 .success] ++ logoutEnds 1 ++
    [.run 2 .success, .run 2 .success, .run 2 .success, .run 2 .success] ++ loginEnds 0 .refused

/-- The call of thread `2` has returned no error, and no login succeeded after it began. It
is said to have waited for a login, and none ended while it did. -/
theorem logout_feigns_login : ∃ run s, exec step (init (bytes "p")) run = some s ∧ s.Quiescent ∧
    ∃ r ∈ s.shared.returns, r.result = none ∧ r.observed = false ∧
      (∀ login, (login, none) ∉ s.shared.outcomes.drop r.began) ∧ r.waited = some [] ∧
      ¬ Truthful s := by
  obtain ⟨s, hs, hidle, r, hr, hnone, hobs, hdrop, hwaited⟩ :
      ∃ s, exec step (init (bytes "p")) falseLogin = some s ∧
        (∀ ev ∈ falseLogin, s.point ev.thread = .idle) ∧
        ∃ r ∈ s.shared.returns, r.result = none ∧ r.observed = false ∧
          (∀ a ∈ s.shared.outcomes.drop r.began, a.2 ≠ none) ∧ r.waited = some [] :=
    exec_exists (by decide +kernel)
  have hfailed : ∀ login, (login, none) ∉ s.shared.outcomes.drop r.began :=
    fun login hmem => hdrop _ hmem rfl
  refine ⟨falseLogin, s, hs, Program.quiescent_of_exec hs hidle, r, hr, hnone, hobs, hfailed,
    hwaited, fun htrue => ?_⟩
  exact absurd ((htrue r hr).2 [] hwaited) List.not_mem_nil

/-- The logout has ended when thread `0` logs in again, and thread `2` waits for that login. -/
def trueLogin : List Action :=
  loginUnderWay 0 ++ loginEnds 0 .success ++ logoutUnderWay 1 ++ logoutEnds 1 ++ loginUnderWay 0 ++
    [.call 2 .ensureLoggedIn, .run 2 .success, .run 2 .success, .run 2 .success] ++
    loginEnds 0 .refused ++ [.run 2 .success, .run 2 .success, .run 2 .success, .run 2 .success]

theorem no_false_login_trueLogin : (exec step (init (bytes "p")) trueLogin).isSome = true ∧
    Always step Truthful (init (bytes "p")) trueLogin := by
  refine ⟨by decide +kernel, no_false_login (bytes "p") trueLogin ?_⟩
  have hquiet : EachStep step (fun s ev => endsLogout (s.point ev.thread) = true →
      s.shared.state ≠ .loggingIn ∧ s.shared.loginErr = none) (init (bytes "p")) trueLogin := by
    decide +kernel
  refine hquiet.mono fun s ev hev => ?_
  cases ev with
  | call t a => trivial
  | run t r => exact fun ht => .inr (hev ht)

end HstongApi.SessionManager
