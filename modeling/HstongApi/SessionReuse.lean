import HstongApi.SessionCoalescing

/-!
# One login is enough

While nobody logs out, the store is reliable and no session comes due, at most one login of
an account is accepted, and all calls that succeed return the same session. The leader of an
attempt reads the store after it has the gate, and a session is only ever saved while the
gate is held; so a leader that makes a request has found the store empty, and no login was
accepted before. The flight inside of `Authenticator.Login` never has a follower, as the
gate lets one caller through at a time.

`login_coalesces` is the whole guarantee for concurrent logins.
-/

namespace HstongApi.SessionService

open Threads
open Auth (AccountID Session)
open Function (update_self update_of_ne update_eq_self update)

/-! ## The run is not disturbed -/

/-- The account whose live session the action asks for. -/
def Work.asksLive : Work → Option AccountID
  | .login account _ | .lead account _ => some account
  | _ => none

/-- Nobody logs out, the operations of the store succeed, and the clock is before the refresh
point of a session that is asked for. -/
def Undisturbed (s : System) : Action → Prop
  | .call _ (.login _ _) => True
  | .call _ (.logout _) => False
  | .run t r => ∀ k, s.point t = .work k →
      (k.usesStore = true → r.err = none) ∧
      ∀ account ∈ k.asksLive, ∀ sess ∈ s.shared.auth.store account, r.now < sess.refreshAt

instance (s : System) : DecidablePred (Undisturbed s) := by
  rintro (⟨_, _ | _⟩ | _) <;> dsimp only [Undisturbed] <;> infer_instance

/-! ## What is known about an account -/

/-- No login was accepted, and the store is empty. -/
def Fresh (s : Shared) (account : AccountID) : Prop :=
  s.auth.store account = none ∧ s.logins account = 0

/-- The store has the session. -/
def Stored (s : Shared) (account : AccountID) (sess : Session) : Prop :=
  s.auth.store account = some sess ∧ s.logins account ≤ 1

/-- No login of the account is under way. -/
def Settled (s : Shared) (account : AccountID) : Prop :=
  Fresh s account ∨ ∃ sess, Stored s account sess

/-- No flight of the account is in the air. -/
def Grounded (s : Shared) (account : AccountID) : Prop := s.auth.pending account = false

/-- A caller that has joined an attempt: it is under way, or its session is in the store. -/
def Joined (s : Shared) (account : AccountID) (n : ℕ) : Prop :=
  s.pending account = some n ∨
    ∃ result, s.attempts n = some result ∧ ∀ sess, result = .ok sess → s.auth.store account = some sess

/-- What a thread knows before a section. -/
def Section.Knows (s : Shared) : Section → Prop
  | .begin _ => True
  | .publish account _ (.ok sess) => Stored s account sess ∧ Grounded s account
  | .publish account _ (.error _) => Fresh s account ∧ Grounded s account
  | .auth _ (.begin account) => Fresh s account ∧ Grounded s account
  | .auth _ (.finish account _ (.ok sess)) => Stored s account sess
  | .auth _ (.finish account _ (.error _)) => Fresh s account

/-- And outside the sections. -/
def Work.Knows (s : Shared) : Work → Prop
  | .login _ _ => True
  | .join account n => Joined s account n
  | .lead account _ => Settled s account ∧ Grounded s account
  | .auth _ (.await _ _) | .auth _ (.follow _ _) => False
  | .auth _ (.encrypt account _) | .auth _ (.request account _) => Fresh s account
  | .auth _ (.save account _ _) => s.auth.store account = none ∧ s.logins account = 1
  | .auth _ (.read account _) => ∃ sess, Stored s account sess
  | .discard account _ _ => Fresh s account ∧ Grounded s account
  | _ => False

/-- What a thread knows at a point. -/
def Knows (s : Shared) : Exit Section Work → Prop
  | .ret => True
  | .enter c => c.Knows s
  | .go k => k.Knows s

/-- What holds of all accounts. -/
structure Single (s : Shared) : Prop where
  gate : ∀ {account}, s.pending account = none → Settled s account ∧ Grounded s account
  most : ∀ account, s.logins account ≤ 1
  same : ∀ r ∈ s.returns, ∀ held, r.result = .ok held →
    ∃ sess, s.auth.store r.account = some sess ∧ held = tradeSessionFrom sess

/-- Nothing about the account has changed. -/
structure Alike (s s' : Shared) (account : AccountID) : Prop where
  store : s'.auth.store account = s.auth.store account
  logins : s'.logins account = s.logins account
  pending : s'.auth.pending account = s.auth.pending account

variable {n : ℕ} {x : Exit Section Work} {result : Auth.Result}

section

variable {s s' : Shared} {account : AccountID} {sess : Session}

theorem Fresh.alike (h : Fresh s account) (ha : Alike s s' account) : Fresh s' account :=
  ⟨ha.store.trans h.1, ha.logins.trans h.2⟩

theorem Stored.alike (h : Stored s account sess) (ha : Alike s s' account) :
    Stored s' account sess :=
  ⟨ha.store.trans h.1, ha.logins.trans_le h.2⟩

theorem Settled.alike (h : Settled s account) (ha : Alike s s' account) : Settled s' account := by
  rcases h with hfresh | ⟨sess, hstored⟩
  · exact .inl (hfresh.alike ha)
  · exact .inr ⟨sess, hstored.alike ha⟩

theorem Grounded.alike (h : Grounded s account) (ha : Alike s s' account) : Grounded s' account :=
  ha.pending.trans h

/-- What a leader knows is about its account. -/
theorem Knows.alike (hx : led x = some (account, n)) (ha : Alike s s' account) (h : Knows s x) :
    Knows s' x := by
  cases x with
  | ret => cases hx
  | enter c =>
    cases c with
    | begin a => cases hx
    | publish a m result =>
      cases hx
      cases result with
      | _ => exact ⟨h.1.alike ha, h.2.alike ha⟩
    | auth m c =>
      cases hx
      cases c with
      | begin a => exact ⟨h.1.alike ha, h.2.alike ha⟩
      | finish a flight result =>
        cases result with
        | ok sess => exact Stored.alike h ha
        | error err => exact Fresh.alike h ha
  | go k =>
    cases k with
    | login _ _ | join _ _ | logout _ | logoutRequest _ | logoutClear _ => cases hx
    | lead | discard =>
      cases hx
      exact ⟨h.1.alike ha, h.2.alike ha⟩
    | auth m k =>
      cases hx
      cases k with
      | await _ _ | follow _ _ => exact h.elim
      | encrypt a flight | request a flight => exact Fresh.alike h ha
      | save a flight token => exact ⟨ha.store.trans h.1, ha.logins.trans h.2⟩
      | read a flight =>
        obtain ⟨sess, hsess⟩ := h
        exact ⟨sess, hsess.alike ha⟩

/-- What a thread knows outlives the actions of others that leave its account alone. -/
theorem Knows.other (h : Knows s x)
    (halike : ∀ account n, led x = some (account, n) → Alike s s' account)
    (hjoin : ∀ account n, Joined s account n → Joined s' account n) : Knows s' x := by
  cases hled : led x with
  | some a => exact h.alike hled (halike a.1 a.2 hled)
  | none =>
    cases x with
    | ret => trivial
    | enter c =>
      cases c with
      | begin a => trivial
      | _ => cases hled
    | go k =>
      cases k with
      | login _ _ => trivial
      | join a n => exact hjoin a n h
      | logout _ | logoutRequest _ | logoutClear _ => exact h.elim
      | _ => cases hled

/-! ## What the actions do to an account -/

/-- A session in the store stays there. -/
def StoreGrows (s s' : Shared) : Prop :=
  ∀ account sess, s.auth.store account = some sess → s'.auth.store account = some sess

theorem Joined.frame (h : Joined s account n) (hgate : GateFrame s s') (hstore : StoreGrows s s') :
    Joined s' account n := by
  rcases h with hpending | ⟨result, hresult, hsess⟩
  · exact .inl ((congrFun hgate.pending account).trans hpending)
  · exact .inr ⟨result, (congrFun hgate.attempts n).trans hresult,
      fun sess hok => hstore account sess (hsess sess hok)⟩

/-- What a leader does is about its account. -/
structure Local (s s' : Shared) (account : AccountID) : Prop where
  gate : GateFrame s s'
  store : StoreGrows s s'
  alike : ∀ other, other ≠ account → Alike s s' other
  most : s'.logins account ≤ 1
  returns : s'.returns = s.returns

theorem Single.local (h : Single s) (hlocal : Local s s' account)
    (hbusy : s.pending account ≠ none) : Single s' := by
  constructor
  case gate =>
    intro other hfree
    rw [hlocal.gate.pending] at hfree
    have hne : other ≠ account := by
      rintro rfl
      exact hbusy hfree
    obtain ⟨hsettled, hgrounded⟩ := h.gate hfree
    exact ⟨hsettled.alike (hlocal.alike other hne), hgrounded.alike (hlocal.alike other hne)⟩
  case most =>
    intro other
    by_cases hne : other = account
    · rw [hne]
      exact hlocal.most
    · rw [(hlocal.alike other hne).logins]
      exact h.most other
  case same =>
    intro r hr held hheld
    rw [hlocal.returns] at hr
    obtain ⟨sess, hsess, hfrom⟩ := h.same r hr held hheld
    exact ⟨sess, hlocal.store _ sess hsess, hfrom⟩

/-- A call that returns a session returns the one in the store. -/
theorem Single.return (h : Single s) {role : Role} {result : Except GoError TradeSession}
    (hnew : ∀ held, result = .ok held →
      ∃ sess, s.auth.store account = some sess ∧ held = tradeSessionFrom sess) :
    Single (s.return account role result) := by
  refine ⟨h.gate, h.most, ?_⟩
  intro r hr
  rcases List.mem_cons.mp hr with rfl | hold
  · exact hnew
  · exact h.same r hold

theorem loginResult_ok {held : TradeSession} (h : loginResult result = .ok held) :
    ∃ sess, result = .ok sess ∧ held = tradeSessionFrom sess := by
  cases result with
  | error err => cases h
  | ok sess =>
    simp only [loginResult] at h
    split at h <;> cases h
    exact ⟨sess, rfl, rfl⟩

/-- The gate opens for an account of which all is known. -/
theorem Single.begin (h : Single s) (hfree : s.pending account = none) :
    Single { s with
      pending := update s.pending account (some s.begun), begun := s.begun + 1 } := by
  refine ⟨fun {other} hother => ?_, h.most, h.same⟩
  have hne : other ≠ account := by
    rintro rfl
    simp only [update_self] at hother
    cases hother
  simp only [update_of_ne hne] at hother
  exact h.gate hother

theorem Joined.begin {other : AccountID} (h : Joined s other n) (hfree : s.pending account = none) :
    Joined { s with
      pending := update s.pending account (some s.begun), begun := s.begun + 1 } other n := by
  refine h.imp_left fun hpending => ?_
  have hne : other ≠ account := by
    rintro rfl
    cases hfree.symm.trans hpending
  exact (update_of_ne hne ..).trans hpending

theorem Single.publish (h : Single s) (hknows : (Section.publish account n result).Knows s) :
    Single (body s (.publish account n result)).1 := by
  have hknown : Settled s account ∧ Grounded s account := by
    cases result with
    | ok sess => exact ⟨.inr ⟨sess, hknows.1⟩, hknows.2⟩
    | error err => exact ⟨.inl hknows.1, hknows.2⟩
  have hopen : Single { s with
      attempts := update s.attempts n (some result)
      pending := update s.pending account none } := by
    refine ⟨fun {other} hother => ?_, h.most, h.same⟩
    by_cases hne : other = account
    · rw [hne]
      exact hknown
    · simp only [update_of_ne hne] at hother
      exact h.gate hother
  refine hopen.return fun held hheld => ?_
  obtain ⟨sess, rfl, hfrom⟩ := loginResult_ok hheld
  exact ⟨sess, hknows.1.1, hfrom⟩

/-- Those that have joined the attempt find its session in the store. -/
theorem Joined.publish {m : ℕ} {other : AccountID} (h : Joined s other m) (hattempts : Attempts s)
    (hn : s.pending account = some n) (hknows : (Section.publish account n result).Knows s) :
    Joined (body s (.publish account n result)).1 other m := by
  rcases h with hpending | ⟨outcome, houtcome, hsess⟩
  · by_cases hne : other = account
    · subst hne
      obtain rfl : n = m := Option.some.inj (hn.symm.trans hpending)
      refine .inr ⟨result, update_self .., ?_⟩
      rintro sess rfl
      exact hknows.1.1
    · exact .inl ((update_of_ne hne ..).trans hpending)
  · have hne : m ≠ n := by
      rintro rfl
      cases (hattempts.open_ hn).symm.trans houtcome
    exact .inr ⟨outcome, (update_of_ne hne ..).trans houtcome, hsess⟩

/-! ## The flight of a leader -/

theorem local_authBody (h : Single s) (c : Auth.Section) :
    Local s { s with auth := (Auth.body s.auth c).1 } c.account where
  gate := ⟨rfl, rfl, rfl⟩
  store := fun a sess hsess => by
    rw [Auth.store_body]
    exact hsess
  alike := by
    intro other hne
    refine ⟨by rw [Auth.store_body], rfl, ?_⟩
    cases c with
    | begin a =>
      simp only [Auth.body]
      split
      · rfl
      · exact update_of_ne hne ..
    | finish a flight result => exact update_of_ne hne ..
  most := h.most _
  returns := rfl

/-- The flight begins with nobody in the air, and when it ends the leader has a session that
is in the store, or an error and there is none. -/
theorem knows_authBody {c : Auth.Section} (h : (Section.auth n c).Knows s) :
    Knows { s with auth := (Auth.body s.auth c).1 } (proceed c.account n (Auth.body s.auth c).2) := by
  cases c with
  | begin a =>
    obtain ⟨hfresh, hgrounded⟩ := h
    simp only [Auth.body, show s.auth.pending a = false from hgrounded, Bool.false_eq_true, if_false]
    exact hfresh
  | finish a flight result =>
    cases result with
    | _ => exact ⟨h, update_self ..⟩

/-- What a leader does in the air: it makes a request when none was accepted, and saves the
session when the store is empty. -/
theorem authActs {k : Auth.Work} {r : Reply} {out : Auth.State × Auth.Next} (hs : Single s)
    (h : Auth.Acts wireLogin s.auth k r out) (hknows : (Work.auth n k).Knows s)
    (hstore : (Work.auth n k).usesStore = true → r.err = none) :
    Local s ({ s with auth := out.1 }.acknowledge k r) k.account ∧
      Knows ({ s with auth := out.1 }.acknowledge k r) (proceed k.account n out.2) := by
  have hsame : ∀ a, Local s s a := fun a =>
    ⟨⟨rfl, rfl, rfl⟩, fun _ _ => id, fun _ _ => ⟨rfl, rfl, rfl⟩, hs.most a, rfl⟩
  cases h with
  | cancel | wake | follow => exact hknows.elim
  | unencrypted | send => exact ⟨hsame _, hknows⟩
  | refused hrefused =>
    rw [acknowledge_error _ _ _ hrefused]
    exact ⟨hsame _, hknows⟩
  | @accepted a flight _ token haccepted =>
    obtain ⟨hempty, hnone⟩ := hknows
    rw [acknowledge_ok _ _ haccepted]
    have hone : update s.logins a (s.logins a + 1) a = 1 := by
      rw [update_self, hnone]
    refine ⟨⟨⟨rfl, rfl, rfl⟩, fun _ _ => id, fun other hne => ?_, Nat.le_of_eq hone, rfl⟩, hempty, hone⟩
    exact ⟨rfl, update_of_ne hne .., rfl⟩
  | unsaved hunsaved => cases (hstore rfl).symm.trans hunsaved
  | @saved a flight token _ _ =>
    obtain ⟨hempty, hone⟩ := hknows
    refine ⟨⟨⟨rfl, rfl, rfl⟩, fun b sess hsess => ?_, fun other hne => ?_, Nat.le_of_eq hone, rfl⟩,
      _, update_self .., Nat.le_of_eq hone⟩
    · have hne : b ≠ a := by
        rintro rfl
        cases hempty.symm.trans hsess
      exact (update_of_ne hne ..).trans hsess
    · exact ⟨update_of_ne hne .., rfl, rfl⟩
  | @read a flight _ =>
    obtain ⟨sess, hsess⟩ := hknows
    have hread : s.auth.sessionFromStore a r = .ok sess := by
      simp only [Auth.State.sessionFromStore, hstore rfl, hsess.1]
    refine ⟨hsame _, ?_⟩
    rw [hread]
    exact hsess

end

/-! ## The guarantee -/

/-- To clear a store that has no session changes nothing. -/
theorem clear_of_empty {s : Shared} {account : AccountID} (h : s.auth.store account = none) :
    { s with auth := s.auth.clear account } = s := by
  have hstore : update s.auth.store account none = s.auth.store := by
    rw [← h, update_eq_self]
  rw [Auth.State.clear, hstore]

theorem Knows.return {s : Shared} {account : AccountID} {role : Role}
    {result : Except GoError TradeSession} (h : Knows s x) :
    Knows (s.return account role result) x :=
  h.other (fun _ _ _ => ⟨rfl, rfl, rfl⟩) fun _ _ => id

section

variable [UnicodeTables]

/-- The gate has one holder for each account, and the run is not disturbed. -/
structure Quiet (s : System) (a : Action) : Prop where
  held : GateHeld s
  attempts : Sound program Attempts (fun s p => Leads s p.next) s
  undisturbed : Undisturbed s a

variable {s : System}

/-- A session that is asked for is not due. -/
theorem Quiet.live {t : ℕ} {r : Reply} (h : Quiet s (.run t r)) {k : Work}
    (ht : s.point t = .work k) {account : AccountID} (hasks : k.asksLive = some account)
    {sess : Session} (hsess : s.shared.auth.store account = some sess) :
    sess.shouldRefresh r.now = false := by
  have hnow : r.now < sess.refreshAt := (h.undisturbed k ht).2 account hasks sess hsess
  exact decide_eq_false (Int64.not_le.mpr hnow)

/-- What a leader does keeps the records, and what the other threads know. -/
theorem Quiet.flight {t : ℕ} {r : Reply} (h : Quiet s (.run t r)) (hs : Single s.shared)
    {account : AccountID} (hled : led (s.point t).next = some (account, n)) {shared : Shared}
    (hlocal : Local s.shared shared account) : Single shared ∧
      ∀ t', t' ≠ t → Knows s.shared (s.point t').next → Knows shared (s.point t').next := by
  have hbusy : s.shared.pending account ≠ none := by
    rw [h.attempts.assert t account n hled]
    exact nofun
  refine ⟨hs.local hlocal hbusy, fun t' hne hother => ?_⟩
  exact hother.other (fun a m ha => hlocal.alike a (h.held.ne hne hled ha))
    fun _ _ hj => hj.frame hlocal.gate hlocal.store

/-- What the threads know about the logins. -/
theorem reuseOutline : NextOutline (τ := ℕ) program Quiet Single Knows := by
  refine .of_acts (fun {s t a x} hquiet _ hx => ?_) (fun {s t r c} hs hquiet ht hknows => ?_)
    fun {s t r k shared x} hs hquiet ht hk hknows => ?_
  · cases a with
    | login account password =>
      cases hx
      trivial
    | logout account => exact hquiet.undisturbed.elim
  · cases c with
    | begin account =>
      simp only [program, body]
      split
      · exact ⟨{ hs.inv with }, .inl ‹_›,
          fun _ _ hother => hother.other (fun _ _ _ => ⟨rfl, rfl, rfl⟩) fun _ _ => id⟩
      · exact ⟨hs.inv.begin ‹_›, hs.inv.gate ‹_›,
          fun _ _ hother => hother.other (fun _ _ _ => ⟨rfl, rfl, rfl⟩) fun _ _ hj => hj.begin ‹_›⟩
    | publish account n result =>
      have hn : s.shared.pending account = some n := hquiet.attempts.at_point ht account n rfl
      exact ⟨hs.inv.publish hknows, trivial, fun _ _ hother => hother.other
        (fun _ _ _ => ⟨rfl, rfl, rfl⟩) fun _ _ hj => hj.publish hquiet.attempts.inv hn hknows⟩
    | auth n c =>
      obtain ⟨hinv, hothers⟩ := hquiet.flight hs.inv (by rw [ht]; rfl) (local_authBody hs.inv c)
      exact ⟨hinv, knows_authBody hknows, hothers⟩
  · have hstore := (hquiet.undisturbed k ht).1
    cases work_acts hk with
    | refused | cancelled => exact ⟨hs.inv.return (by rintro _ ⟨⟩), trivial, fun _ _ => Knows.return⟩
    | held hsess =>
      refine ⟨hs.inv.return fun held hheld => ⟨_, hsess, ?_⟩, trivial, fun _ _ => Knows.return⟩
      exact (Except.ok.inj hheld).symm
    | unheld => exact ⟨hs.inv, trivial, fun _ _ => id⟩
    | joined hresult =>
      refine ⟨hs.inv.return fun held hheld => ?_, trivial, fun _ _ => Knows.return⟩
      obtain ⟨sess, rfl, hfrom⟩ := loginResult_ok hheld
      rcases hknows with hpending | ⟨outcome, houtcome, hsess⟩
      · cases (hquiet.attempts.inv.open_ hpending).symm.trans hresult
      · exact ⟨sess, hsess sess (Option.some.inj (houtcome.symm.trans hresult)), hfrom⟩
    | reused hsess => exact ⟨hs.inv, ⟨⟨hsess, hs.inv.most _⟩, hknows.2⟩, fun _ _ => id⟩
    | led hdue =>
      obtain ⟨hsettled, hgrounded⟩ := hknows
      refine ⟨hs.inv, ⟨?_, hgrounded⟩, fun _ _ => id⟩
      rcases hsettled with hfresh | ⟨sess, hsess⟩
      · exact hfresh
      · cases (hquiet.live ht rfl hsess.1).symm.trans (hdue (hstore rfl) sess hsess.1)
    | auth hauth =>
      obtain ⟨hlocal, hnext⟩ := authActs hs.inv hauth hknows hstore
      obtain ⟨hinv, hothers⟩ := hquiet.flight hs.inv (by rw [ht]; rfl) hlocal
      exact ⟨hinv, hnext, hothers⟩
    | discarded =>
      rw [clear_of_empty hknows.1.1]
      exact ⟨hs.inv, hknows, fun _ _ => id⟩
    | kept => exact ⟨hs.inv, hknows, fun _ _ => id⟩
    | _ => exact hknows.elim

/-- All calls that succeed for an account return the same session. -/
def SameSession (s : System) : Prop :=
  ∀ r ∈ s.shared.returns, ∀ r' ∈ s.shared.returns, r.account = r'.account →
    ∀ held held', r.result = .ok held → r'.result = .ok held' → held = held'

omit [UnicodeTables] in
theorem Single.sameSession (h : Single s.shared) : SameSession s := by
  intro r hr r' hr' haccount held held' hheld hheld'
  obtain ⟨sess, hsess, rfl⟩ := h.same r hr held hheld
  obtain ⟨sess', hsess', rfl⟩ := h.same r' hr' held' hheld'
  rw [haccount] at hsess
  rw [Option.some.inj (hsess.symm.trans hsess')]

/-- The gate is held by one thread for each account, and the attempts are in order. -/
abbrev Orderly (s : System) : Prop :=
  GateHeld s ∧ Sound program Attempts (fun s p => Leads s p.next) s

omit [UnicodeTables] in
theorem attempts_init (store : AccountID → Option Session) : Attempts (init store).shared := by
  constructor <;> intros <;> first | rfl | contradiction

theorem Orderly.step {s' : System} {a : Action} (h : Orderly s)
    (hstep : SessionService.step s a = some s') : Orderly s' :=
  ⟨gateTokens.step h.1 trivial hstep, attemptsOutline.step h.2 h.1 hstep⟩

theorem orderly_init (store : AccountID → Option Session) : Orderly (init store) :=
  ⟨held_init _ (by rintro _ ⟨n, hn⟩; cases hn), sound_init (attempts_init store) nofun⟩

/-- **Logins coalesce.** In every run at most one login request is in flight for each
account, and a caller that has joined an attempt returns what its leader returns. If nobody
logs out, the store is reliable and no session comes due, at most one login of an account is
accepted, and all calls that succeed return the same session. -/
theorem login_coalesces (store : AccountID → Option Session) (run : List Action) :
    Always step (fun s => SingleFlight s ∧ Coalesced s) (init store) run ∧
    (EachStep step Undisturbed (init store) run →
      Always step (fun s => (∀ account, s.shared.logins account ≤ 1) ∧ SameSession s)
        (init store) run) := by
  refine ⟨?_, fun hquiet => ?_⟩
  · have hall : Always step (fun s => Orderly s ∧
        Accounted (fun s n => s.begun ≤ n ∨ ∃ r ∈ s.returns, r.role = .led n)
          (fun x n => ∃ account, led x = some (account, n)) s) (init store) run := by
      refine always_of_step (fun s a s' hs hstep => ?_)
        ⟨orderly_init store, fun n => .inl (.inl (Nat.zero_le n))⟩ run
      exact ⟨hs.1.step hstep, leaderDebts.step hs.2 trivial hstep⟩
    exact hall.mono fun s hs =>
      ⟨singleFlight_of_gateHeld hs.1.1, coalesced_of_attempts hs.1.2.inv hs.2⟩
  · have hsingle : Single (init store).shared := by
      refine ⟨fun {account} _ => ⟨?_, rfl⟩, fun _ => Nat.zero_le 1, nofun⟩
      cases hstore : store account with
      | none => exact .inl ⟨hstore, rfl⟩
      | some sess => exact .inr ⟨sess, hstore, Nat.zero_le 1⟩
    have hall : Always step (fun s => Orderly s ∧ Sound program Single (fun s p => Knows s p.next) s)
        (init store) run := by
      refine hquiet.always (fun s a s' hs hcond hstep => ?_)
        ⟨orderly_init store, sound_init hsingle trivial⟩
      exact ⟨hs.1.step hstep, reuseOutline.step hs.2 ⟨hs.1.1, hs.1.2, hcond⟩ hstep⟩
    exact hall.mono fun s hs => ⟨hs.2.inv.most, hs.2.inv.sameSession⟩

end

/-- Thread `0` leads, thread `1` joins it, and thread `2` comes later. -/
def threeLogins : List Action :=
  acts 0 (.login (bytes "a") (bytes "p")) 4 ++ acts 1 (.login (bytes "a") (bytes "p")) 4 ++
    actsOn 0 14 ++ actsOn 1 1 ++ acts 2 (.login (bytes "a") (bytes "p")) 1

theorem login_coalesces_threeLogins :
    (exec (@step asciiTables) (init fun _ => none) threeLogins).any (fun s =>
      s.shared.returns.length == 3 && s.shared.returns.all (·.result.isOk)) = true ∧
    Always (@step asciiTables) (fun s => (∀ account, s.shared.logins account ≤ 1) ∧ SameSession s)
      (init fun _ => none) threeLogins :=
  ⟨by decide +kernel,
    (@login_coalesces asciiTables (fun _ => none) threeLogins).2 (by decide +kernel)⟩

end HstongApi.SessionService
