import HstongApi.Auth

/-!
# The session service

`SessionService.Login` returns the session that the store holds for the account while it is
not due for refresh, and establishes one otherwise. Concurrent logins of an account meet at
the login gate: one caller leads an attempt, and the others join it and wait for its
outcome or for their own context. The leader reads the store again, since it may have lost
the race to an attempt that has ended meanwhile, and only then calls `Authenticator.Login`.
It publishes what came out, and all callers of the attempt return it.

`SessionService.Logout` takes no part in this: it reads the store, makes its request and
clears the store in three steps without a lock.

The program runs the actions of `Authenticator.Login` within the calls of a leader. There
are two mutexes, the one of the gate and the one of the token manager. The fields `gateway`,
`logins`, `returns` and `logouts` record what has happened; no action reads them.
-/

namespace HstongApi.SessionService

open Threads
open Auth (AccountID Session)

/-! ## Sessions, replies and results -/

/-- `opTradeLogin` -/
def opTradeLogin : Bytes := bytes "trade/TradeLogin"

/-- `opTradeLogout` -/
def opTradeLogout : Bytes := bytes "trade/TradeLogout"

@[inherit_doc Auth.Reply]
abbrev Reply : Type := Auth.Reply

/-- `domain.TradeSession` -/
structure TradeSession where
  accountID : AccountID
  token : Bytes
  expiresAt : Int64
  refreshAt : Int64
  deriving DecidableEq

/-- `tradeSessionFrom` -/
def tradeSessionFrom (sess : Session) : TradeSession :=
  ⟨sess.accountID, sess.token, sess.expiry, sess.refreshAt⟩

/-- The session that `lead` makes of one that is held. -/
def TradeSession.session (held : TradeSession) : Session :=
  ⟨held.token, held.accountID, held.expiresAt, held.refreshAt⟩

/-- `TradeSessionAcceptedFromDTO` -/
def tradeSessionAccepted (r : Reply) : Bool :=
  match r.success with
  | some success => success
  | none => r.data != []

/-- `wireLogin`: the token, or why there is none. -/
def wireLogin (r : Reply) : Except GoError Bytes :=
  match r.err with
  | some err => .error err
  | none =>
    if tradeSessionAccepted r then .ok r.data
    else .error (GoError.new [] opTradeLogin (bytes "trade login was rejected"))

/-- `sessionUnusable` -/
def sessionUnusable (cause : GoError) : Bool := cause.categoryOf == .account

/-- What `Login` makes of the outcome of an attempt. -/
def loginResult : Auth.Result → Except GoError TradeSession
  | .error err => .error err
  | .ok sess =>
    if sess.accountID = [] then
      .error (GoError.new [] opTradeLogin
        (bytes "the session store did not return the session that was just established"))
    else .ok (tradeSessionFrom sess)

/-- Whose call of `Login` returns. -/
inductive Role
  /-- it has no outcome of an attempt -/
  | alone
  | led (attempt : ℕ)
  | joined (attempt : ℕ)
  deriving DecidableEq

/-- A call of `Login` that has returned. -/
structure Return where
  account : AccountID
  role : Role
  result : Except GoError TradeSession
  deriving DecidableEq

/-- What the threads share. -/
structure Shared where
  auth : Auth.State
  /-- the attempt in flight for each account -/
  pending : AccountID → Option ℕ := fun _ => none
  /-- the outcomes of the attempts whose channel is closed -/
  attempts : ℕ → Option Auth.Result := fun _ => none
  /-- the number of callers that have joined each attempt -/
  waiting : ℕ → ℕ := fun _ => 0
  /-- how many attempts were made -/
  begun : ℕ := 0
  /-- the Gateway has a session for the account -/
  gateway : AccountID → Bool
  /-- how many logins the Gateway has accepted -/
  logins : AccountID → ℕ := fun _ => 0
  returns : List Return := []
  /-- the calls of `Logout` that have returned -/
  logouts : List (AccountID × Option GoError) := []

/-- `liveSession` -/
def Shared.liveSession (s : Shared) (account : AccountID) (r : Reply) :
    Except GoError (Option TradeSession) :=
  match r.err with
  | some err => .error err
  | none =>
    match s.auth.store account with
    | none => .ok none
    | some sess => if sess.shouldRefresh r.now then .ok none else .ok (some (tradeSessionFrom sess))

/-- A call of `Login` returns. -/
def Shared.return (s : Shared) (account : AccountID) (role : Role)
    (result : Except GoError TradeSession) : Shared :=
  { s with returns := ⟨account, role, result⟩ :: s.returns }

/-- A call of `Logout` returns. -/
def Shared.logoutReturn (s : Shared) (account : AccountID) (err : Option GoError) : Shared :=
  { s with logouts := (account, err) :: s.logouts }

/-! ## Points -/

/-- The actions under a lock. -/
inductive Section
  /-- `loginGate.begin` -/
  | begin (account : AccountID)
  /-- `loginGate.publish`, after which the leader returns -/
  | publish (account : AccountID) (attempt : ℕ) (result : Auth.Result)
  /-- a section of `Authenticator.Login` -/
  | auth (attempt : ℕ) (c : Auth.Section)
  deriving DecidableEq

/-- The actions without a lock. -/
inductive Work
  /-- `Login`: its checks, and `liveSession` -/
  | login (account : AccountID) (password : Bytes)
  /-- a caller waits for the attempt or for its context -/
  | join (account : AccountID) (attempt : ℕ)
  /-- `lead`: `liveSession` again -/
  | lead (account : AccountID) (attempt : ℕ)
  /-- an action of `Authenticator.Login` -/
  | auth (attempt : ℕ) (k : Auth.Work)
  /-- `discardUnusable` after an error -/
  | discard (account : AccountID) (attempt : ℕ) (err : GoError)
  /-- `Logout`: its check, and `GetSession` -/
  | logout (account : AccountID)
  /-- its request is in flight -/
  | logoutRequest (account : AccountID)
  /-- and the store is cleared -/
  | logoutClear (account : AccountID)
  deriving DecidableEq

/-- The action is an operation of the store. -/
def Work.usesStore : Work → Bool
  | .login _ _ | .lead _ _ | .discard _ _ _ | .logout _ | .logoutClear _ => true
  | .auth _ (.save _ _ _) | .auth _ (.read _ _) | .auth _ (.follow _ _) => true
  | .auth _ (.await _ _) | .auth _ (.encrypt _ _) | .auth _ (.request _ _) => false
  | .join _ _ | .logoutRequest _ => false

/-- The calls. -/
inductive Call
  | login (account : AccountID) (password : Bytes)
  | logout (account : AccountID)
  deriving DecidableEq

/-- The mutexes. -/
inductive Mutex
  | gate
  | tokens
  deriving DecidableEq

/-! ## Actions -/

/-- The leader of an attempt goes on after an action of `Authenticator.Login`. -/
def proceed (account : AccountID) (attempt : ℕ) : Auth.Next → Exit Section Work
  | .done _ (.ok sess) => .enter (.publish account attempt (.ok sess))
  | .done _ (.error err) => .go (.discard account attempt err)
  | .enter c => .enter (.auth attempt c)
  | .go k => .go (.auth attempt k)

/-- The gate, and the sections of `Authenticator.Login`. -/
def body (s : Shared) : Section → Shared × Exit Section Work
  | .begin account =>
    match s.pending account with
    | some n => ({ s with waiting := Function.update s.waiting n (s.waiting n + 1) }, .go (.join account n))
    | none =>
      ({ s with pending := Function.update s.pending account (some s.begun), begun := s.begun + 1 },
        .go (.lead account s.begun))
  | .publish account n result =>
    ({ s with
        attempts := Function.update s.attempts n (some result)
        pending := Function.update s.pending account none }.return account (.led n)
          (loginResult result), .ret)
  | .auth n c => ({ s with auth := (Auth.body s.auth c).1 }, proceed c.account n (Auth.body s.auth c).2)

/-- The Gateway answers the request of a login. -/
def Shared.acknowledge (s : Shared) (k : Auth.Work) (r : Reply) : Shared :=
  match k, wireLogin r with
  | .request account _, .ok _ =>
    { s with
      gateway := Function.update s.gateway account true
      logins := Function.update s.logins account (s.logins account + 1) }
  | _, _ => s

section

variable (s : Shared) (k : Auth.Work) (r : Reply)

@[simp] theorem acknowledge_pending : (s.acknowledge k r).pending = s.pending := by
  unfold Shared.acknowledge
  split <;> rfl

@[simp] theorem acknowledge_attempts : (s.acknowledge k r).attempts = s.attempts := by
  unfold Shared.acknowledge
  split <;> rfl

@[simp] theorem acknowledge_begun : (s.acknowledge k r).begun = s.begun := by
  unfold Shared.acknowledge
  split <;> rfl

@[simp] theorem acknowledge_auth : (s.acknowledge k r).auth = s.auth := by
  unfold Shared.acknowledge
  split <;> rfl

@[simp] theorem acknowledge_returns : (s.acknowledge k r).returns = s.returns := by
  unfold Shared.acknowledge
  split <;> rfl

theorem acknowledge_ok {account : AccountID} {flight : ℕ} {token : Bytes}
    (h : wireLogin r = .ok token) : s.acknowledge (.request account flight) r = { s with
      gateway := Function.update s.gateway account true
      logins := Function.update s.logins account (s.logins account + 1) } := by
  simp only [Shared.acknowledge, h]

theorem acknowledge_error {err : GoError} (h : wireLogin r = .error err) : s.acknowledge k r = s := by
  simp only [Shared.acknowledge, h]

end

variable [UnicodeTables]

/-- The actions without a lock. Only a caller that waits blocks. -/
def work (s : Shared) : Work → Reply → Option (Shared × Exit Section Work)
  | .login account password, r =>
    if account = [] then
      some (s.return account .alone (.error (GoError.new GoError.statusInvalidParam opTradeLogin
        (bytes "accountID must not be empty"))), .ret)
    else if trimSpace password = [] then
      some (s.return account .alone (.error (GoError.new GoError.statusInvalidParam opTradeLogin
        (bytes "trade password must not be empty"))), .ret)
    else
      match s.liveSession account r with
      | .error err => some (s.return account .alone (.error err), .ret)
      | .ok (some held) => some (s.return account .alone (.ok held), .ret)
      | .ok none => some (s, .enter (.begin account))
  | .join account n, r =>
    match r.ctxErr, s.attempts n with
    | some err, _ => some (s.return account .alone (.error err), .ret)
    | none, some result => some (s.return account (.joined n) (loginResult result), .ret)
    | none, none => none
  | .lead account n, r =>
    match s.liveSession account r with
    | .ok (some held) => some (s, .enter (.publish account n (.ok held.session)))
    -- an error of the store is not passed on
    | .ok none | .error _ => some (s, .enter (.auth n (.begin account)))
  | .auth n k, r =>
    (Auth.work wireLogin s.auth k r).map fun out =>
      ({ s with auth := out.1 }.acknowledge k r, proceed k.account n out.2)
  | .discard account n err, r =>
    let s' :=
      if sessionUnusable err = true ∧ r.err = none then { s with auth := s.auth.clear account } else s
    some (s', .enter (.publish account n (.error err)))
  | .logout account, r =>
    if account = [] then
      some (s.logoutReturn account (some (GoError.new GoError.statusInvalidParam opTradeLogout
        (bytes "accountID must not be empty"))), .ret)
    else
      match r.err, s.auth.store account with
      | some err, _ => some (s.logoutReturn account (some err), .ret)
      | none, none => some (s.logoutReturn account none, .ret)
      | none, some _ => some (s, .go (.logoutRequest account))
  | .logoutRequest account, r =>
    match r.err with
    | some err => some (s.logoutReturn account (some err), .ret)
    | none =>
      if tradeSessionAccepted r then
        some ({ s with gateway := Function.update s.gateway account false },
          .go (.logoutClear account))
      else
        some (s.logoutReturn account (some (GoError.new [] opTradeLogout
          (bytes "trade logout was rejected"))), .ret)
  | .logoutClear account, r =>
    match r.err with
    | some err => some (s.logoutReturn account (some err), .ret)
    | none => some ({ s with auth := s.auth.clear account }.logoutReturn account none, .ret)

/-- What an action without a lock can do. -/
inductive Acts (s : Shared) : Work → Reply → Shared × Exit Section Work → Prop
  | refused {account password r err} :
      Acts s (.login account password) r (s.return account .alone (.error err), .ret)
  | held {account password r sess} : s.auth.store account = some sess →
      Acts s (.login account password) r
        (s.return account .alone (.ok (tradeSessionFrom sess)), .ret)
  | unheld {account password r} : Acts s (.login account password) r (s, .enter (.begin account))
  | cancelled {account n r err} :
      Acts s (.join account n) r (s.return account .alone (.error err), .ret)
  | joined {account n r result} : s.attempts n = some result →
      Acts s (.join account n) r (s.return account (.joined n) (loginResult result), .ret)
  | reused {account n r sess} : s.auth.store account = some sess →
      Acts s (.lead account n) r (s, .enter (.publish account n (.ok sess)))
  | led {account n r} :
      (r.err = none → ∀ sess, s.auth.store account = some sess → sess.shouldRefresh r.now = true) →
      Acts s (.lead account n) r (s, .enter (.auth n (.begin account)))
  | auth {n k r out} : Auth.Acts wireLogin s.auth k r out →
      Acts s (.auth n k) r ({ s with auth := out.1 }.acknowledge k r, proceed k.account n out.2)
  | discarded {account n err r} : sessionUnusable err = true →
      Acts s (.discard account n err) r
        ({ s with auth := s.auth.clear account }, .enter (.publish account n (.error err)))
  | kept {account n err r} :
      Acts s (.discard account n err) r (s, .enter (.publish account n (.error err)))
  | unlogged {account r err} : Acts s (.logout account) r (s.logoutReturn account err, .ret)
  | logout {account r} : Acts s (.logout account) r (s, .go (.logoutRequest account))
  | logoutRefused {account r err} :
      Acts s (.logoutRequest account) r (s.logoutReturn account err, .ret)
  | logoutAccepted {account r} : Acts s (.logoutRequest account) r
      ({ s with gateway := Function.update s.gateway account false }, .go (.logoutClear account))
  | uncleared {account r err} : r.err = some err →
      Acts s (.logoutClear account) r (s.logoutReturn account (some err), .ret)
  | cleared {account r} : Acts s (.logoutClear account) r
      ({ s with auth := s.auth.clear account }.logoutReturn account none, .ret)

omit [UnicodeTables] in
/-- What `liveSession` finds. -/
theorem liveSession_some {s : Shared} {account : AccountID} {r : Reply} {held : TradeSession}
    (h : s.liveSession account r = .ok (some held)) :
    ∃ sess, s.auth.store account = some sess ∧ held = tradeSessionFrom sess := by
  simp only [Shared.liveSession] at h
  split at h
  · cases h
  · split at h
    · cases h
    · split at h <;> cases h
      exact ⟨_, ‹_›, rfl⟩

omit [UnicodeTables] in
/-- When it finds nothing, the store has no session or one that is due. -/
theorem shouldRefresh_of_liveSession {s : Shared} {account : AccountID} {r : Reply}
    (h : s.liveSession account r = .ok none ∨ ∃ err, s.liveSession account r = .error err)
    (hread : r.err = none) {sess : Session} (hstore : s.auth.store account = some sess) :
    sess.shouldRefresh r.now = true := by
  simp only [Shared.liveSession, hread, hstore] at h
  by_contra hlive
  rw [if_neg hlive] at h
  rcases h with h | ⟨err, h⟩ <;> cases h

theorem work_acts {s : Shared} {k : Work} {r : Reply} {out : Shared × Exit Section Work}
    (h : work s k r = some out) : Acts s k r out := by
  cases k with
  | login account password =>
    simp only [work] at h
    split at h
    · cases h
      exact .refused
    · split at h
      · cases h
        exact .refused
      · split at h <;> cases h
        · exact .refused
        · obtain ⟨sess, hstore, rfl⟩ := liveSession_some ‹_›
          exact .held hstore
        · exact .unheld
  | join account n =>
    simp only [work] at h
    split at h <;> cases h
    · exact .cancelled
    · exact .joined ‹_›
  | lead account n =>
    simp only [work] at h
    split at h <;> cases h
    · obtain ⟨sess, hstore, rfl⟩ := liveSession_some ‹_›
      exact .reused hstore
    · exact .led fun hread _ => shouldRefresh_of_liveSession (.inl ‹_›) hread
    · exact .led fun hread _ => shouldRefresh_of_liveSession (.inr ⟨_, ‹_›⟩) hread
  | auth n k =>
    obtain ⟨out, hout, rfl⟩ := Option.map_eq_some_iff.mp h
    exact .auth (Auth.work_acts hout)
  | discard account n err =>
    cases h
    split
    · rename_i hunusable
      exact .discarded hunusable.1
    · exact .kept
  | logout account =>
    simp only [work] at h
    split at h
    · cases h
      exact .unlogged
    · split at h <;> cases h
      · exact .unlogged
      · exact .unlogged
      · exact .logout
  | logoutRequest account =>
    simp only [work] at h
    split at h
    · cases h
      exact .logoutRefused
    · split at h <;> cases h
      · exact .logoutAccepted
      · exact .logoutRefused
  | logoutClear account =>
    simp only [work] at h
    split at h <;> cases h
    · exact .uncleared ‹_›
    · exact .cleared

/-- The session service as a program. -/
def program : Program Shared Reply Call Section Work Mutex where
  start := fun call _ =>
    match call with
    | .login account password => some (.go (.login account password))
    | .logout account => some (.go (.logout account))
  mutex := fun c =>
    match c with
    | .begin _ | .publish _ _ _ => .gate
    | .auth _ _ => .tokens
  body := fun c _ s => ((body s c).1, .leave (body s c).2)
  work := fun k r s => work s k r
  mutex_stay := nofun

/-- The threads are numbered. -/
abbrev System : Type := Threads.State Shared Section Work Mutex ℕ

/-- A thread is called, or does its next action. -/
abbrev Action : Type := Event Reply Call ℕ

/-- One step of the system. -/
def step : System → Action → Option System := program.step

/-- A new service over a store, where the Gateway has the sessions that the store has. -/
def init (store : AccountID → Option Session) : System :=
  .init { auth := { store := store }, gateway := fun account => (store account).isSome }

/-- A thread is called and does so many actions. All requests are accepted. -/
def acts (t : ℕ) (call : Call) (n : ℕ) : List Action :=
  .call t call :: List.replicate n (.run t { success := some true })

/-- A thread does so many more actions. -/
def actsOn (t n : ℕ) : List Action := List.replicate n (.run t { success := some true })

end HstongApi.SessionService
