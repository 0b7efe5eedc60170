import HstongApi.Errs
import HstongApi.Threads

/-!
# The authenticator

`Authenticator.Login` lets one caller log in to an account while the others wait for it.
The first caller of an account opens a *flight*: under the lock of the token manager it
marks the account as pending and makes a channel. It encrypts the password, makes the
request, saves the token, reads the session back, and closes the channel when it is done,
whatever has come out. The callers that find the account pending are followers of the
flight. They wait for the channel or for their own context, and then read the session from
the store.

A flight says nothing to its followers but that it has ended. What they return is what the
store holds when they read it.

The actions of `Login` are written once here, and say with `Next` how the call goes on, so
that the call can be part of a longer one. The store is linearizable: each of its
operations is one action, and may fail. The encryption, the Gateway and the clock are input.
The fields `stored` and `ended` record what has happened; no action reads them.
-/

namespace HstongApi.Auth

open Threads

/-! ## Sessions and the store -/

/-- `domain.AccountID` -/
abbrev AccountID : Type := Bytes

/-- `auth.Session` -/
structure Session where
  token : Bytes
  accountID : AccountID
  /-- in Unix seconds -/
  expiry : Int64
  refreshAt : Int64
  deriving DecidableEq

/-- `Session.ShouldRefresh` -/
def Session.shouldRefresh (sess : Session) (now : Int64) : Bool := decide (sess.refreshAt ≤ now)

/-- What `Login` returns. -/
abbrev Result : Type := Except GoError Session

/-- What an action learns from outside. -/
structure Reply where
  /-- the operation fails, or the context of a caller that waits is done -/
  err : Option GoError := none
  /-- the text of the answer -/
  data : Bytes := []
  /-- the flag of the answer -/
  success : Option Bool := none
  /-- the clock -/
  now : Int64 := 0
  deriving DecidableEq

/-- `ctx.Err` of a context that is done: it was cancelled, or its deadline has passed. -/
def Reply.ctxErr (r : Reply) : Option GoError :=
  r.err.map fun err => if err = .deadlineExceeded then .deadlineExceeded else .canceled

/-- `errSessionNotStored` -/
def errSessionNotStored : GoError :=
  .auth (bytes "session_not_stored")
    (bytes "login succeeded but the session could not be read back from the store")

/-- The token manager with its store. -/
structure State where
  /-- `tokenTTL` in seconds -/
  tokenTTL : Int64 := 10800
  store : AccountID → Option Session
  pending : AccountID → Bool := fun _ => false
  /-- the channel of each flight -/
  flights : AccountID → Option ℕ := fun _ => none
  /-- how many channels were made -/
  begun : ℕ := 0
  /-- the channels that are closed -/
  closed : List ℕ := []
  /-- the sessions that were saved, with the flight -/
  stored : List (ℕ × Session) := []
  /-- the flights that have ended, with what their leader returns -/
  ended : List (ℕ × Result) := []

/-- `defaultRefreshWindow` in seconds -/
def defaultRefreshWindow : Int64 := 600

/-- The session that `SaveToken` writes. -/
def State.session (s : State) (account : AccountID) (token : Bytes) (now : Int64) : Session :=
  { token := token
    accountID := account
    expiry := now + s.tokenTTL
    refreshAt := now + (s.tokenTTL - defaultRefreshWindow) }

/-- `SaveSession` for a flight. -/
def State.save (s : State) (flight : ℕ) (sess : Session) : State :=
  { s with
    store := Function.update s.store sess.accountID (some sess)
    stored := (flight, sess) :: s.stored }

/-- `ClearSession` -/
def State.clear (s : State) (account : AccountID) : State :=
  { s with store := Function.update s.store account none }

/-- `sessionFromStore` -/
def State.sessionFromStore (s : State) (account : AccountID) (r : Reply) : Result :=
  match r.err with
  | some err => .error err
  | none =>
    match s.store account with
    | some sess => .ok sess
    | none => .error errSessionNotStored

/-! ## The actions of `Login` -/

/-- The actions under the lock of the token manager. -/
inductive Section
  /-- `beginLogin` -/
  | begin (account : AccountID)
  /-- `endLogin` of the leader of a flight, which then returns -/
  | finish (account : AccountID) (flight : ℕ) (result : Result)
  deriving DecidableEq

/-- The actions without the lock. -/
inductive Work
  /-- a follower waits for the channel or for its context -/
  | await (account : AccountID) (flight : Option ℕ)
  /-- and reads the session -/
  | follow (account : AccountID) (flight : ℕ)
  /-- the leader encrypts the password and sends the request -/
  | encrypt (account : AccountID) (flight : ℕ)
  /-- the request is in flight -/
  | request (account : AccountID) (flight : ℕ)
  /-- `SaveToken` -/
  | save (account : AccountID) (flight : ℕ) (token : Bytes)
  /-- `sessionFromStore` of the leader -/
  | read (account : AccountID) (flight : ℕ)
  deriving DecidableEq

/-- The account of a call. -/
def Section.account : Section → AccountID
  | .begin a | .finish a _ _ => a

@[inherit_doc Section.account]
def Work.account : Work → AccountID
  | .await a _ | .follow a _ | .encrypt a _ | .request a _ | .save a _ _ | .read a _ => a

/-- Whose call returns. -/
inductive Role
  | leader (flight : ℕ)
  | follower (flight : Option ℕ)
  deriving DecidableEq

/-- How the call goes on. -/
inductive Next
  | done (role : Role) (result : Result)
  | enter (c : Section)
  | go (k : Work)

/-- `beginLogin` for an account that is not pending -/
def State.beginFlight (s : State) (account : AccountID) : State :=
  { s with
    pending := Function.update s.pending account true
    flights := Function.update s.flights account (some s.begun)
    begun := s.begun + 1 }

/-- `endLogin` -/
def State.endFlight (s : State) (account : AccountID) (flight : ℕ) (result : Result) : State :=
  { s with
    pending := Function.update s.pending account false
    flights := Function.update s.flights account none
    closed := (s.flights account).toList ++ s.closed
    ended := (flight, result) :: s.ended }

/-- `beginLogin` and `endLogin` -/
def body (s : State) : Section → State × Next
  | .begin account =>
    if s.pending account then (s, .go (.await account (s.flights account)))
    else (s.beginFlight account, .go (.encrypt account s.begun))
  | .finish account flight result =>
    (s.endFlight account flight result, .done (.leader flight) result)

/-- The other actions of `Login`, where `loginFn` makes a token or an error of the reply to
the request. Only a follower blocks. -/
def work (loginFn : Reply → Except GoError Bytes) (s : State) : Work → Reply → Option (State × Next)
  | .await account flight, r =>
    match r.ctxErr, flight with
    | some err, flight => some (s, .done (.follower flight) (.error err))
    | none, some flight => if flight ∈ s.closed then some (s, .go (.follow account flight)) else none
    | none, none => none
  | .follow account flight, r =>
    some (s, .done (.follower (some flight)) (s.sessionFromStore account r))
  | .encrypt account flight, r =>
    match r.err with
    | some _ => some (s, .enter (.finish account flight (.error (.text r.data))))
    | none => some (s, .go (.request account flight))
  | .request account flight, r =>
    match loginFn r with
    | .error err => some (s, .enter (.finish account flight (.error err)))
    | .ok token => some (s, .go (.save account flight token))
  | .save account flight token, r =>
    match r.err with
    | some err => some (s, .enter (.finish account flight (.error err)))
    | none => some (s.save flight (s.session account token r.now), .go (.read account flight))
  | .read account flight, r =>
    some (s, .enter (.finish account flight (s.sessionFromStore account r)))

/-- What an action without the lock can do. -/
inductive Acts (loginFn : Reply → Except GoError Bytes) (s : State) :
    Work → Reply → State × Next → Prop
  | cancel {account flight r err} : r.ctxErr = some err →
      Acts loginFn s (.await account flight) r (s, .done (.follower flight) (.error err))
  | wake {account flight r} : flight ∈ s.closed →
      Acts loginFn s (.await account (some flight)) r (s, .go (.follow account flight))
  | follow {account flight r} : Acts loginFn s (.follow account flight) r
      (s, .done (.follower (some flight)) (s.sessionFromStore account r))
  | unencrypted {account flight r} : Acts loginFn s (.encrypt account flight) r
      (s, .enter (.finish account flight (.error (.text r.data))))
  | send {account flight r} : Acts loginFn s (.encrypt account flight) r
      (s, .go (.request account flight))
  | refused {account flight r err} : loginFn r = .error err →
      Acts loginFn s (.request account flight) r (s, .enter (.finish account flight (.error err)))
  | accepted {account flight r token} : loginFn r = .ok token →
      Acts loginFn s (.request account flight) r (s, .go (.save account flight token))
  | unsaved {account flight token r err} : r.err = some err →
      Acts loginFn s (.save account flight token) r (s, .enter (.finish account flight (.error err)))
  | saved {account flight token r} : r.err = none → Acts loginFn s (.save account flight token) r
      (s.save flight (s.session account token r.now), .go (.read account flight))
  | read {account flight r} : Acts loginFn s (.read account flight) r
      (s, .enter (.finish account flight (s.sessionFromStore account r)))

variable {loginFn : Reply → Except GoError Bytes} {s : State} {k : Work} {r : Reply}
  {out : State × Next}

theorem work_acts (h : work loginFn s k r = some out) : Acts loginFn s k r out := by
  cases k with
  | await account flight =>
    simp only [work] at h
    split at h
    · cases h
      exact .cancel ‹_›
    · obtain ⟨hclosed, heq⟩ := Option.ite_none_right_eq_some.mp h
      cases heq
      exact .wake hclosed
    · cases h
  | follow account flight =>
    cases h
    exact .follow
  | encrypt account flight =>
    simp only [work] at h
    split at h <;> cases h
    · exact .unencrypted
    · exact .send
  | request account flight =>
    simp only [work] at h
    split at h <;> cases h
    · exact .refused ‹_›
    · exact .accepted ‹_›
  | save account flight token =>
    simp only [work] at h
    split at h <;> cases h
    · exact .unsaved ‹_›
    · exact .saved ‹_›
  | read account flight =>
    cases h
    exact .read

/-- The sections do not touch the store. -/
theorem store_body (s : State) (c : Section) : (body s c).1.store = s.store := by
  cases c with
  | begin a =>
    simp only [body]
    split <;> rfl
  | finish a flight result => rfl

/-- The call is about the account. -/
def Next.On (account : AccountID) : Next → Prop
  | .done _ _ => True
  | .enter c => c.account = account
  | .go k => k.account = account

theorem body_on (s : State) (c : Section) : (body s c).2.On c.account := by
  cases c with
  | begin a =>
    simp only [body]
    split <;> rfl
  | finish a flight result => trivial

theorem Acts.on (h : Acts loginFn s k r out) : out.2.On k.account := by
  cases h with
  | cancel | follow => trivial
  | _ => rfl

/-! ## One leader for an account -/

/-- The thread leads a flight of the account, before a section. -/
def Section.leads (account : AccountID) : Section → Prop
  | .begin _ => False
  | .finish a _ _ => a = account

/-- And outside the sections. -/
def Work.leads (account : AccountID) : Work → Prop
  | .await _ _ | .follow _ _ => False
  | .encrypt a _ | .request a _ | .save a _ _ | .read a _ => a = account

/-- And where the call goes next. -/
def Next.leads (account : AccountID) : Next → Prop
  | .done _ _ => False
  | .enter c => c.leads account
  | .go k => k.leads account

/-- A section takes the lead of an account only if it is not pending, and ends only the
flight that it leads. -/
theorem body_leads (s : State) (c : Section) (account : AccountID) :
    ((body s c).2.leads account → (body s c).1.pending account = true ∧ s.pending account = false) ∧
    ((body s c).1.pending account = false → s.pending account = false ∨ c.leads account) := by
  cases c with
  | begin a =>
    simp only [body]
    split
    · exact ⟨False.elim, .inl⟩
    · rename_i hfree
      refine ⟨?_, fun h => .inl ?_⟩
      · rintro rfl
        exact ⟨Function.update_self .., Bool.eq_false_of_not_eq_true hfree⟩
      · by_cases ha : account = a
        · rw [ha]
          exact Bool.eq_false_of_not_eq_true hfree
        · simp only [State.beginFlight, Function.update_of_ne ha] at h
          exact h
  | finish a flight result =>
    refine ⟨False.elim, fun h => ?_⟩
    by_cases ha : account = a
    · exact .inr ha.symm
    · simp only [body, State.endFlight, Function.update_of_ne ha] at h
      exact .inl h

/-- The other actions leave the flights alone, and lead what they led before. -/
theorem Acts.leads (h : Acts loginFn s k r out) (account : AccountID) :
    out.1.pending = s.pending ∧ (out.2.leads account → k.leads account) := by
  cases h with
  | cancel | follow | wake => exact ⟨rfl, False.elim⟩
  | _ => exact ⟨rfl, id⟩

/-- The leader of a flight leads it until its end. -/
theorem Acts.leads_next (h : Acts loginFn s k r out) {account : AccountID} (hk : k.leads account) :
    out.2.leads account := by
  cases h with
  | cancel | follow | wake => exact hk.elim
  | _ => exact hk

/-- The flights are left alone. -/
structure FlightFrame (s s' : State) : Prop where
  pending : s'.pending = s.pending
  flights : s'.flights = s.flights
  closed : s'.closed = s.closed

theorem Acts.flightFrame (h : Acts loginFn s k r out) : FlightFrame s out.1 := by
  cases h <;> exact ⟨rfl, rfl, rfl⟩

end HstongApi.Auth
