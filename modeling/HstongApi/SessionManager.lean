import HstongApi.Errs
import HstongApi.Threads

/-!
# The session manager

`SessionManager` lets one caller log in while the others wait. Its mutex `mu` guards the
state machine, the error of the last login and a condition variable; it is never held
across a request. A call of `cond.Wait` takes a ticket under the lock, unlocks, and sleeps
until there has been a broadcast after the ticket; then it locks again.

`Logout` does not take part in this. It looks at the state without the lock, makes its
request, and then moves the machine to `LoggedOut`, clears the error and wakes everybody,
whatever has happened in between.

The fields `begun`, `outcomes` and `returns` record what has happened; no action reads them
to decide what to do.
-/

namespace HstongApi.SessionManager

open Threads

/-! ## The state machine -/

/-- `session.State` -/
inductive LoginState
  | loggedOut
  | loggingIn
  | loggedIn
  deriving DecidableEq

namespace LoginState

/-- `Machine.BeginLogin` -/
def beginLogin (m : LoginState) : LoginState × Bool :=
  if m ≠ .loggedOut then (m, false) else (.loggingIn, true)

/-- `Machine.LoginSucceeded` -/
def loginSucceeded (m : LoginState) : LoginState := if m = .loggingIn then .loggedIn else m

/-- `Machine.LoginFailed` -/
def loginFailed (m : LoginState) : LoginState := if m = .loggingIn then .loggedOut else m

/-- `Machine.Logout` -/
def logout (_ : LoginState) : LoginState := .loggedOut

end LoginState

/-! ## State and points -/

/-- `opTradeLogin` -/
def opTradeLogin : Bytes := bytes "trade/TradeLogin"

/-- What an action learns from outside: a request or the encryption fails, or the body of
the reply has `success` or not. -/
inductive Answer
  | success
  | refused
  | error (err : GoError)
  deriving DecidableEq

/-- A call that has returned. -/
structure Return where
  result : Option GoError
  /-- it has seen the state `LoggedIn` under the lock -/
  observed : Bool
  /-- how many logins had ended when it began -/
  began : ℕ
  /-- how many logins had begun when it returned -/
  begun : ℕ
  /-- the outcomes of the logins that ended while it was waiting for one -/
  waited : Option (List (Option GoError))
  deriving DecidableEq

/-- What the threads share. -/
structure Shared where
  /-- `client.TradePassword` -/
  password : Bytes
  state : LoginState := .loggedOut
  loginErr : Option GoError := none
  /-- the condition variable: how many broadcasts there were -/
  broadcasts : ℕ := 0
  /-- how many logins have begun -/
  begun : ℕ := 0
  /-- the logins that have ended, with their outcomes -/
  outcomes : List (ℕ × Option GoError) := []
  returns : List Return := []

/-- The actions under the lock. A call carries the number of logins that had ended when it
began, a login its own number. -/
inductive Section
  /-- `Login`: the loop, and the begin of a login -/
  | login (began : ℕ)
  /-- `EnsureLoggedIn` -/
  | ensure (began : ℕ)
  /-- its loop, after `since` logins had ended when it began to wait -/
  | ensureWait (began since : ℕ)
  /-- `ReLogin`: the loop, and the reset -/
  | reLogin (began : ℕ)
  /-- `finishLogin` after the request -/
  | finish (began login : ℕ) (err : Option GoError)
  /-- `Logout` after the request -/
  | logoutEnd
  deriving DecidableEq

/-- The actions without the lock. -/
inductive Work
  /-- `Logout`: `IsLoggedIn` -/
  | logout
  /-- its request -/
  | logoutRequest
  /-- `doLogin`: the password, its encryption, and the request is sent -/
  | doLogin (began login : ℕ)
  /-- the reply to the request -/
  | loginReply (began login : ℕ)
  /-- `cond.Wait`, with its ticket and what comes after it -/
  | parked (ticket : ℕ) (c : Section)
  deriving DecidableEq

/-- The calls. -/
inductive Call
  | login
  | ensureLoggedIn
  | reLogin (cause : Option GoError)
  | logout
  deriving DecidableEq

/-! ## Actions -/

/-- The first action of a call. -/
def start : Call → Shared → Option (Exit Section Work)
  | .login, s => some (.enter (.login s.outcomes.length))
  | .ensureLoggedIn, s => some (.enter (.ensure s.outcomes.length))
  | .reLogin cause, s =>
    if GoError.reLoginRequired cause then some (.enter (.reLogin s.outcomes.length)) else some .ret
  | .logout, _ => some (.go .logout)

/-- `cond.Wait` before a section. -/
def wait (s : Shared) (c : Section) : Shared × Turn Section Work :=
  (s, .leave (.go (.parked s.broadcasts c)))

/-- A call returns. -/
def Shared.return (s : Shared) (r : Return) : Shared := { s with returns := r :: s.returns }

/-- A login has begun, and its request comes next. -/
def beginning (s : Shared) (m : LoginState) (began : ℕ) : Shared × Turn Section Work :=
  ({ s with state := m, begun := s.begun + 1 }, .leave (.go (.doLogin began s.begun)))

/-- The loop of `EnsureLoggedIn`, and its return. -/
def ensureLoop (s : Shared) (began since : ℕ) : Shared × Turn Section Work :=
  if s.state = .loggingIn then wait s (.ensureWait began since)
  else
    (s.return ⟨s.loginErr, false, began, s.begun, some ((s.outcomes.drop since).map (·.2))⟩,
      .leave .ret)

/-- The action of a section. -/
def body : Section → Answer → Shared → Shared × Turn Section Work
  | .login began, _, s =>
    if s.state = .loggingIn then wait s (.login began)
    else
      match s.state.logout.beginLogin with
      | (m, true) => beginning s m began
      | (m, false) =>
        ({ s with state := m }.return ⟨some (GoError.new [] opTradeLogin
          (bytes "session login is already in progress")), false, began, s.begun, none⟩, .leave .ret)
  | .ensure began, _, s =>
    if s.state = .loggedIn then (s.return ⟨none, true, began, s.begun, none⟩, .leave .ret)
    else if s.state = .loggingIn then ensureLoop s began s.outcomes.length
    else
      match s.state.beginLogin with
      | (m, true) => beginning s m began
      | (m, false) => ensureLoop { s with state := m } began s.outcomes.length
  | .ensureWait began since, _, s => ensureLoop s began since
  | .reLogin began, _, s =>
    if s.state = .loggingIn then wait s (.reLogin began)
    else ({ s with state := s.state.logout }, .leave (.enter (.ensure began)))
  | .finish began login err, _, s =>
    let state := if err = none then s.state.loginSucceeded else s.state.loginFailed
    ({ s with
        state := state
        loginErr := err
        broadcasts := s.broadcasts + 1
        outcomes := s.outcomes ++ [(login, err)] }.return ⟨err, false, began, s.begun, none⟩,
      .leave .ret)
  | .logoutEnd, _, s =>
    ({ s with state := s.state.logout, loginErr := none, broadcasts := s.broadcasts + 1 },
      .leave .ret)

/-- An action without the lock. Only a thread that sleeps blocks. -/
def work : Work → Answer → Shared → Option (Shared × Exit Section Work)
  | .logout, _, s => some (s, if s.state = .loggedIn then .go .logoutRequest else .ret)
  | .logoutRequest, .error _, s => some (s, .ret)
  -- the body of the reply is not looked at
  | .logoutRequest, .success, s | .logoutRequest, .refused, s => some (s, .enter .logoutEnd)
  | .doLogin began login, encryption, s =>
    if s.password = [] then
      some (s, .enter (.finish began login (some (GoError.new [] opTradeLogin
        (bytes "trade password is not configured")))))
    else
      match encryption with
      | .error err =>
        some (s, .enter (.finish began login (some (err.wrap [] opTradeLogin
          (bytes "encrypt trade password")))))
      | .success | .refused => some (s, .go (.loginReply began login))
  | .loginReply began login, .success, s => some (s, .enter (.finish began login none))
  | .loginReply began login, .refused, s =>
    some (s, .enter (.finish began login (some (GoError.new [] opTradeLogin
      (bytes "trade login was rejected")))))
  | .loginReply began login, .error err, s => some (s, .enter (.finish began login (some err)))
  | .parked ticket c, _, s => if ticket < s.broadcasts then some (s, .enter c) else none

/-- The session manager as a program. It has one mutex. -/
def program : Program Shared Answer Call Section Work Unit where
  start := start
  mutex := fun _ => ()
  body := body
  work := work
  mutex_stay := fun _ _ _ _ _ => rfl

/-- The threads are numbered. -/
abbrev System : Type := State Shared Section Work Unit ℕ

/-- A thread is called, or does its next action. -/
abbrev Action : Type := Event Answer Call ℕ

/-- One step of the system. -/
def step : System → Action → Option System := program.step

/-- A new manager, and no thread in a call. -/
def init (password : Bytes) : System := .init { password := password }

end HstongApi.SessionManager
