import HstongApi.Channels
import HstongApi.Threads

/-!
# The connection of the push client

`Client` of the push package keeps at most one connection. `Connect` dials and stores it,
`Run` reads from it, closes it after a read error, dials again and calls the hooks for a
reconnect, and `Close` takes it away for good. Every `Run` has a goroutine beside it that
closes the connection when the context is cancelled.

A connection is the number of its dial. The model is about who has a connection: the
client, a thread that has dialed it or taken it, or nobody any more. Error reports, the
dispatchers and the length of the pauses are not part of it.
-/

namespace HstongApi.PushClient

open Threads

/-! ## State and points -/

/-- What the threads share. Contexts are numbered, and so are the calls of `Run`. -/
structure Shared where
  /-- the key of the verifier did not parse -/
  initErr : Bool := false
  /-- the number of hooks in `onReconnect` -/
  onReconnect : ℕ := 0
  closed : Bool := false
  /-- `done` is closed -/
  done : Bool := false
  conn : Option ℕ := none
  closeOnce : Once := .unused
  /-- the contexts that are cancelled -/
  cancelled : List ℕ := []
  /-- the context of each call of `Run` -/
  runs : List ℕ := []
  /-- the calls of `Run` with `runDone` closed -/
  ended : List ℕ := []
  /-- the number of connections dialed so far -/
  dialed : ℕ := 0
  /-- the connections that are closed -/
  shut : List ℕ := []
  /-- `Close` has taken the connection -/
  released : Bool := false
  /-- a call of `Close` has returned -/
  closeReturned : Bool := false
  /-- a hook has started after that -/
  lateHook : Bool := false

/-- A call of `Run` and its context. -/
structure Loop where
  run : ℕ
  ctx : ℕ
  deriving DecidableEq

/-- Who closes a connection that it has taken from the client. -/
inductive Closer
  /-- `Run`, after a read error -/
  | loop (l : Loop)
  /-- the goroutine beside `Run` -/
  | watcher
  /-- `Close` -/
  | close
  deriving DecidableEq

/-- Where `Run` has dialed. -/
inductive Dial
  /-- there was no connection -/
  | first
  /-- the connection was lost -/
  | again
  deriving DecidableEq

/-- What a call returns. -/
inductive Outcome
  | ok
  | errClosed
  | initErr
  | dialErr
  | ctxErr
  deriving DecidableEq

/-- The actions under `mu`. -/
inductive Section
  /-- `Connect` looks for a connection -/
  | connectCheck
  /-- `Connect` stores the connection that it has dialed -/
  | connectStore (k : ℕ)
  | currentConn (l : Loop)
  | setConn (l : Loop) (dial : Dial) (k : ℕ)
  /-- `closeConn` takes the connection, and so does `Close` -/
  | takeConn (closer : Closer)
  deriving DecidableEq

/-- The actions without the lock. -/
inductive Work
  /-- `Connect` begins -/
  | connect
  | connectDial
  /-- `Connect` closes the connection that it does not store -/
  | discard (k : ℕ) (out : Outcome)
  | endConnect (out : Outcome)
  /-- `Run` begins -/
  | run (ctx : ℕ)
  /-- the checks at the head of the loop -/
  | checkClosed (l : Loop)
  | checkCtx (l : Loop)
  | dial (l : Loop) (dial : Dial)
  /-- `sleepCtx` after a dial that failed -/
  | sleep (l : Loop) (dial : Dial)
  | exitCause (l : Loop)
  | readLoop (l : Loop) (k : ℕ)
  /-- the checks after a read error -/
  | recheckClosed (l : Loop)
  | recheckCtx (l : Loop)
  /-- the check before another dial -/
  | retryClosed (l : Loop)
  /-- `fireOnReconnect`, with the number of hooks that have been called -/
  | fireOnReconnect (l : Loop) (i : ℕ)
  /-- `Run` ends, with the channel `runDone` if it has got that far -/
  | endRun (run : Option ℕ) (out : Outcome)
  /-- the connection is closed -/
  | shut (closer : Closer) (k : ℕ)
  /-- the `select` of the goroutine beside `Run` -/
  | watch (run : ℕ)
  /-- somebody cancels a context -/
  | cancel (ctx : ℕ)
  /-- `Close`: `closeOnce` -/
  | close
  /-- `closed.Store(true)` -/
  | flag
  /-- `close(c.done)` -/
  | signal
  /-- `closeOnce` is done -/
  | finish
  | endClose
  deriving DecidableEq

/-- How a thread goes on. -/
abbrev Next : Type := Exit Section Work

/-- The calls and goroutines. -/
inductive Call
  | connect
  | run (ctx : ℕ)
  | watch (run : ℕ)
  | cancel (ctx : ℕ)
  | close
  deriving DecidableEq

/-- What an action learns from outside: the result of a dial or of a pause, or the case of a
`select`. -/
inductive Reply
  | dialed
  | refused
  | slept
  | cancelled
  | closed
  | ended
  deriving DecidableEq

/-! ## Actions -/

/-- The first action of a call. The goroutine beside `Run` is there when `Run` has begun. -/
def start (s : Shared) : Call → Option Next
  | .connect => some (.go .connect)
  | .run ctx => some (.go (.run ctx))
  | .watch run => if run < s.runs.length then some (.go (.watch run)) else none
  | .cancel ctx => some (.go (.cancel ctx))
  | .close => some (.go .close)

/-- How a thread goes on after it has closed a connection, or had none to close. -/
def Closer.next : Closer → Next
  | .loop l => .go (.recheckClosed l)
  | .watcher => .ret
  | .close => .go .finish

/-- How `Run` goes on after it has stored a connection. -/
def Dial.next (l : Loop) : Dial → Next
  | .first => .go (.checkClosed l)
  | .again => .go (.fireOnReconnect l 0)

/-- `Close` keeps the client from taking another connection. -/
def Shared.takeConn (s : Shared) (closer : Closer) : Shared :=
  { s with conn := none, released := s.released || (closer == .close) }

/-- The action of a section. -/
def body (s : Shared) : Section → Shared × Next
  | .connectCheck =>
    match s.conn with
    | some _ => (s, .go (.endConnect .ok))
    | none => (s, .go .connectDial)
  | .connectStore k =>
    if s.closed then (s, .go (.discard k .errClosed))
    else
      match s.conn with
      | some _ => (s, .go (.discard k .ok))
      | none => ({ s with conn := some k }, .go (.endConnect .ok))
  | .currentConn l =>
    match s.conn with
    | none => (s, .go (.dial l .first))
    | some k => (s, .go (.readLoop l k))
  -- neither `closed` nor the connection that is there is looked at
  | .setConn l dial k => ({ s with conn := some k }, dial.next l)
  | .takeConn closer =>
    (s.takeConn closer,
      match s.conn with
      | none => closer.next
      | some k => .go (.shut closer k))

/-- A dial succeeds. -/
def Shared.dial (s : Shared) : Shared := { s with dialed := s.dialed + 1 }

/-- A hook is called. -/
def Shared.fire (s : Shared) : Shared := { s with lateHook := s.lateHook || s.closeReturned }

/-- The actions without the lock. -/
def work (s : Shared) : Work → Reply → Option (Shared × Next)
  | .connect, _ =>
    if s.closed then some (s, .go (.endConnect .errClosed))
    else if s.initErr then some (s, .go (.endConnect .initErr))
    else some (s, .enter .connectCheck)
  | .connectDial, .dialed => some (s.dial, .enter (.connectStore s.dialed))
  | .connectDial, .refused => some (s, .go (.endConnect .dialErr))
  | .connectDial, _ => none
  | .discard k out, _ => some ({ s with shut := k :: s.shut }, .go (.endConnect out))
  | .endConnect _, _ => some (s, .ret)
  | .run ctx, _ =>
    if s.initErr then some (s, .go (.endRun none .initErr))
    else some ({ s with runs := s.runs ++ [ctx] }, .go (.checkClosed ⟨s.runs.length, ctx⟩))
  | .checkClosed l, _ =>
    if s.closed then some (s, .go (.endRun l.run .errClosed)) else some (s, .go (.checkCtx l))
  | .checkCtx l, _ =>
    if l.ctx ∈ s.cancelled then some (s, .go (.endRun l.run .ctxErr))
    else some (s, .enter (.currentConn l))
  | .dial l dial, .dialed => some (s.dial, .enter (.setConn l dial s.dialed))
  | .dial l dial, .refused => some (s, .go (.sleep l dial))
  | .dial _ _, _ => none
  | .sleep l .first, .slept => some (s, .go (.checkClosed l))
  | .sleep l .again, .slept => some (s, .go (.retryClosed l))
  | .sleep l _, .cancelled =>
    if l.ctx ∈ s.cancelled then some (s, .go (.exitCause l)) else none
  | .sleep _ _, _ => none
  | .exitCause l, _ =>
    if s.closed then some (s, .go (.endRun l.run .errClosed)) else some (s, .go (.endRun l.run .ctxErr))
  -- a read error may come at any time
  | .readLoop l _, _ => some (s, .enter (.takeConn (.loop l)))
  | .recheckClosed l, _ =>
    if s.closed then some (s, .go (.endRun l.run .ok)) else some (s, .go (.recheckCtx l))
  | .recheckCtx l, _ =>
    if l.ctx ∈ s.cancelled then some (s, .go (.endRun l.run .ctxErr))
    else some (s, .go (.dial l .again))
  | .retryClosed l, _ =>
    if s.closed then some (s, .go (.endRun l.run .ok)) else some (s, .go (.dial l .again))
  | .fireOnReconnect l i, _ =>
    if i < s.onReconnect then some (s.fire, .go (.fireOnReconnect l (i + 1)))
    else some (s, .go (.checkClosed l))
  | .endRun run _, _ => some ({ s with ended := run.toList ++ s.ended }, .ret)
  | .shut closer k, _ => some ({ s with shut := k :: s.shut }, closer.next)
  | .watch run, .cancelled =>
    if (s.runs[run]?).any (· ∈ s.cancelled) then some (s, .enter (.takeConn .watcher)) else none
  | .watch _, .closed => if s.done then some (s, .ret) else none
  | .watch run, .ended => if run ∈ s.ended then some (s, .ret) else none
  | .watch _, _ => none
  | .cancel ctx, _ => some ({ s with cancelled := ctx :: s.cancelled }, .ret)
  | .close, _ =>
    match s.closeOnce with
    | .unused => some ({ s with closeOnce := .running }, .go .flag)
    | .running => none
    | .done => some (s, .go .endClose)
  | .flag, _ => some ({ s with closed := true }, .go .signal)
  | .signal, _ => some ({ s with done := true }, .enter (.takeConn .close))
  | .finish, _ => some ({ s with closeOnce := .done }, .go .endClose)
  | .endClose, _ => some ({ s with closeReturned := true }, .ret)

/-- The actions without the lock that change nothing. -/
inductive Moves (s : Shared) : Work → Next → Prop
  | connect : Moves s .connect (.enter .connectCheck)
  | connectRefused {out} : Moves s .connect (.go (.endConnect out))
  | connectFailed {out} : Moves s .connectDial (.go (.endConnect out))
  | endConnect {out} : Moves s (.endConnect out) .ret
  | runRefused {ctx run out} : Moves s (.run ctx) (.go (.endRun run out))
  | checkedClosed {l} : s.closed = false → Moves s (.checkClosed l) (.go (.checkCtx l))
  | isClosed {l run out} : Moves s (.checkClosed l) (.go (.endRun run out))
  | checkedCtx {l} : Moves s (.checkCtx l) (.enter (.currentConn l))
  | isCancelled {l run out} : Moves s (.checkCtx l) (.go (.endRun run out))
  | refused {l dial} : Moves s (.dial l dial) (.go (.sleep l dial))
  | sleptFirst {l dial} : Moves s (.sleep l dial) (.go (.checkClosed l))
  | sleptAgain {l dial} : Moves s (.sleep l dial) (.go (.retryClosed l))
  | awoken {l dial} : Moves s (.sleep l dial) (.go (.exitCause l))
  | exitCause {l run out} : Moves s (.exitCause l) (.go (.endRun run out))
  | readLoop {l k} : Moves s (.readLoop l k) (.enter (.takeConn (.loop l)))
  | recheckedClosed {l} : s.closed = false → Moves s (.recheckClosed l) (.go (.recheckCtx l))
  | nowClosed {l run out} : Moves s (.recheckClosed l) (.go (.endRun run out))
  | recheckedCtx {l} : Moves s (.recheckCtx l) (.go (.dial l .again))
  | nowCancelled {l run out} : Moves s (.recheckCtx l) (.go (.endRun run out))
  | retry {l} : s.closed = false → Moves s (.retryClosed l) (.go (.dial l .again))
  | retryClosed {l run out} : Moves s (.retryClosed l) (.go (.endRun run out))
  | fired {l i} : Moves s (.fireOnReconnect l i) (.go (.checkClosed l))
  | watch {run} : Moves s (.watch run) (.enter (.takeConn .watcher))
  | watched {run} : Moves s (.watch run) .ret
  | closeAgain : s.closeOnce = .done → Moves s .close (.go .endClose)

/-- What an action without the lock can do. -/
inductive Acts (s : Shared) : Work → Shared × Next → Prop
  | connectDialed : Acts s .connectDial (s.dial, .enter (.connectStore s.dialed))
  | discard {k out} :
      Acts s (.discard k out) ({ s with shut := k :: s.shut }, .go (.endConnect out))
  | run {ctx} : Acts s (.run ctx)
      ({ s with runs := s.runs ++ [ctx] }, .go (.checkClosed ⟨s.runs.length, ctx⟩))
  | dialed {l dial} : Acts s (.dial l dial) (s.dial, .enter (.setConn l dial s.dialed))
  | fire {l i} : Acts s (.fireOnReconnect l i) (s.fire, .go (.fireOnReconnect l (i + 1)))
  | endRun {run out} : Acts s (.endRun run out) ({ s with ended := run.toList ++ s.ended }, .ret)
  | shut {closer k} : Acts s (.shut closer k) ({ s with shut := k :: s.shut }, closer.next)
  | cancel {ctx} : Acts s (.cancel ctx) ({ s with cancelled := ctx :: s.cancelled }, .ret)
  | close : Acts s .close ({ s with closeOnce := .running }, .go .flag)
  | flag : Acts s .flag ({ s with closed := true }, .go .signal)
  | signal : Acts s .signal ({ s with done := true }, .enter (.takeConn .close))
  | finish : Acts s .finish ({ s with closeOnce := .done }, .go .endClose)
  | endClose : Acts s .endClose ({ s with closeReturned := true }, .ret)
  | moves {k x} : Moves s k x → Acts s k (s, x)

section

variable {s : Shared} {r : Reply} {out : Shared × Next}

/-- `Connect` before its lock. -/
theorem connect_acts (h : work s .connect r = some out) : Acts s .connect out := by
  simp only [work] at h
  split at h
  · cases h
    exact .moves .connectRefused
  · split at h <;> cases h
    · exact .moves .connectRefused
    · exact .moves .connect

/-- The dial of `Connect`. -/
theorem connectDial_acts (h : work s .connectDial r = some out) : Acts s .connectDial out := by
  cases r with
  | dialed =>
    cases h
    exact .connectDialed
  | refused =>
    cases h
    exact .moves .connectFailed
  | _ => cases h

/-- The dials of `Run`. -/
theorem dial_acts {l : Loop} {dial : Dial} (h : work s (.dial l dial) r = some out) :
    Acts s (.dial l dial) out := by
  cases r with
  | dialed =>
    cases h
    exact .dialed
  | refused =>
    cases h
    exact .moves .refused
  | _ => cases h

/-- The sleep after a dial that was refused. -/
theorem sleep_acts {l : Loop} {dial : Dial} (h : work s (.sleep l dial) r = some out) :
    Acts s (.sleep l dial) out := by
  cases r with
  | slept =>
    cases dial with
    | first =>
      cases h
      exact .moves .sleptFirst
    | again =>
      cases h
      exact .moves .sleptAgain
  | cancelled =>
    have hcancelled : (if l.ctx ∈ s.cancelled then some (s, Exit.go (.exitCause l)) else none) =
        some out := by
      cases dial <;> exact h
    obtain ⟨-, heq⟩ := Option.ite_none_right_eq_some.mp hcancelled
    cases heq
    exact .moves .awoken
  | _ => cases dial <;> cases h

/-- The goroutine that watches the context of `Run`. -/
theorem watch_acts {run : ℕ} (h : work s (.watch run) r = some out) : Acts s (.watch run) out := by
  cases r with
  | cancelled =>
    obtain ⟨-, heq⟩ := Option.ite_none_right_eq_some.mp h
    cases heq
    exact .moves .watch
  | closed | ended =>
    obtain ⟨-, heq⟩ := Option.ite_none_right_eq_some.mp h
    cases heq
    exact .moves .watched
  | _ => cases h

/-- The places where `Run` and its loop ask for the closed flag or for the context. -/
theorem check_acts {l : Loop} :
    (work s (.checkClosed l) r = some out → Acts s (.checkClosed l) out) ∧
    (work s (.checkCtx l) r = some out → Acts s (.checkCtx l) out) ∧
    (work s (.recheckClosed l) r = some out → Acts s (.recheckClosed l) out) ∧
    (work s (.recheckCtx l) r = some out → Acts s (.recheckCtx l) out) ∧
    (work s (.retryClosed l) r = some out → Acts s (.retryClosed l) out) := by
  simp only [work]
  refine ⟨fun h => ?_, fun h => ?_, fun h => ?_, fun h => ?_, fun h => ?_⟩
  · split at h <;> cases h
    · exact .moves .isClosed
    · exact .moves (.checkedClosed (eq_false_of_ne_true ‹_›))
  · split at h <;> cases h
    · exact .moves .isCancelled
    · exact .moves .checkedCtx
  · split at h <;> cases h
    · exact .moves .nowClosed
    · exact .moves (.recheckedClosed (eq_false_of_ne_true ‹_›))
  · split at h <;> cases h
    · exact .moves .nowCancelled
    · exact .moves .recheckedCtx
  · split at h <;> cases h
    · exact .moves .retryClosed
    · exact .moves (.retry (eq_false_of_ne_true ‹_›))

theorem work_acts {k : Work} (h : work s k r = some out) : Acts s k out := by
  cases k with
  | connect => exact connect_acts h
  | connectDial => exact connectDial_acts h
  | dial l dial => exact dial_acts h
  | sleep l dial => exact sleep_acts h
  | watch run => exact watch_acts h
  | checkClosed l => exact check_acts.1 h
  | checkCtx l => exact check_acts.2.1 h
  | recheckClosed l => exact check_acts.2.2.1 h
  | recheckCtx l => exact check_acts.2.2.2.1 h
  | retryClosed l => exact check_acts.2.2.2.2 h
  | run ctx =>
    simp only [work] at h
    split at h <;> cases h
    · exact .moves .runRefused
    · exact .run
  | exitCause l =>
    simp only [work] at h
    split at h <;> cases h <;> exact .moves .exitCause
  | fireOnReconnect l i =>
    simp only [work] at h
    split at h <;> cases h
    · exact .fire
    · exact .moves .fired
  | close =>
    simp only [work] at h
    split at h <;> cases h
    · exact .close
    · exact .moves (.closeAgain ‹_›)
  | endConnect out =>
    cases h
    exact .moves .endConnect
  | readLoop l k =>
    cases h
    exact .moves .readLoop
  -- the others do one thing
  | _ =>
    cases h
    constructor

end

/-- What the action of a section can do. -/
inductive Follows (s : Shared) : Section → Shared × Next → Prop
  | connected : Follows s .connectCheck (s, .go (.endConnect .ok))
  | unconnected : Follows s .connectCheck (s, .go .connectDial)
  | discard {k out} : Follows s (.connectStore k) (s, .go (.discard k out))
  | store {k} : s.closed = false → s.conn = none →
      Follows s (.connectStore k) ({ s with conn := some k }, .go (.endConnect .ok))
  | noConn {l} : Follows s (.currentConn l) (s, .go (.dial l .first))
  | currentConn {l k} : Follows s (.currentConn l) (s, .go (.readLoop l k))
  | setConn {l dial k} : Follows s (.setConn l dial k) ({ s with conn := some k }, dial.next l)
  | takeNone {closer} : s.conn = none →
      Follows s (.takeConn closer) (s.takeConn closer, closer.next)
  | takeConn {closer k} : s.conn = some k →
      Follows s (.takeConn closer) (s.takeConn closer, .go (.shut closer k))

theorem body_follows (s : Shared) (c : Section) : Follows s c (body s c) := by
  cases c with
  | connectCheck =>
    simp only [body]
    split
    · exact .connected
    · exact .unconnected
  | connectStore k =>
    simp only [body]
    split
    · exact .discard
    · split
      · exact .discard
      · exact .store (eq_false_of_ne_true ‹_›) ‹_›
  | currentConn l =>
    simp only [body]
    split
    · exact .noConn
    · exact .currentConn
  | setConn l dial k => exact .setConn
  | takeConn closer =>
    simp only [body]
    split
    · exact .takeNone ‹_›
    · exact .takeConn ‹_›

/-- The client as a program, with the mutex `mu`. -/
def program : Program Shared Reply Call Section Work Unit where
  start := fun call s => start s call
  mutex := fun _ => ()
  body := fun c _ s => ((body s c).1, .leave (body s c).2)
  work := fun k r s => work s k r
  mutex_stay := fun _ _ _ _ _ => rfl

/-- The threads are numbered. -/
abbrev System : Type := State Shared Section Work Unit ℕ

/-- A thread is called, or does its next action. -/
abbrev Action : Type := Event Reply Call ℕ

/-- One step of the system. -/
def step : System → Action → Option System := program.step

/-- A new client, with the error of its construction and the number of its hooks. -/
def init (initErr : Bool) (onReconnect : ℕ) : System :=
  .init { initErr := initErr, onReconnect := onReconnect }

end HstongApi.PushClient
