import HstongApi.Bytes
import HstongApi.Channels
import HstongApi.Threads

/-!
# The error stream of the push adapter

`PushAdapter` has an error stream of its own. Three kinds of goroutines send on it: the
translation goroutine, which forwards the errors of the push client; the callers of
`Report`; and the dispatcher goroutines, when a frame cannot be normalised. All of them go
through `emit`, which makes three attempts on the channel under `errcMu`. `Close` signals
`done`, closes the push client, waits for the translation goroutine, and then closes the
channel under `errcMu`.

The wait makes the translation goroutine safe. Nothing is waited for on behalf of the other
two, and `emit` does not ask whether the channel is closed. `reports_safe_iff` says exactly
when no send on the closed channel takes place or lies ahead: when no report of an error and
no conversion that fails is under way as `Close` closes the channel, and none begins
afterwards.
-/

namespace HstongApi.PushAdapter

open Threads

/-! ## State and points -/

/-- The errors on the stream. -/
inductive PushError
  /-- `push.ErrSignatureMismatch` -/
  | signatureMismatch (message : Bytes)
  /-- an `*unverifiedError` -/
  | unverified (cause : PushError)
  | other (message : Bytes)
  deriving DecidableEq

/-- `errors.Is(err, push.ErrSignatureMismatch)` -/
def PushError.isMismatch : PushError → Bool
  | .signatureMismatch _ => true
  | .unverified cause => cause.isMismatch
  | .other _ => false

/-- `translatePushError` -/
def translatePushError (err : PushError) : PushError :=
  if err.isMismatch then .unverified err else err

/-- `DefaultPushErrorBuffer` -/
def defaultPushErrorBuffer : ℕ := 64

/-- How far the translation goroutine has come. -/
inductive Translation
  | unborn
  | running
  | exited
  deriving DecidableEq

/-- What the threads share. -/
structure Shared where
  errc : Chan PushError := .make defaultPushErrorBuffer
  /-- `done` is closed -/
  done : Bool := false
  /-- the push client is closed, and its error stream with it -/
  clientClosed : Bool := false
  /-- what `wg` waits for -/
  translation : Translation := .unborn
  closeOnce : Once := .unused
  /-- a send on the closed channel has taken place -/
  panicked : Bool := false

/-- Who sends an error. -/
inductive Sender
  /-- a caller of `Report`, or a conversion -/
  | caller
  | translation
  deriving DecidableEq

/-- The three attempts of `emit`. -/
inductive Attempt
  | send
  | discard
  | resend
  deriving DecidableEq

/-- The actions under `errcMu`. -/
inductive Section
  | emit (sender : Sender) (err : PushError) (attempt : Attempt)
  /-- `Close` closes the channel -/
  | closeErrc
  deriving DecidableEq

/-- The actions without the lock. -/
inductive Work
  /-- the translation goroutine begins -/
  | launch
  /-- the `select` of `translateErrors` -/
  | select
  /-- `Close`: `closeOnce` -/
  | close
  /-- `close(a.done)` -/
  | signal
  /-- `client.Close` -/
  | closeClient
  /-- `wg.Wait` -/
  | join
  /-- `closeOnce` is done -/
  | closed
  /-- a receive on the stream -/
  | receive
  deriving DecidableEq

/-- The calls and goroutines. A conversion has a handler or not, and its frame cannot be
normalised or can. -/
inductive Call
  | report (err : Option PushError)
  | convert (handler : Bool) (failure : Option PushError)
  | close
  | translateErrors
  | receive
  deriving DecidableEq

/-- What the `select` of the translation goroutine finds. -/
inductive Reply
  | upstream (err : PushError)
  | upstreamClosed
  | done
  deriving DecidableEq

/-! ## Actions -/

/-- `emit`: a nil error is no error. -/
def emit (err : Option PushError) : Exit Section Work :=
  match err with
  | none => .ret
  | some err => .enter (.emit .caller (translatePushError err) .send)

/-- The first action of a call. -/
def start : Call → Exit Section Work
  | .report err => emit err
  -- without a handler the frame is not looked at; one that is normalised goes to the handler
  | .convert handler failure => if handler then emit failure else .ret
  | .close => .go .close
  | .translateErrors => .go .launch
  | .receive => .go .receive

/-- How a sender goes on. -/
def Sender.next : Sender → Exit Section Work
  | .caller => .ret
  | .translation => .go .select

/-- A send on a channel that is closed panics. -/
def Shared.panic (s : Shared) : Shared := { s with panicked := true }

/-- The action of a section. -/
def body (s : Shared) : Section → Shared × Turn Section Work
  | .emit sender err .send =>
    if s.errc.closed then (s.panic, .leave .ret)
    else
      match s.errc.trySend err with
      | some errc => ({ s with errc := errc }, .leave sender.next)
      | none => (s, .stay (.emit sender err .discard))
  | .emit sender err .discard =>
    match s.errc.tryRecv with
    | some (_, errc) => ({ s with errc := errc }, .stay (.emit sender err .resend))
    | none => (s, .stay (.emit sender err .resend))
  | .emit sender err .resend =>
    if s.errc.closed then (s.panic, .leave .ret)
    else
      match s.errc.trySend err with
      | some errc => ({ s with errc := errc }, .leave sender.next)
      | none => (s, .leave sender.next)
  | .closeErrc => ({ s with errc := s.errc.close }, .leave (.go .closed))

/-- The actions without the lock. -/
def work (s : Shared) : Work → Reply → Option (Shared × Exit Section Work)
  | .launch, _ =>
    -- it is started once, by `NewPushAdapter`
    if s.translation = .unborn then some ({ s with translation := .running }, .go .select)
    else some (s, .ret)
  | .select, .upstream err => some (s, .enter (.emit .translation (translatePushError err) .send))
  | .select, .upstreamClosed =>
    if s.clientClosed then some ({ s with translation := .exited }, .ret) else none
  | .select, .done => if s.done then some ({ s with translation := .exited }, .ret) else none
  | .close, _ =>
    match s.closeOnce with
    | .unused => some ({ s with closeOnce := .running }, .go .signal)
    | .running => none
    | .done => some (s, .ret)
  | .signal, _ => some ({ s with done := true }, .go .closeClient)
  | .closeClient, _ => some ({ s with clientClosed := true }, .go .join)
  | .join, _ => if s.translation = .exited then some (s, .enter .closeErrc) else none
  | .closed, _ => some ({ s with closeOnce := .done }, .ret)
  | .receive, _ =>
    match s.errc.tryRecv with
    | some (_, errc) => some ({ s with errc := errc }, .ret)
    | none => if s.errc.closed then some (s, .ret) else none

/-- What an action without the lock can do. -/
inductive Acts (s : Shared) : Work → Shared × Exit Section Work → Prop
  | launch : s.translation = .unborn → Acts s .launch ({ s with translation := .running }, .go .select)
  | launched : Acts s .launch (s, .ret)
  | upstream {err} : Acts s .select (s, .enter (.emit .translation err .send))
  | exit : Acts s .select ({ s with translation := .exited }, .ret)
  | close : Acts s .close ({ s with closeOnce := .running }, .go .signal)
  | isClosed : Acts s .close (s, .ret)
  | signal : Acts s .signal ({ s with done := true }, .go .closeClient)
  | closeClient : Acts s .closeClient ({ s with clientClosed := true }, .go .join)
  | join : s.translation = .exited → Acts s .join (s, .enter .closeErrc)
  | closed : Acts s .closed ({ s with closeOnce := .done }, .ret)
  | received {x errc} : s.errc.tryRecv = some (x, errc) →
      Acts s .receive ({ s with errc := errc }, .ret)
  | drained : Acts s .receive (s, .ret)

variable {s : Shared} {x : Exit Section Work}

theorem work_acts {k : Work} {r : Reply} {out : Shared × Exit Section Work}
    (h : work s k r = some out) : Acts s k out := by
  cases k with
  | launch =>
    simp only [work] at h
    split at h <;> cases h
    · exact .launch ‹_›
    · exact .launched
  | select =>
    cases r with
    | upstream err =>
      cases h
      exact .upstream
    | _ =>
      obtain ⟨-, heq⟩ := Option.ite_none_right_eq_some.mp h
      cases heq
      exact .exit
  | close =>
    simp only [work] at h
    split at h <;> cases h
    · exact .close
    · exact .isClosed
  | signal =>
    cases h
    exact .signal
  | closeClient =>
    cases h
    exact .closeClient
  | join =>
    obtain ⟨hexited, heq⟩ := Option.ite_none_right_eq_some.mp h
    cases heq
    exact .join hexited
  | closed =>
    cases h
    exact .closed
  | receive =>
    simp only [work] at h
    split at h
    · cases h
      exact .received ‹_›
    · obtain ⟨-, heq⟩ := Option.ite_none_right_eq_some.mp h
      cases heq
      exact .drained

/-- The adapter as a program, with the mutex `errcMu`. -/
def program : Program Shared Reply Call Section Work Unit where
  start := fun call _ => some (start call)
  mutex := fun _ => ()
  body := fun c _ s => body s c
  work := fun k r s => work s k r
  mutex_stay := fun _ _ _ _ _ => rfl

/-- The threads are numbered. -/
abbrev System : Type := State Shared Section Work Unit ℕ

/-- A thread is called, or does its next action. -/
abbrev Action : Type := Event Reply Call ℕ

/-- One step of the system. -/
def step : System → Action → Option System := program.step

/-- A new adapter. -/
def init : System := .init {}

/-! ## The translation goroutine -/

/-- The thread is the translation goroutine, before a section. -/
def Section.translates : Section → Prop
  | .emit .translation _ _ => True
  | .emit .caller _ _ | .closeErrc => False

/-- And outside the sections. -/
def Work.translates : Work → Prop
  | .select => True
  | _ => False

/-- The thread is the translation goroutine. -/
def translates : Exit Section Work → Prop
  | .ret => False
  | .enter c => c.translates
  | .go k => k.translates

/-- How the sections leave the rest of the state, and who goes on as the translation. -/
theorem body_translates (s : Shared) (c : Section) :
    (body s c).1.translation = s.translation ∧
      (translates ((body s c).2.point c).next → c.translates) := by
  cases c with
  | emit sender err attempt =>
    cases attempt with
    | send | resend =>
      simp only [body]
      split
      · exact ⟨rfl, False.elim⟩
      · split <;> exact ⟨rfl, fun h => by cases sender <;> exact h⟩
    | discard =>
      simp only [body]
      split <;> exact ⟨rfl, fun h => by cases sender <;> exact h⟩
  | closeErrc => exact ⟨rfl, False.elim⟩

/-- The translation goroutine is one thread. -/
theorem translationTokens : Tokens (τ := ℕ) program (fun _ _ => True)
    (fun s (_ : Unit) => s.translation ≠ .running) (fun x _ => translates x) where
  start {s t a x i} _ hx := by
    cases hx
    cases a with
    | report err => cases err <;> exact id
    | convert handler failure => cases handler <;> cases failure <;> exact id
    | _ => exact id
  body_take {s t r c i} hs _ ht hp := by
    obtain ⟨hsame, htranslates⟩ := body_translates s.shared c
    have hhad : c.translates := htranslates hp
    refine ⟨fun hfree => ?_, .inl hhad⟩
    rw [program, hsame] at hfree
    exact hs.not_free i ht hhad hfree
  body_give {s t r c i} _ _ hfree := by
    rw [program, (body_translates s.shared c).1] at hfree
    exact .inl hfree
  work_take {s t r k shared x i} hs _ ht hk hp := by
    have hacts := work_acts hk
    cases hacts with
    | launch hunborn => exact ⟨fun hfree => hfree rfl, .inr (by rw [hunborn]; decide)⟩
    | upstream => exact ⟨hs.not_free i ht trivial, .inl trivial⟩
    | _ => exact hp.elim
  work_give {s t r k shared x i} _ _ hk hfree := by
    have hacts := work_acts hk
    cases hacts with
    | launch => exact absurd rfl hfree
    | exit => exact .inr trivial
    | _ => exact .inl hfree

/-! ## Sends on the open channel -/

/-- The thread is about to send on the channel. -/
def emitting : Exit Section Work → Bool
  | .enter (.emit _ _ _) => true
  | _ => false

/-- The thread reports an error, or has a frame that cannot be normalised. -/
def reporting : Exit Section Work → Bool
  | .enter (.emit .caller _ _) => true
  | _ => false

/-- **No send on the closed channel** has taken place, and no thread is about to make one. -/
def SendsOpen (s : System) : Prop :=
  s.shared.panicked = false ∧
    ∀ t, emitting (s.point t).next = true → s.shared.errc.closed = false

/-- No report of an error and no conversion that fails begins after the channel is closed, and
none is under way when `Close` closes it. -/
def ReportsBeforeClose (s : System) : Action → Prop
  | .call _ call => reporting (start call) = true → s.shared.errc.closed = false
  | .run t _ => s.point t = .inside .closeErrc → ∀ t', reporting (s.point t').next = false

/-- What holds of the shared state. -/
structure Safe (s : Shared) : Prop where
  sound : s.panicked = false
  joined : s.errc.closed = true → s.translation = .exited

/-- What a thread knows before a section. -/
def Section.Knows (s : Shared) : Section → Prop
  | .emit .caller _ _ => s.errc.closed = false
  | .emit .translation _ _ => s.errc.closed = false ∧ s.translation = .running
  | .closeErrc => s.translation = .exited

/-- And outside the sections. -/
def Work.Knows (s : Shared) : Work → Prop
  | .select => s.translation = .running
  | _ => True

/-- What a thread knows at a point. -/
def Knows (s : Shared) : Exit Section Work → Prop
  | .ret => True
  | .enter c => c.Knows s
  | .go k => k.Knows s

theorem Knows.open (h : Knows s x) (hx : emitting x = true) : s.errc.closed = false := by
  unfold emitting at hx
  split at hx
  · rename_i sender err attempt
    cases sender with
    | caller => exact h
    | translation => exact h.1
  · cases hx

theorem Knows.mono {s' : Shared} (h : Knows s x)
    (hreports : reporting x = true → s'.errc.closed = s.errc.closed)
    (htranslates : translates x → s.translation = .running →
      s'.errc.closed = s.errc.closed ∧ s'.translation = s.translation)
    (hexited : s.translation = .exited → s'.translation = .exited) : Knows s' x := by
  cases x with
  | ret => trivial
  | enter c =>
    cases c with
    | emit sender err attempt =>
      cases sender with
      | caller => exact (hreports rfl).trans h
      | translation =>
        obtain ⟨hclosed, htranslation⟩ := htranslates trivial h.2
        exact ⟨hclosed.trans h.1, htranslation.trans h.2⟩
    | closeErrc => exact hexited h
  | go k =>
    cases k with
    | select => exact (htranslates trivial h).2.trans h
    | _ => trivial

theorem Knows.congr {s' : Shared} (h : Knows s x) (hclosed : s'.errc.closed = s.errc.closed)
    (htranslation : s'.translation = s.translation) : Knows s' x :=
  h.mono (fun _ => hclosed) (fun _ _ => ⟨hclosed, htranslation⟩) htranslation.trans

/-- On the open channel the attempts of `emit` change only what the channel holds. -/
theorem body_emit (hopen : s.errc.closed = false) (sender : Sender) (err : PushError)
    (attempt : Attempt) : (body s (.emit sender err attempt)).1.panicked = s.panicked ∧
    (body s (.emit sender err attempt)).1.errc.closed = s.errc.closed ∧
    (body s (.emit sender err attempt)).1.translation = s.translation ∧
    (((body s (.emit sender err attempt)).2.point (.emit sender err attempt)).next = sender.next ∨
      ∃ attempt', ((body s (.emit sender err attempt)).2.point (.emit sender err attempt)).next =
        .enter (.emit sender err attempt')) := by
  cases attempt with
  | send =>
    simp only [body, hopen, Bool.false_eq_true, if_false]
    split
    · rename_i errc hsent
      exact ⟨rfl, (Chan.trySend_eq_some hsent).2.2.trans hopen, rfl, .inl rfl⟩
    · exact ⟨rfl, hopen, rfl, .inr ⟨.discard, rfl⟩⟩
  | discard =>
    simp only [body]
    split
    · rename_i x errc hreceived
      exact ⟨rfl, (Chan.tryRecv_eq_some hreceived).2.2, rfl, .inr ⟨.resend, rfl⟩⟩
    · exact ⟨rfl, rfl, rfl, .inr ⟨.resend, rfl⟩⟩
  | resend =>
    simp only [body, hopen, Bool.false_eq_true, if_false]
    split
    · rename_i errc hsent
      exact ⟨rfl, (Chan.trySend_eq_some hsent).2.2.trans hopen, rfl, .inl rfl⟩
    · exact ⟨rfl, hopen, rfl, .inl rfl⟩

/-- The translation goroutine is one thread. -/
abbrev TranslationHeld (s : System) : Prop :=
  Held (fun s (_ : Unit) => s.translation ≠ .running) (fun x _ => translates x) s

theorem knows_start {call : Call} (h : reporting (start call) = true → s.errc.closed = false) :
    Knows s (start call) := by
  cases call with
  | report err =>
    cases err with
    | none => trivial
    | some err => exact h rfl
  | convert handler failure =>
    cases handler with
    | false => trivial
    | true =>
      cases failure with
      | none => trivial
      | some err => exact h rfl
  | _ => trivial

/-- A thread that knows that the translation goroutine runs is that goroutine. -/
theorem Knows.translates (h : Knows s x) (hx : ¬ translates x) {s' : Shared}
    (hclosed : s'.errc.closed = s.errc.closed)
    (hexited : s.translation = .exited → s'.translation = .exited) : Knows s' x :=
  h.mono (fun _ => hclosed) (fun ht => absurd ht hx) hexited

/-- The translation goroutine has ended and nobody reports, so nobody minds the close. -/
theorem Knows.close (h : Knows s x) (hexited : s.translation = .exited)
    (hquiet : reporting x = false) : Knows { s with errc := s.errc.close } x :=
  h.mono (fun hreports => nomatch hquiet.symm.trans hreports)
    (fun _ hrunning => nomatch hexited.symm.trans hrunning) id

/-- What the threads know about the channel. -/
theorem sendsOutline : NextOutline (τ := ℕ) program
    (fun s a => TranslationHeld s ∧ ReportsBeforeClose s a) Safe Knows := by
  refine .of_acts (fun {s t a x} hcond _ hx => ?_) (fun {s t r c} hs hcond ht hknows => ?_)
    fun {s t r k shared x} hs hcond ht hk hknows => ?_
  · cases hx
    exact knows_start hcond.2
  · cases c with
    | emit sender err attempt =>
      have hopen : s.shared.errc.closed = false := hknows.open rfl
      obtain ⟨hsound, hclosed, htranslation, hnext⟩ := body_emit hopen sender err attempt
      refine ⟨⟨hsound.trans hs.inv.sound, fun hc => ?_⟩, ?_,
        fun _ _ hother => hother.congr hclosed htranslation⟩
      · cases hopen.symm.trans (hclosed.symm.trans hc)
      · refine Knows.congr ?_ hclosed htranslation
        rcases hnext with hnext | ⟨attempt', hnext⟩
        · rw [program, hnext]
          cases sender with
          | caller => trivial
          | translation => exact hknows.2
        · rw [program, hnext]
          cases sender with
          | _ => exact hknows
    | closeErrc =>
      exact ⟨⟨hs.inv.sound, fun _ => hknows⟩, trivial,
        fun t' _ hother => hother.close hknows (hcond.2 ht t')⟩
  · cases work_acts hk with
    | launch hunborn =>
      refine ⟨⟨hs.inv.sound, fun hc => ?_⟩, rfl, fun t' _ hother => ?_⟩
      · cases hunborn.symm.trans (hs.inv.joined hc)
      · refine hother.translates (fun htranslates => ?_) rfl fun hexited => ?_
        · exact (hcond.1 ()).1 t' htranslates fun hrunning => nomatch hunborn.symm.trans hrunning
        · cases hunborn.symm.trans hexited
    | upstream =>
      refine ⟨hs.inv, ⟨?_, hknows⟩, fun _ _ => id⟩
      refine Bool.eq_false_of_not_eq_true fun hc => ?_
      cases (show s.shared.translation = .running from hknows).symm.trans (hs.inv.joined hc)
    | exit =>
      refine ⟨⟨hs.inv.sound, fun _ => rfl⟩, trivial, fun t' hne hother => ?_⟩
      refine hother.translates (fun htranslates => ?_) rfl fun _ => rfl
      exact hne ((hcond.1 ()).2 t' t htranslates (by rw [ht]; trivial))
    | join hexited => exact ⟨hs.inv, hexited, fun _ _ => id⟩
    | received hreceived =>
      have hclosed := (Chan.tryRecv_eq_some hreceived).2.2
      exact ⟨⟨hs.inv.sound, fun hc => hs.inv.joined (hclosed.symm.trans hc)⟩, trivial,
        fun _ _ hother => hother.congr hclosed rfl⟩
    | _ =>
      exact ⟨⟨hs.inv.sound, hs.inv.joined⟩, trivial, fun _ _ hother => hother.congr rfl rfl⟩

theorem emitting_of_reporting (h : reporting x = true) : emitting x = true := by
  unfold reporting at h
  split at h
  · rfl
  · cases h

/-- What holds in every state of a run whose reports come before `Close`. -/
structure Guarded (s : System) : Prop where
  held : TranslationHeld s
  sound : Sound program Safe (fun s p => Knows s p.next) s

theorem Guarded.sendsOpen {s : System} (h : Guarded s) : SendsOpen s :=
  ⟨h.sound.inv.sound, fun t ht => (h.sound.assert t).open ht⟩

theorem Guarded.step {s s' : System} (h : Guarded s) {a : Action} (ha : ReportsBeforeClose s a)
    (hstep : PushAdapter.step s a = some s') : Guarded s' :=
  ⟨translationTokens.step h.held trivial hstep, sendsOutline.step h.sound ⟨h.held, ha⟩ hstep⟩

/-- A step after which no send on the closed channel lies ahead is one that is allowed. -/
theorem reportsBeforeClose_of_sendsOpen {s s' : System} {a : Action}
    (hstep : step s a = some s') (hgood : SendsOpen s') : ReportsBeforeClose s a := by
  cases Program.step_cases hstep with
  | @call t a x ht hx =>
    cases hx
    intro hreporting
    refine hgood.2 t ?_
    rw [State.move_point_self, Exit.next_point]
    exact emitting_of_reporting hreporting
  | @lock t r c ht hfree | @unlock t r c x ht | @work t r k shared x ht hk =>
    exact fun hc => nomatch ht.symm.trans hc
  | @body t r c ht =>
    intro hclose t'
    obtain rfl : c = .closeErrc := Point.inside.inj (ht.symm.trans hclose)
    refine Bool.eq_false_of_not_eq_true fun hreporting => ?_
    by_cases hne : t' = t
    · rw [hne, ht] at hreporting
      cases hreporting
    · -- the other thread still reports, and the channel is closed
      have hopen := hgood.2 t' (by
        rw [State.move_point_of_ne _ hne]
        exact emitting_of_reporting hreporting)
      cases hopen

/-- **Reports are safe exactly if they come before `Close`.** No send on the closed channel
takes place or lies ahead in a run exactly if no report of an error and no conversion that
fails is under way when `Close` closes the channel, and none begins afterwards. -/
theorem reports_safe_iff (run : List Action) :
    Always step SendsOpen init run ↔ EachStep step ReportsBeforeClose init run := by
  have hinit : Guarded init := ⟨held_init _ fun _ => id, sound_init ⟨rfl, nofun⟩ trivial⟩
  exact always_iff_eachStep (fun s hs => hs.sendsOpen) (fun s a s' hs ha hstep => hs.step ha hstep)
    (fun s a s' _ hstep hgood => reportsBeforeClose_of_sendsOpen hstep hgood) hinit run

/-- The translation goroutine begins, `Close` runs to its end, and then an error is reported. -/
def reportAfterClose : List Action :=
  [.call 0 .translateErrors, .run 0 .done, .call 1 .close, .run 1 .done, .run 1 .done, .run 1 .done,
    .run 0 .done, .run 1 .done, .run 1 .done, .run 1 .done, .run 1 .done, .run 1 .done,
    .call 2 (.report (some (.other (bytes "late")))), .run 2 .done, .run 2 .done]

/-- `Close` has returned, and the report sends on the closed channel. -/
theorem report_after_close_panics :
    ∃ s, exec step init reportAfterClose = some s ∧ s.point 1 = .idle ∧
      s.shared.closeOnce = .done ∧ s.shared.panicked = true ∧ ¬ SendsOpen s := by
  obtain ⟨s, hs, hreturned, hdone, hpanicked⟩ :
      ∃ s, exec step init reportAfterClose = some s ∧ s.point 1 = .idle ∧
        s.shared.closeOnce = .done ∧ s.shared.panicked = true := exec_exists (by decide +kernel)
  refine ⟨s, hs, hreturned, hdone, hpanicked, fun hopen => ?_⟩
  cases hopen.1.symm.trans hpanicked

end HstongApi.PushAdapter
