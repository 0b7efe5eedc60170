import HstongApi.SessionService

/-!
# The session service and the Gateway

The Gateway has a session for an account from the moment it accepts a login until it accepts
a logout. The store follows later: the leader of a login saves the session after the reply,
and `Logout` clears the store after the reply, with no lock between the request and the
write. When the writes come in another order than the requests, the store and the Gateway
disagree for good.

`store_agrees` says that this is the only way: if each request is accepted while no other
thread has yet to write what an earlier request of the account asks for, then the store and
the Gateway agree whenever no call is under way. The store may hold any sessions to begin
with.
-/

namespace HstongApi.SessionService

open Threads
open Auth (AccountID Session)
open Function (update_self update_of_ne update)

/-- The account whose request the Gateway answers. -/
def Work.requests : Work → Option AccountID
  | .auth _ (.request account _) | .logoutRequest account => some account
  | _ => none

/-- The account whose store the thread has yet to write after its request was accepted. -/
def owesWrite : Exit Section Work → Option AccountID
  | .go (.auth _ (.save account _ _)) | .go (.logoutClear account) => some account
  | _ => none

/-- The Gateway accepts all requests. -/
def AllAccepted (s : System) : Action → Prop
  | .call _ _ => True
  | .run t r => ∀ k, s.point t = .work k → k.requests ≠ none →
      r.err = none ∧ tradeSessionAccepted r = true

/-- The operations of the store succeed. -/
def Reliable (s : System) : Action → Prop
  | .call _ _ => True
  | .run t r => ∀ k, s.point t = .work k → k.usesStore = true → r.err = none

instance (s : System) : DecidablePred (AllAccepted s) := by
  rintro (_ | _) <;> dsimp only [AllAccepted] <;> infer_instance

instance (s : System) : DecidablePred (Reliable s) := by
  rintro (_ | _) <;> dsimp only [Reliable] <;> infer_instance

/-- A request is answered while no other thread has yet to write the store of the account. -/
def RequestsApart (s : System) : Action → Prop
  | .call _ _ => True
  | .run t _ => ∀ k account, s.point t = .work k → k.requests = some account →
      ∀ t', t' ≠ t → owesWrite (s.point t').next ≠ some account

/-- **The store has a session for an account exactly if the Gateway has one.** -/
def Agrees (s : Shared) (account : AccountID) : Prop :=
  (s.auth.store account).isSome = s.gateway account

variable {s : Shared} {account : AccountID} {r : Reply}

variable {s' : Shared}

theorem Agrees.congr (h : Agrees s account) (hstore : s'.auth.store account = s.auth.store account)
    (hgateway : s'.gateway account = s.gateway account) : Agrees s' account := by
  rw [Agrees, hstore, hgateway]
  exact h

/-! ## What a thread knows -/

/-- What a thread knows before a section: an error does not make it discard the session. -/
def Section.Sure : Section → Prop
  | .auth _ (.finish _ _ (.error err)) => sessionUnusable err = false
  | _ => True

/-- And outside the sections: a thread that owes a write knows what the Gateway has. -/
def Work.Sure (s : Shared) : Work → Prop
  | .auth _ (.save account _ _) => s.gateway account = true
  | .logoutClear account => s.gateway account = false
  | .discard _ _ err => sessionUnusable err = false
  | _ => True

/-- What a thread knows at a point. -/
def Sure (s : Shared) : Exit Section Work → Prop
  | .ret => True
  | .enter c => c.Sure
  | .go k => k.Sure s

theorem Sure.gateway {x : Exit Section Work} (h : Sure s x)
    (hgateway : ∀ account, owesWrite x = some account → s'.gateway account = s.gateway account) :
    Sure s' x := by
  cases x with
  | ret => trivial
  | enter c => exact h
  | go k =>
    cases k with
    | logoutClear account => exact (hgateway account rfl).trans h
    | auth n k =>
      cases k with
      | save account flight token => exact (hgateway account rfl).trans h
      | _ => trivial
    | discard account n err => exact h
    | _ => trivial

/-- The end of a context is no reason to discard a session. -/
theorem sessionUnusable_ctxErr {err : GoError} (h : r.ctxErr = some err) :
    sessionUnusable err = false := by
  obtain ⟨cause, -, rfl⟩ := Option.map_eq_some_iff.mp h
  split <;> rfl

/-- And neither is a session that is not in the store. -/
theorem sessionUnusable_sessionFromStore {s : Auth.State} (hread : r.err = none) {err : GoError}
    (h : s.sessionFromStore account r = .error err) : sessionUnusable err = false := by
  simp only [Auth.State.sessionFromStore, hread] at h
  split at h <;> cases h
  rfl

theorem wireLogin_accepted (h : r.err = none ∧ tradeSessionAccepted r = true) :
    wireLogin r = .ok r.data := by
  simp only [wireLogin, h.1, h.2, if_true]

variable {out : Auth.State × Auth.Next} {k : Auth.Work}

/-- The store and the Gateway during a flight, when requests are accepted and the store is
reliable. -/
theorem sure_authActs {n : ℕ} (h : Auth.Acts wireLogin s.auth k r out)
    (haccepted : (Work.auth n k).requests ≠ none → r.err = none ∧ tradeSessionAccepted r = true)
    (hstore : (Work.auth n k).usesStore = true → r.err = none) :
    Sure ({ s with auth := out.1 }.acknowledge k r) (proceed k.account n out.2) := by
  have hresult : ∀ s' account (result : Auth.Result),
      (∀ err, result = .error err → sessionUnusable err = false) → ∀ role,
      Sure s' (proceed account n (.done role result)) := by
    intro s' account result hresult role
    cases result with
    | ok sess => trivial
    | error err => exact hresult err rfl
  have hfinish : ∀ account flight (result : Auth.Result),
      (∀ err, result = .error err → sessionUnusable err = false) →
      (Section.auth n (.finish account flight result)).Sure := by
    intro account flight result hresult
    cases result with
    | ok sess => trivial
    | error err => exact hresult err rfl
  cases h with
  | cancel hdone => exact sessionUnusable_ctxErr hdone
  | wake | send => trivial
  | follow => exact hresult _ _ _ (fun err => sessionUnusable_sessionFromStore (hstore rfl)) _
  | unencrypted => rfl
  | refused hrefused => cases (wireLogin_accepted (haccepted nofun)).symm.trans hrefused
  | accepted hok =>
    rw [acknowledge_ok _ _ hok]
    exact update_self ..
  | unsaved hunsaved => cases (hstore rfl).symm.trans hunsaved
  | saved => trivial
  | read => exact hfinish _ _ _ fun err => sessionUnusable_sessionFromStore (hstore rfl)

/-- Only a request that is answered changes what the Gateway has. -/
theorem gateway_authActs {n : ℕ} (h : Auth.Acts wireLogin s.auth k r out)
    (hother : (Work.auth n k).requests ≠ some account) :
    ({ s with auth := out.1 }.acknowledge k r).gateway account = s.gateway account := by
  cases h with
  | refused hrefused => rw [acknowledge_error _ _ _ hrefused]
  | accepted hok =>
    rw [acknowledge_ok _ _ hok]
    exact update_of_ne (fun heq => hother (congrArg some heq.symm)) ..
  | _ => rfl

/-! ## Agreement -/

section

variable [UnicodeTables]

/-- The requests are accepted and apart, and the store is reliable. -/
structure Smooth (s : System) (a : Action) : Prop where
  accepted : AllAccepted s a
  reliable : Reliable s a
  apart : RequestsApart s a

/-- What the threads know about the Gateway. -/
theorem gatewayOutline : NextOutline (τ := ℕ) program Smooth (fun _ => True) Sure := by
  refine .of_acts (fun {s t a x} _ _ hx => ?_) (fun {s t r c} hs _ ht hsure => ?_)
    fun {s t r k shared x} hs hsmooth ht hk _ => ?_
  · cases a <;> cases hx <;> trivial
  · cases c with
    | begin account =>
      simp only [program, body]
      split <;> exact ⟨trivial, trivial, fun _ _ hother => hother.gateway fun _ _ => rfl⟩
    | publish account n result =>
      exact ⟨trivial, trivial, fun _ _ hother => hother.gateway fun _ _ => rfl⟩
    | auth n c =>
      refine ⟨trivial, ?_, fun _ _ hother => hother.gateway fun _ _ => rfl⟩
      cases c with
      | begin account =>
        simp only [program, body, Auth.body]
        split <;> trivial
      | finish account flight result =>
        cases result with
        | ok sess => trivial
        | error err => exact hsure
  · have hothers : ∀ t', t' ≠ t → ∀ account, owesWrite (s.point t').next = some account →
        k.requests ≠ some account := fun t' hne account howes hrequests =>
      hsmooth.apart k account ht hrequests t' hne howes
    cases work_acts hk with
    | auth hauth =>
      exact ⟨trivial, sure_authActs hauth (hsmooth.accepted _ ht) (hsmooth.reliable _ ht),
        fun t' hne hother => hother.gateway fun account howes =>
          gateway_authActs hauth (hothers t' hne account howes)⟩
    | logoutAccepted =>
      refine ⟨trivial, update_self .., fun t' hne hother => hother.gateway fun a howes => ?_⟩
      exact update_of_ne (fun heq => hothers t' hne a howes (congrArg some heq.symm)) ..
    | _ => exact ⟨trivial, trivial, fun _ _ hother => hother.gateway fun _ _ => rfl⟩

omit [UnicodeTables] in
/-- A write that the Gateway asks for makes the store agree, and leaves other accounts alone. -/
theorem agrees_write {a : AccountID} {held : Option Session}
    (hdone : Agrees s account ∨ some a = some account)
    (hstore : s'.auth.store = update s.auth.store a held) (hsame : s'.gateway = s.gateway)
    (hgateway : s.gateway a = held.isSome) : Agrees s' account := by
  by_cases ha : account = a
  · subst ha
    rw [Agrees, hstore, hsame, update_self, hgateway]
  · have hagrees : Agrees s account := hdone.resolve_right fun heq => ha (Option.some.inj heq).symm
    refine hagrees.congr ?_ (congrFun hsame account)
    rw [hstore, update_of_ne ha]

omit [UnicodeTables] in
/-- A request leaves a write to do, and the write makes the store agree. -/
theorem agrees_authActs {n : ℕ} (h : Auth.Acts wireLogin s.auth k r out)
    (hsure : (Work.auth n k).Sure s) (hstore : (Work.auth n k).usesStore = true → r.err = none)
    (hdone : Agrees s account ∨ owesWrite (.go (.auth n k)) = some account) :
    Agrees ({ s with auth := out.1 }.acknowledge k r) account ∨
      owesWrite (proceed k.account n out.2) = some account := by
  cases h with
  | cancel | wake | follow | unencrypted | send | read => exact .inl (hdone.resolve_right nofun)
  | refused hrefused =>
    rw [acknowledge_error _ _ _ hrefused]
    exact .inl (hdone.resolve_right nofun)
  | @accepted a flight _ token hok =>
    by_cases ha : account = a
    · exact .inr (congrArg some ha.symm)
    · rw [acknowledge_ok _ _ hok]
      have hagrees : Agrees s account := hdone.resolve_right nofun
      exact .inl (hagrees.congr rfl (update_of_ne ha ..))
  | unsaved hunsaved => cases (hstore rfl).symm.trans hunsaved
  | saved => exact .inl (agrees_write hdone rfl rfl hsure)

/-- The store agrees with the Gateway, or a thread owes it a write. -/
theorem writeDebts : Debts (τ := ℕ) program
    (fun (s : System) (a : Action) => Smooth s a ∧
      Sound program (fun _ => True) (fun s p => Sure s p.next) s)
    Agrees (fun x account => owesWrite x = some account) where
  ret _ := nofun
  body {s t r c account} _ _ h := by
    have hagrees : Agrees s.shared account := h.resolve_right nofun
    refine .inl ?_
    cases c with
    | begin a =>
      simp only [program, body]
      split <;> exact hagrees
    | publish a n result => exact hagrees
    | auth n c => exact hagrees.congr (congrFun (Auth.store_body s.shared.auth c) account) rfl
  work {s t r k shared x account} hcond ht hk h := by
    have hacts := work_acts hk
    have hsure : Sure s.shared (.go k) := hcond.2.at_point ht
    have hstore := hcond.1.reliable k ht
    cases hacts with
    | auth hauth => exact agrees_authActs hauth hsure hstore h
    | discarded hunusable => cases hsure.symm.trans hunusable
    | @logoutAccepted a _ =>
      by_cases ha : account = a
      · exact .inr (congrArg some ha.symm)
      · have hagrees : Agrees s.shared account := h.resolve_right nofun
        exact .inl (hagrees.congr rfl (update_of_ne ha ..))
    | uncleared hfailed => cases (hstore rfl).symm.trans hfailed
    | cleared => exact .inl (agrees_write h rfl rfl hsure)
    | _ => exact .inl (h.resolve_right nofun)

/-- **The store agrees with the Gateway.** In a run in which all requests are accepted, the
store is reliable, and each request is answered while no other thread has yet to write the
store of the account, the store has a session for an account exactly if the Gateway has one,
whenever no call is under way. -/
theorem store_agrees (store : AccountID → Option Session) (run : List Action)
    (haccepted : EachStep step AllAccepted (init store) run)
    (hreliable : EachStep step Reliable (init store) run)
    (hapart : EachStep step RequestsApart (init store) run) :
    Always step (fun s => s.Quiescent → ∀ account, Agrees s.shared account) (init store) run := by
  have hall : Always step (fun s => Sound program (fun _ => True) (fun s p => Sure s p.next) s ∧
      Accounted Agrees (fun x account => owesWrite x = some account) s) (init store) run := by
    refine (haccepted.and (hreliable.and hapart)).always (fun s a s' hs hcond hstep => ?_)
      ⟨sound_init trivial trivial, fun _ => .inl rfl⟩
    have hsmooth : Smooth s a := ⟨hcond.1, hcond.2.1, hcond.2.2⟩
    exact ⟨gatewayOutline.step hs.1 hsmooth hstep, writeDebts.step hs.2 ⟨hsmooth, hs.1⟩ hstep⟩
  exact hall.mono fun s hs hquiet => hs.2.quiescent (fun _ => nofun) hquiet

end

/-- A session that is due. -/
def dueSession : Session := ⟨bytes "old", bytes "a", 0, 0⟩

/-- Thread `0` renews a session, and thread `1` logs out between the reply and the save. -/
def overtakenSave : List Action :=
  acts 0 (.login (bytes "a") (bytes "p")) 10 ++ acts 1 (.logout (bytes "a")) 3 ++ actsOn 0 8

/-- The store has a session for the account and the Gateway has none. -/
theorem overtaken_save_disagrees :
    EachStep (@step asciiTables) AllAccepted (init fun _ => some dueSession) overtakenSave ∧
    ∃ s, exec (@step asciiTables) (init fun _ => some dueSession) overtakenSave = some s ∧
      s.Quiescent ∧ ¬ Agrees s.shared (bytes "a") := by
  obtain ⟨s, hs, hidle, hstore, hgateway⟩ :
      ∃ s, exec (@step asciiTables) (init fun _ => some dueSession) overtakenSave = some s ∧
        (∀ ev ∈ overtakenSave, s.point ev.thread = .idle) ∧
        (s.shared.auth.store (bytes "a")).isSome = true ∧ s.shared.gateway (bytes "a") = false :=
    exec_exists (by decide +kernel)
  refine ⟨by decide +kernel, s, hs, Program.quiescent_of_exec hs hidle, fun hagrees => ?_⟩
  rw [Agrees, hstore, hgateway] at hagrees
  cases hagrees

/-- The logout comes after the save, and a login after the logout. -/
def savesInTime : List Action :=
  acts 0 (.login (bytes "a") (bytes "p")) 18 ++ acts 1 (.logout (bytes "a")) 3 ++
    acts 0 (.login (bytes "a") (bytes "p")) 18

theorem store_agrees_savesInTime :
    (exec (@step asciiTables) (init fun _ => some dueSession) savesInTime).isSome = true ∧
    Always (@step asciiTables) (fun s => s.Quiescent → ∀ account, Agrees s.shared account)
      (init fun _ => some dueSession) savesInTime := by
  refine ⟨by decide +kernel, @store_agrees asciiTables (fun _ => some dueSession) savesInTime
    (by decide +kernel) (by decide +kernel) ?_⟩
  have hapart : EachStep (@step asciiTables) (fun s ev => ∀ t' ∈ [0, 1], t' ≠ ev.thread →
      owesWrite (s.point t').next = none) (init fun _ => some dueSession) savesInTime := by
    decide +kernel
  have hidle : EachStep (@step asciiTables) (fun s _ => ∀ t', t' ∉ [0, 1] → s.point t' = .idle)
      (init fun _ => some dueSession) savesInTime :=
    Program.eachStep_idle (by decide) fun _ _ => rfl
  refine (hapart.and hidle).mono fun s ev hev => ?_
  cases ev with
  | call t call => trivial
  | run t r =>
    intro k account _ _ t' hne howes
    by_cases ht' : t' ∈ [0, 1]
    · cases (hev.1 t' ht' hne).symm.trans howes
    · rw [hev.2 t' ht'] at howes
      cases howes

end HstongApi.SessionService
