import HstongApi.Auth

/-!
# What a follower of a login returns

Any number of threads call `Authenticator.Login`. A follower learns that its flight has
ended, and not how. If the flight failed and the store holds a session, one from before or
one that another flight has saved meanwhile, the follower returns that session.

`followers_faithful` says when this does not happen: each flight that fails leaves no
session in the store, and no session is saved while a follower of a failed flight has yet
to read. Then a follower returns a session only if its flight succeeded, and it is the
session of that flight or of a later one.
-/

namespace HstongApi.Auth

open Threads
open Function (update_self update_of_ne)

/-! ## The program -/

/-- What the threads share. -/
structure Shared where
  auth : State
  /-- the calls that have returned -/
  returns : List (Role × Result) := []

/-- Where the call goes next. -/
def Next.exit : Next → Exit Section Work
  | .done _ _ => .ret
  | .enter c => .enter c
  | .go k => .go k

/-- A call that returns is recorded. -/
def record (returns : List (Role × Result)) : Next → List (Role × Result)
  | .done role result => (role, result) :: returns
  | .enter _ | .go _ => returns

/-- The call goes on, or returns. -/
def settle (s : Shared) (out : State × Next) : Shared × Exit Section Work :=
  (⟨out.1, record s.returns out.2⟩, out.2.exit)

/-- The injected `loginFn`: it returns a token or an error. -/
def loginFn (r : Reply) : Except GoError Bytes :=
  match r.err with
  | some err => .error err
  | none => .ok r.data

/-- The authenticator as a program, with one mutex. A call is named by its account. -/
def program : Program Shared Reply AccountID Section Work Unit where
  start := fun account _ => some (.enter (.begin account))
  mutex := fun _ => ()
  body := fun c _ s => ((settle s (body s.auth c)).1, .leave (settle s (body s.auth c)).2)
  work := fun k r s => (work loginFn s.auth k r).map (settle s)
  mutex_stay := fun _ _ _ _ _ => rfl

/-- The threads are numbered. -/
abbrev System : Type := Threads.State Shared Section Work Unit ℕ

/-- A thread calls `Login` for an account, or does its next action. -/
abbrev Action : Type := Event Reply AccountID ℕ

/-- One step of the system. -/
def step : System → Action → Option System := program.step

/-- A new authenticator over a store. -/
def init (tokenTTL : Int64) (store : AccountID → Option Session) : System :=
  .init { auth := { tokenTTL := tokenTTL, store := store } }

/-! ## Leaders exclude each other -/

/-- The thread leads a flight of the account. -/
def leads (account : AccountID) : Exit Section Work → Prop
  | .ret => False
  | .enter c => c.leads account
  | .go k => k.leads account

theorem leads_exit {next : Next} {account : AccountID} :
    leads account next.exit ↔ next.leads account := by
  cases next <;> exact Iff.rfl

/-- An account that is not pending is free to be led. -/
theorem leaderTokens : Tokens (τ := ℕ) program (fun _ _ => True)
    (fun s account => s.auth.pending account = false) (fun x account => leads account x) where
  start {s t a x i} _ hx := by
    cases hx
    exact id
  body_take {s t r c i} _ _ _ hp := by
    obtain ⟨hpending, hfree⟩ := (body_leads s.shared.auth c i).1 (leads_exit.mp hp)
    exact ⟨fun hnot => Bool.false_ne_true (hnot.symm.trans hpending), .inr hfree⟩
  body_give {s t r c i} _ _ hfree := (body_leads s.shared.auth c i).2 hfree
  work_take {s t r k shared x i} hs _ ht hk hp := by
    obtain ⟨out, hout, heq⟩ := Option.map_eq_some_iff.mp hk
    obtain ⟨hpending, hleads⟩ := (work_acts hout).leads i
    cases heq
    have hhad : k.leads i := hleads (leads_exit.mp hp)
    refine ⟨fun hfree => ?_, .inl hhad⟩
    exact hs.not_free i ht hhad ((congrFun hpending i).symm.trans hfree)
  work_give {s t r k shared x i} _ _ hk hfree := by
    obtain ⟨out, hout, heq⟩ := Option.map_eq_some_iff.mp hk
    obtain ⟨hpending, -⟩ := (work_acts hout).leads i
    cases heq
    exact .inl ((congrFun hpending i).symm.trans hfree)

/-! ## Flights and the store -/

/-- A flight has failed. -/
def Failed (s : State) (flight : ℕ) : Prop := ∃ err, (flight, .error err) ∈ s.ended

/-- A flight has succeeded. -/
def Succeeded (s : State) (flight : ℕ) : Prop := ∃ sess, (flight, .ok sess) ∈ s.ended

/-- **A follower is faithful to its flight.** It returns a session only if the flight has
succeeded, namely the one that this flight or a later one has stored, which did not fail. If
the flight has failed it returns an error. -/
def Faithful (s : Shared) : Prop :=
  ∀ flight result, (Role.follower (some flight), result) ∈ s.returns →
    (∀ sess, result = .ok sess → Succeeded s.auth flight ∧
      ∃ later, flight ≤ later ∧ (later, sess) ∈ s.auth.stored ∧ ¬ Failed s.auth later) ∧
    (Failed s.auth flight → ∃ err, result = .error err)

/-- The thread follows a flight of the account. -/
def follows (account : AccountID) (flight : ℕ) : Exit Section Work → Prop
  | .go (.await a f) => a = account ∧ f = some flight
  | .go (.follow a f) => a = account ∧ f = flight
  | _ => False

/-- A flight fails while the store has no session for its account, and no session is saved
while a follower of a failed flight has yet to read. -/
def FailsClean (s : System) : Action → Prop
  | .call _ _ => True
  | .run t r =>
    (∀ account flight err, s.point t = .inside (.finish account flight (.error err)) →
      s.shared.auth.store account = none) ∧
    (∀ account flight token, s.point t = .work (.save account flight token) → r.err = none →
      ∀ t' failed, follows account failed (s.point t').next → ¬ Failed s.shared.auth failed)

/-- The store holds a session of the flight or of a later one. -/
def Current (s : State) (account : AccountID) (flight : ℕ) : Prop :=
  ∃ sess later, s.store account = some sess ∧ flight ≤ later ∧ (later, sess) ∈ s.stored

/-- What a follower knows: its flight is in the air, or it has succeeded and the store is up
to date, or it has failed and the store is empty. -/
structure Waiting (s : State) (account : AccountID) (flight : ℕ) : Prop where
  begun : flight < s.begun
  outcome : s.flights account = some flight ∨
    (Succeeded s flight ∧ Current s account flight ∧
      ∀ next, s.flights account = some next → flight ≤ next) ∨
    (Failed s flight ∧ s.store account = none)

/-- The bookkeeping of the flights. -/
structure Kept (s : State) : Prop where
  pending : ∀ {account flight}, s.flights account = some flight → s.pending account = true
  begun : ∀ {account flight}, s.flights account = some flight → flight < s.begun
  inj : ∀ {account account' flight}, s.flights account = some flight →
    s.flights account' = some flight → account = account'
  open_ : ∀ {account flight result}, s.flights account = some flight → (flight, result) ∉ s.ended
  closed : ∀ {flight}, flight ∈ s.closed → ∃ result, (flight, result) ∈ s.ended
  ended : ∀ {flight result}, (flight, result) ∈ s.ended → flight < s.begun
  once : ∀ {flight result result'}, (flight, result) ∈ s.ended → (flight, result') ∈ s.ended →
    result = result'
  stored : ∀ {flight sess}, (flight, sess) ∈ s.stored → flight < s.begun
  account : ∀ {account flight sess}, s.flights account = some flight → (flight, sess) ∈ s.stored →
    sess.accountID = account
  present : ∀ {flight sess}, (flight, sess) ∈ s.stored → s.store sess.accountID ≠ none
  sound : ∀ {flight sess}, (flight, sess) ∈ s.stored → ¬ Failed s flight

/-- What a thread knows before a section. -/
def Section.Knows (s : State) : Section → Prop
  | .begin _ => True
  | .finish account flight result => s.flights account = some flight ∧
      ((∃ sess, result = .ok sess) → Current s account flight)

/-- And outside the sections. -/
def Work.Knows (s : State) : Work → Prop
  | .await account flight => ∀ f, flight = some f → Waiting s account f
  | .follow account flight => Waiting s account flight ∧ ∃ result, (flight, result) ∈ s.ended
  | .encrypt account flight | .request account flight | .save account flight _ =>
    s.flights account = some flight
  | .read account flight => s.flights account = some flight ∧ Current s account flight

/-- What a thread knows at a point. -/
def Knows (s : State) : Exit Section Work → Prop
  | .ret => True
  | .enter c => c.Knows s
  | .go k => k.Knows s

/-! ## What the actions keep -/

variable {sess : Session}

section

variable {s : State} {account other : AccountID} {flight leading : ℕ} {result : Result}

theorem Kept.beginFlight (h : Kept s) (hfree : s.pending account = false) :
    Kept (s.beginFlight account) := by
  -- a flight of the account is the new one, and other accounts keep theirs
  have hflights : ∀ {a f}, (s.beginFlight account).flights a = some f →
      (a = account ∧ f = s.begun) ∨ (a ≠ account ∧ s.flights a = some f) := by
    intro a f hf
    simp only [State.beginFlight] at hf
    by_cases ha : a = account
    · rw [ha, update_self] at hf
      exact .inl ⟨ha, (Option.some.inj hf).symm⟩
    · rw [update_of_ne ha] at hf
      exact .inr ⟨ha, hf⟩
  constructor
  case pending =>
    intro a f hf
    rcases hflights hf with ⟨rfl, -⟩ | ⟨ha, hold⟩
    · exact update_self ..
    · exact (update_of_ne ha ..).trans (h.pending hold)
  case begun =>
    intro a f hf
    rcases hflights hf with ⟨-, rfl⟩ | ⟨-, hold⟩
    · exact Nat.lt_succ_self _
    · exact Nat.lt_succ_of_lt (h.begun hold)
  case inj =>
    intro a a' f hf hf'
    rcases hflights hf with ⟨rfl, rfl⟩ | ⟨-, hold⟩ <;> rcases hflights hf' with ⟨rfl, hnew⟩ | ⟨-, hold'⟩
    · rfl
    · exact absurd (h.begun hold') (Nat.lt_irrefl _)
    · exact absurd (hnew ▸ h.begun hold) (Nat.lt_irrefl _)
    · exact h.inj hold hold'
  case open_ =>
    intro a f r hf hr
    rcases hflights hf with ⟨-, rfl⟩ | ⟨-, hold⟩
    · exact absurd (h.ended hr) (Nat.lt_irrefl _)
    · exact h.open_ hold hr
  case closed => exact h.closed
  case ended => exact fun hr => Nat.lt_succ_of_lt (h.ended hr)
  case once => exact h.once
  case stored => exact fun hs => Nat.lt_succ_of_lt (h.stored hs)
  case account =>
    intro a f sess hf hs
    rcases hflights hf with ⟨-, rfl⟩ | ⟨-, hold⟩
    · exact absurd (h.stored hs) (Nat.lt_irrefl _)
    · exact h.account hold hs
  case present => exact h.present
  case sound => exact h.sound

theorem Kept.endFlight (h : Kept s) (hf : s.flights account = some flight)
    (hclean : ∀ err, result = .error err → s.store account = none) :
    Kept (s.endFlight account flight result) := by
  have hflights : ∀ {a f}, (s.endFlight account flight result).flights a = some f →
      a ≠ account ∧ s.flights a = some f := by
    intro a f hf
    simp only [State.endFlight] at hf
    by_cases ha : a = account
    · rw [ha, update_self] at hf
      cases hf
    · rw [update_of_ne ha] at hf
      exact ⟨ha, hf⟩
  constructor
  case pending =>
    intro a f ha
    obtain ⟨hne, hold⟩ := hflights ha
    exact (update_of_ne hne ..).trans (h.pending hold)
  case begun => exact fun ha => h.begun (hflights ha).2
  case inj => exact fun ha ha' => h.inj (hflights ha).2 (hflights ha').2
  case open_ =>
    intro a f r ha hr
    obtain ⟨hne, hold⟩ := hflights ha
    rcases List.mem_cons.mp hr with heq | hr
    · cases heq
      exact hne (h.inj hold hf)
    · exact h.open_ hold hr
  case closed =>
    intro f hclosed
    rcases List.mem_append.mp hclosed with hnew | hold
    · rw [hf, Option.toList_some, List.mem_singleton] at hnew
      exact ⟨result, by rw [hnew]; exact List.mem_cons_self⟩
    · obtain ⟨r, hr⟩ := h.closed hold
      exact ⟨r, List.mem_cons_of_mem _ hr⟩
  case ended =>
    intro f r hr
    rcases List.mem_cons.mp hr with heq | hr
    · cases heq
      exact h.begun hf
    · exact h.ended hr
  case once =>
    intro f r r' hr hr'
    rcases List.mem_cons.mp hr with heq | hold <;> rcases List.mem_cons.mp hr' with heq' | hold'
    · exact (Prod.ext_iff.mp heq).2.trans (Prod.ext_iff.mp heq').2.symm
    · cases heq
      exact absurd hold' (h.open_ hf)
    · obtain ⟨rfl, -⟩ := Prod.ext_iff.mp heq'
      exact absurd hold (h.open_ hf)
    · exact h.once hold hold'
  case stored => exact h.stored
  case account => exact fun ha hs => h.account (hflights ha).2 hs
  case present => exact h.present
  case sound =>
    rintro f sess hs ⟨err, hr⟩
    rcases List.mem_cons.mp hr with heq | hr
    · -- a flight that has stored its session leaves it in the store
      obtain ⟨rfl, herr⟩ := Prod.ext_iff.mp heq
      exact h.present hs (h.account hf hs ▸ hclean err herr.symm)
    · exact h.sound hs ⟨err, hr⟩

theorem Kept.save (h : Kept s) (hf : s.flights sess.accountID = some flight) :
    Kept (s.save flight sess) where
  pending := h.pending
  begun := h.begun
  inj := h.inj
  open_ := h.open_
  closed := h.closed
  ended := h.ended
  once := h.once
  stored := by
    intro f sess' hs
    rcases List.mem_cons.mp hs with heq | hs
    · cases heq
      exact h.begun hf
    · exact h.stored hs
  account := by
    intro a f sess' ha hs
    rcases List.mem_cons.mp hs with heq | hs
    · cases heq
      exact h.inj hf ha
    · exact h.account ha hs
  present := by
    intro f sess' hs
    simp only [State.save]
    by_cases ha : sess'.accountID = sess.accountID
    · rw [ha, update_self]
      exact nofun
    · rw [update_of_ne ha]
      rcases List.mem_cons.mp hs with heq | hs
      · exact absurd (congrArg (·.2.accountID) heq) ha
      · exact h.present hs
  sound := by
    intro f sess' hs
    rcases List.mem_cons.mp hs with heq | hs
    · cases heq
      rintro ⟨err, hr⟩
      exact h.open_ hf hr
    · exact h.sound hs

theorem Current.save (h : Current s account flight)
    (hlater : account = sess.accountID → flight ≤ leading) :
    Current (s.save leading sess) account flight := by
  by_cases ha : account = sess.accountID
  · subst ha
    exact ⟨sess, leading, update_self .., hlater rfl, List.mem_cons_self⟩
  · obtain ⟨held, later, hheld, hle, hmem⟩ := h
    exact ⟨held, later, (update_of_ne ha ..).trans hheld, hle, List.mem_cons_of_mem _ hmem⟩

/-- A flight that begins is later than those that others follow. -/
theorem Waiting.beginFlight (h : Waiting s account flight) (hkept : Kept s)
    (hfree : s.pending other = false) : Waiting (s.beginFlight other) account flight := by
  refine ⟨Nat.lt_succ_of_lt h.begun, ?_⟩
  rcases h.outcome with hair | ⟨hok, hcurrent, hnext⟩ | hfailed
  · refine .inl ?_
    have hne : account ≠ other := by
      rintro rfl
      exact Bool.false_ne_true (hfree.symm.trans (hkept.pending hair))
    exact (update_of_ne hne ..).trans hair
  · refine .inr (.inl ⟨hok, hcurrent, fun next hn => ?_⟩)
    simp only [State.beginFlight] at hn
    by_cases ha : account = other
    · rw [ha, update_self] at hn
      exact Option.some.inj hn ▸ Nat.le_of_lt h.begun
    · rw [update_of_ne ha] at hn
      exact hnext next hn
  · exact .inr (.inr hfailed)

/-- The end of a flight tells its followers what to find in the store. -/
theorem Waiting.endFlight (h : Waiting s account flight) (hf : s.flights other = some leading)
    (hok : (∃ sess, result = .ok sess) → Current s other leading)
    (hclean : ∀ err, result = .error err → s.store other = none) :
    Waiting (s.endFlight other leading result) account flight := by
  refine ⟨h.begun, ?_⟩
  rcases h.outcome with hair | ⟨⟨sess, hsess⟩, hcurrent, hnext⟩ | ⟨⟨err, herr⟩, hempty⟩
  · by_cases ha : account = other
    · subst ha
      obtain rfl : leading = flight := Option.some.inj (hf.symm.trans hair)
      cases result with
      | ok sess =>
        refine .inr (.inl ⟨⟨sess, List.mem_cons_self⟩, hok ⟨sess, rfl⟩, fun next hn => ?_⟩)
        simp only [State.endFlight, update_self] at hn
        cases hn
      | error err => exact .inr (.inr ⟨⟨err, List.mem_cons_self⟩, hclean err rfl⟩)
    · exact .inl ((update_of_ne ha ..).trans hair)
  · refine .inr (.inl ⟨⟨sess, List.mem_cons_of_mem _ hsess⟩, hcurrent, fun next hn => ?_⟩)
    simp only [State.endFlight] at hn
    by_cases ha : account = other
    · rw [ha, update_self] at hn
      cases hn
    · rw [update_of_ne ha] at hn
      exact hnext next hn
  · exact .inr (.inr ⟨⟨err, List.mem_cons_of_mem _ herr⟩, hempty⟩)

/-- A save is of the flight in the air, and not seen by a follower of a failed one. -/
theorem Waiting.save (h : Waiting s account flight) (hf : s.flights sess.accountID = some leading)
    (hclean : account = sess.accountID → ¬ Failed s flight) :
    Waiting (s.save leading sess) account flight := by
  refine ⟨h.begun, ?_⟩
  rcases h.outcome with hair | ⟨hok, hcurrent, hnext⟩ | ⟨hfailed, hempty⟩
  · exact .inl hair
  · refine .inr (.inl ⟨hok, hcurrent.save fun ha => ?_, hnext⟩)
    exact hnext leading (ha ▸ hf)
  · refine .inr (.inr ⟨hfailed, ?_⟩)
    have hne : account ≠ sess.accountID := fun ha => hclean ha hfailed
    exact (update_of_ne hne ..).trans hempty

/-- What a thread knows outlives the actions that leave alone the account it leads and keep
what a follower knows. -/
theorem Knows.mono {s s' : State} {x : Exit Section Work} (h : Knows s x)
    (hflights : ∀ account, leads account x → s'.flights account = s.flights account)
    (hcurrent : ∀ account flight, leads account x → Current s account flight →
      Current s' account flight)
    (hended : ∀ a ∈ s.ended, a ∈ s'.ended)
    (hwait : ∀ account flight, follows account flight x → Waiting s account flight →
      Waiting s' account flight) : Knows s' x := by
  cases x with
  | ret => trivial
  | enter c =>
    cases c with
    | begin account => trivial
    | finish account flight result =>
      exact ⟨(hflights account rfl).trans h.1, fun hok => hcurrent account flight rfl (h.2 hok)⟩
  | go k =>
    cases k with
    | await account flight => exact fun f hf => hwait account f ⟨rfl, hf⟩ (h f hf)
    | follow account flight =>
      obtain ⟨hwaiting, result, hresult⟩ := h
      exact ⟨hwait account flight ⟨rfl, rfl⟩ hwaiting, result, hended _ hresult⟩
    | encrypt account flight | request account flight | save account flight token =>
      exact (hflights account rfl).trans h
    | read account flight =>
      exact ⟨(hflights account rfl).trans h.1, hcurrent account flight rfl h.2⟩

end

/-! ## Followers are faithful -/

/-- The flights are kept in order, and the followers that have returned are faithful. -/
structure Recorded (s : Shared) : Prop where
  kept : Kept s.auth
  returned : ∀ {flight result}, (Role.follower (some flight), result) ∈ s.returns →
    (∀ sess, result = .ok sess → Succeeded s.auth flight ∧
      ∃ later, flight ≤ later ∧ (later, sess) ∈ s.auth.stored)

theorem Recorded.faithful {s : Shared} (h : Recorded s) : Faithful s := by
  intro flight result hmem
  refine ⟨fun sess hsess => ?_, ?_⟩
  · obtain ⟨hok, later, hle, hstored⟩ := h.returned hmem sess hsess
    exact ⟨hok, later, hle, hstored, h.kept.sound hstored⟩
  · rintro ⟨err, herr⟩
    cases result with
    | error err' => exact ⟨err', rfl⟩
    | ok sess =>
      obtain ⟨⟨first, hfirst⟩, -⟩ := h.returned hmem sess rfl
      cases h.kept.once herr hfirst

/-- The records survive what only adds to them. -/
theorem Recorded.grow {s : Shared} (h : Recorded s) {auth : State} (hkept : Kept auth)
    (hended : ∀ a ∈ s.auth.ended, a ∈ auth.ended) (hstored : ∀ a ∈ s.auth.stored, a ∈ auth.stored) :
    Recorded ⟨auth, s.returns⟩ := by
  refine ⟨hkept, fun hmem sess hsess => ?_⟩
  obtain ⟨⟨first, hfirst⟩, later, hle, hlater⟩ := h.returned hmem sess hsess
  exact ⟨⟨first, hended _ hfirst⟩, later, hle, hstored _ hlater⟩

/-- A return that is no session of a follower can be recorded. -/
theorem Recorded.return {s : Shared} (h : Recorded s) {role : Role} {result : Result}
    (hnew : ∀ flight, role = .follower (some flight) → ∀ sess, result = .ok sess →
      Succeeded s.auth flight ∧ ∃ later, flight ≤ later ∧ (later, sess) ∈ s.auth.stored) :
    Recorded ⟨s.auth, (role, result) :: s.returns⟩ := by
  refine ⟨h.kept, fun hmem => ?_⟩
  rcases List.mem_cons.mp hmem with heq | hold
  · obtain ⟨hrole, rfl⟩ := Prod.ext_iff.mp heq
    exact hnew _ hrole.symm
  · exact h.returned hold

/-- A follower whose flight has ended reads what it may return. -/
theorem Waiting.read {s : State} {account : AccountID} {flight : ℕ} (h : Waiting s account flight)
    (hkept : Kept s) {result : Result} (hended : (flight, result) ∈ s.ended) {r : Reply}
    (hread : s.sessionFromStore account r = .ok sess) :
    Succeeded s flight ∧ ∃ later, flight ≤ later ∧ (later, sess) ∈ s.stored := by
  have hstore : s.store account = some sess := by
    simp only [State.sessionFromStore] at hread
    split at hread
    · cases hread
    · split at hread <;> cases hread
      assumption
  rcases h.outcome with hair | ⟨hok, ⟨held, later, hheld, hle, hstored⟩, -⟩ | ⟨-, hempty⟩
  · exact absurd hended (hkept.open_ hair)
  · obtain rfl : held = sess := Option.some.inj (hheld.symm.trans hstore)
    exact ⟨hok, later, hle, hstored⟩
  · rw [hempty] at hstore
    cases hstore

/-- Each account has one leader, and the step fails clean. -/
def LedClean (s : System) (a : Action) : Prop :=
  Held (fun s account => s.auth.pending account = false) (fun x account => leads account x) s ∧
    FailsClean s a

theorem LedClean.ne {s : System} {a : Action} (h : LedClean s a) {t t' : ℕ} (hne : t' ≠ t)
    {account other : AccountID} (ht : leads other (s.point t).next)
    (ht' : leads account (s.point t').next) : account ≠ other := by
  rintro rfl
  exact hne ((h.1 account).2 t' t ht' ht)

/-- What the threads know about the flights. -/
theorem flightsOutline : NextOutline (τ := ℕ) program LedClean Recorded fun s x => Knows s.auth x := by
  refine .of_acts (fun {s t a x} _ _ hx => ?_) (fun {s t r c} hs hcond ht hknows => ?_)
    fun {s t r k shared x} hs hcond ht hk hknows => ?_
  · cases hx
    trivial
  · have hkept := hs.inv.kept
    cases c with
    | begin account =>
      simp only [program, settle, body]
      split
      · exact ⟨hs.inv, fun f hf => ⟨hkept.begun hf, .inl hf⟩, fun _ _ => id⟩
      · have hfree : s.shared.auth.pending account = false := Bool.eq_false_of_not_eq_true ‹_›
        refine ⟨hs.inv.grow (hkept.beginFlight hfree) (fun _ => id) fun _ => id,
          update_self .., fun t' _ hother => ?_⟩
        have hled : ∀ a, leads a (s.point t').next → a ≠ account := by
          rintro a ha rfl
          exact (hcond.1 a).1 t' ha hfree
        exact hother.mono (fun a ha => update_of_ne (hled a ha) ..) (fun _ _ _ => id)
          (fun _ => id) fun a f _ hw => hw.beginFlight hkept hfree
    | finish account flight result =>
      have hclean : ∀ err, result = .error err → s.shared.auth.store account = none := by
        rintro err rfl
        exact hcond.2.1 account flight err ht
      have hended := hs.inv.grow (hkept.endFlight hknows.1 hclean)
        (fun _ => List.mem_cons_of_mem _) fun _ => id
      refine ⟨hended.return (by rintro _ ⟨⟩), trivial, fun t' hne hother => ?_⟩
      have hlead : leads account (s.point t).next := by
        rw [ht]
        rfl
      exact hother.mono (fun a ha => update_of_ne (hcond.ne hne hlead ha) ..)
        (fun _ _ _ => id) (fun _ => List.mem_cons_of_mem _)
        fun a f _ hw => hw.endFlight hknows.1 hknows.2 hclean
  · obtain ⟨out, hout, heq⟩ := Option.map_eq_some_iff.mp hk
    cases heq
    cases work_acts hout with
    | cancel => exact ⟨hs.inv.return (by rintro _ _ _ ⟨⟩), trivial, fun _ _ => id⟩
    | wake hclosed => exact ⟨hs.inv, ⟨hknows _ rfl, hs.inv.kept.closed hclosed⟩, fun _ _ => id⟩
    | follow =>
      obtain ⟨hwaiting, result, hended⟩ := hknows
      refine ⟨hs.inv.return ?_, trivial, fun _ _ => id⟩
      rintro flight ⟨rfl⟩ sess hsess
      exact hwaiting.read hs.inv.kept hended hsess
    | unencrypted | refused | unsaved =>
      exact ⟨hs.inv, ⟨hknows, by rintro ⟨_, ⟨⟩⟩⟩, fun _ _ => id⟩
    | send | accepted => exact ⟨hs.inv, hknows, fun _ _ => id⟩
    | @saved account flight token _ hsaved =>
      refine ⟨hs.inv.grow (hs.inv.kept.save hknows) (fun _ => id) fun _ => List.mem_cons_of_mem _,
        ⟨hknows, _, _, update_self .., Nat.le_refl _, List.mem_cons_self⟩,
        fun t' hne hother => ?_⟩
      have hlead : leads account (s.point t).next := by
        rw [ht]
        rfl
      refine hother.mono (fun _ _ => rfl) (fun a f ha hcurrent => hcurrent.save fun hsame => ?_)
        (fun _ => id) fun a f hf hw => hw.save hknows fun hsame => ?_
      · exact absurd hsame (hcond.ne hne hlead ha)
      · subst hsame
        exact hcond.2.2 _ flight token ht hsaved t' f hf
    | read => exact ⟨hs.inv, ⟨hknows.1, fun _ => hknows.2⟩, fun _ _ => id⟩

/-- **Followers are faithful.** In a run in which a flight fails only while the store has no
session for its account, and no session is saved while a follower of a failed flight has yet
to read, every follower is faithful to its flight. -/
theorem followers_faithful (tokenTTL : Int64) (store : AccountID → Option Session)
    (run : List Action) (h : EachStep step FailsClean (init tokenTTL store) run) :
    Always step (fun s => Faithful s.shared) (init tokenTTL store) run := by
  have hkept : Kept (init tokenTTL store).shared.auth := by
    constructor <;> intros <;> contradiction
  have hall : Always step (fun s =>
      Held (fun s account => s.auth.pending account = false) (fun x account => leads account x) s ∧
        Sound program Recorded (fun s p => Knows s.auth p.next) s) (init tokenTTL store) run := by
    refine h.always (fun s a s' hs hcond hstep => ?_)
      ⟨held_init _ fun _ => id, sound_init ⟨hkept, nofun⟩ trivial⟩
    exact ⟨leaderTokens.step hs.1 trivial hstep, flightsOutline.step hs.2 ⟨hs.1, hcond⟩ hstep⟩
  exact hall.mono fun s hs => hs.2.inv.faithful

/-- Thread `0` leads a flight and thread `1` follows it. -/
def flightWithFollower (account : AccountID) (reply : Reply) : List Action :=
  [.call 0 account, .run 0 {}, .run 0 {}, .run 0 {},
    .call 1 account, .run 1 {}, .run 1 {}, .run 1 {},
    .run 0 {}, .run 0 reply]

/-- A session from before. -/
def oldSession : Session := ⟨bytes "old", bytes "a", 0, 0⟩

/-- The login is refused, and the follower reads the store. -/
def staleSession : List Action :=
  flightWithFollower (bytes "a") { err := some (.text (bytes "refused")) } ++
    [.run 0 {}, .run 0 {}, .run 0 {}, .run 1 {}, .run 1 {}]

/-- The flight has failed, and its follower has returned the session from before. -/
theorem follower_returns_stale_session :
    ∃ s, exec step (init 10800 fun _ => some oldSession) staleSession = some s ∧ s.Quiescent ∧
      Failed s.shared.auth 0 ∧ (Role.follower (some 0), .ok oldSession) ∈ s.shared.returns ∧
      ¬ Faithful s.shared := by
  obtain ⟨s, hs, hidle, hended, hreturned⟩ :
      ∃ s, exec step (init 10800 fun _ => some oldSession) staleSession = some s ∧
        (∀ ev ∈ staleSession, s.point ev.thread = .idle) ∧
        (0, Except.error (.text (bytes "refused"))) ∈ s.shared.auth.ended ∧
        (Role.follower (some 0), Except.ok oldSession) ∈ s.shared.returns :=
    exec_exists (by decide +kernel)
  refine ⟨s, hs, Program.quiescent_of_exec hs hidle, ⟨_, hended⟩, hreturned, fun hfaithful => ?_⟩
  obtain ⟨err, herr⟩ := (hfaithful 0 _ hreturned).2 ⟨_, hended⟩
  cases herr

/-- A login that succeeds and one that is refused, each with a follower. -/
def cleanFlights : List Action :=
  flightWithFollower (bytes "a") { data := bytes "token" } ++
    [.run 0 {}, .run 0 {}, .run 0 {}, .run 0 {}, .run 0 {}, .run 1 {}, .run 1 {}] ++
    flightWithFollower (bytes "b") { err := some (.text (bytes "refused")) } ++
    [.run 0 {}, .run 0 {}, .run 0 {}, .run 1 {}, .run 1 {}]

theorem followers_faithful_cleanFlights :
    (exec step (init 10800 fun _ => none) cleanFlights).isSome = true ∧
      Always step (fun s => Faithful s.shared) (init 10800 fun _ => none) cleanFlights := by
  refine ⟨by decide +kernel, followers_faithful 10800 (fun _ => none) cleanFlights ?_⟩
  -- no flight has ended when the session is saved, so none has failed
  have hclean : EachStep step (fun s ev =>
      (match s.point ev.thread with
        | .inside (.finish account _ (.error _)) => (s.shared.auth.store account).isNone
        | .work (.save _ _ _) => s.shared.auth.ended.isEmpty
        | _ => true) = true) (init 10800 fun _ => none) cleanFlights := by
    decide +kernel
  refine hclean.mono fun s ev hev => ?_
  cases ev with
  | call t account => trivial
  | run t r =>
    refine ⟨fun account flight err ht => ?_, fun account flight token ht _ t' failed _ => ?_⟩
    · rw [show (Event.run t r : Action).thread = t from rfl, ht] at hev
      exact Option.isNone_iff_eq_none.mp hev
    · rw [show (Event.run t r : Action).thread = t from rfl, ht] at hev
      rintro ⟨err, herr⟩
      rw [List.isEmpty_iff.mp hev] at herr
      cases herr

end HstongApi.Auth
