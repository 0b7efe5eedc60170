import HstongApi.SessionReuse
import HstongApi.Settling

/-!
# The session service when a request panics

`establish` leads an attempt and then publishes its outcome at the gate; only `Authenticator.Login`
defers the end of its flight. When the request of a login panics the flight ends, but the attempt
stays at the gate: the callers that have joined it are not released, and every later login of the
account joins it as well (`panic_strands_joiner`).

A request of `Logout` may panic. As long as no request of a login does, every attempt at the gate has a
leader (`gateDebts`), every flight has one (`flightDebts`), a caller waits for an attempt or a flight
that is there (`waitOutline`), and so all calls return in every schedule and the next login can begin
(`always_released`).
-/

namespace HstongApi.SessionService

open Threads
open Auth (AccountID Session)
open Function (update_self update_of_ne update)

/-! ## Panics -/

/-- `endLogin`, when the leader of the flight does not return. -/
def Shared.endLogin (s : Shared) (account : AccountID) : Shared :=
  { s with
    auth := { s.auth with
      pending := Function.update s.auth.pending account false
      flights := Function.update s.auth.flights account none
      closed := (s.auth.flights account).toList ++ s.auth.closed } }

/-- The request of the action is the one of a login. -/
def Work.asksLogin : Work → Bool
  | .auth _ (.request _ _) => true
  | _ => false

/-- The requests are the calls out of the service. The leader of a flight has deferred its end. -/
def unwinding : Unwinding Shared Work Mutex where
  calls := fun k =>
    match k with
    | .logoutRequest _ => true
    | k => k.asksLogin
  mutex := fun k =>
    match k with
    | .auth _ (.request _ _) => some .tokens
    | _ => none
  deferred := fun k s =>
    match k with
    | .auth _ (.request account _) => s.endLogin account
    | _ => s

/-- The request of the thread is not the one of a login. -/
def LoginSpared (s : System) (t : ℕ) : Prop := ∀ k, s.point t = .work k → k.asksLogin = false

instance (s : System) : DecidablePred (LoginSpared s) := fun t =>
  inferInstanceAs (Decidable (∀ k, s.point t = .work k → k.asksLogin = false))

/-! ## Who publishes and who ends the flights -/

/-- The thread leads a flight of the account. -/
def leadsFlight (account : AccountID) : Exit Section Work → Prop
  | .enter (.auth _ c) => c.leads account
  | .go (.auth _ k) => k.leads account
  | _ => False

variable {account : AccountID}

theorem leadsFlight_proceed {other : AccountID} {n : ℕ} {next : Auth.Next}
    (h : next.leads account) : leadsFlight account (proceed other n next) := by
  cases next with
  | done role result => exact h.elim
  | _ => exact h

section

variable {s : Shared} {k : Work} {r : Reply} {out : Shared × Exit Section Work}

theorem Acts.flightFrame (h : Acts s k r out) : Auth.FlightFrame s.auth out.1.auth := by
  cases h with
  | auth hauth =>
    rw [acknowledge_auth]
    exact hauth.flightFrame
  | _ => exact ⟨rfl, rfl, rfl⟩

theorem Acts.leadsFlight_next (h : Acts s k r out) (hk : leadsFlight account (.go k)) :
    leadsFlight account out.2 := by
  cases h with
  | auth hauth => exact leadsFlight_proceed (hauth.leads_next hk)
  | _ => exact hk.elim

end

/-- Each attempt at the gate has a leader that will publish. -/
theorem gateDebts [UnicodeTables] : Debts (τ := ℕ) program (fun _ _ => True)
    (fun s account => s.pending account = none) (fun x account => ∃ n, led x = some (account, n)) where
  ret account := by
    rintro ⟨n, h⟩
    cases h
  body {s t r c account} _ ht h := by
    cases c with
    | begin a =>
      have hfree : s.shared.pending account = none := by
        refine h.resolve_right ?_
        rintro ⟨n, hn⟩
        cases hn
      simp only [program, body]
      split
      · exact .inl hfree
      · by_cases ha : account = a
        · exact .inr ⟨s.shared.begun, by rw [ha]; rfl⟩
        · exact .inl ((update_of_ne ha ..).trans hfree)
    | publish a m result =>
      refine .inl ?_
      by_cases ha : account = a
      · rw [ha]
        exact update_self ..
      · refine (update_of_ne ha ..).trans (h.resolve_right ?_)
        rintro ⟨n, hn⟩
        exact ha (Prod.ext_iff.mp (Option.some.inj hn)).1.symm
    | auth m c =>
      refine h.imp_right ?_
      rintro ⟨n, hn⟩
      exact ⟨n, (led_proceed (Auth.body_on s.shared.auth c)).trans hn⟩
  work {s t r k shared x account} _ ht hk h := by
    have hacts := work_acts hk
    rw [hacts.gate.pending, hacts.led_eq]
    exact h

/-- Each flight has a leader that will end it. -/
theorem flightDebts [UnicodeTables] : Debts (τ := ℕ) program (fun _ _ => True)
    (fun s account => s.auth.pending account = false) (fun x account => leadsFlight account x) where
  ret account := id
  body {s t r c account} _ ht h := by
    cases c with
    | begin a =>
      refine .inl ?_
      simp only [program, body]
      split <;> exact h.resolve_right id
    | publish a m result => exact .inl (h.resolve_right id)
    | auth m c =>
      cases c with
      | begin a =>
        have hfree : s.shared.auth.pending account = false := h.resolve_right id
        simp only [program, body, Auth.body]
        split
        · exact .inl hfree
        · by_cases ha : account = a
          · exact .inr ha.symm
          · exact .inl ((update_of_ne ha ..).trans hfree)
      | finish a flight result =>
        refine .inl ?_
        by_cases ha : account = a
        · rw [ha]
          exact update_self ..
        · exact (update_of_ne ha ..).trans (h.resolve_right fun howes => ha howes.symm)
  work {s t r k shared x account} _ ht hk h := by
    have hacts := work_acts hk
    rw [hacts.flightFrame.pending]
    exact h.imp_right hacts.leadsFlight_next

/-! ## What a caller waits for -/

/-- The accounts that are pending are those with a flight. -/
def Paired (s : Shared) : Prop := ∀ account, s.auth.pending account = (s.auth.flights account).isSome

/-- A caller waits for an attempt that is at the gate or has an outcome, and for a flight that is in
the air or has ended. -/
def Work.Waits (s : Shared) : Work → Prop
  | .join account n => s.attempts n ≠ none ∨ s.pending account = some n
  | .auth _ (.await account flight) =>
    ∃ f, flight = some f ∧ (f ∈ s.auth.closed ∨ s.auth.flights account = some f)
  | _ => True

@[inherit_doc Work.Waits]
def Waits (s : Shared) : Exit Section Work → Prop
  | .ret | .enter _ => True
  | .go k => k.Waits s

theorem Waits.mono {s s' : Shared} {x : Exit Section Work} (h : Waits s x)
    (hattempts : ∀ n, s.attempts n ≠ none → s'.attempts n ≠ none)
    (hpending : ∀ account n, s.pending account = some n →
      s'.attempts n ≠ none ∨ s'.pending account = some n)
    (hclosed : ∀ f ∈ s.auth.closed, f ∈ s'.auth.closed)
    (hflights : ∀ account f, s.auth.flights account = some f →
      f ∈ s'.auth.closed ∨ s'.auth.flights account = some f) : Waits s' x := by
  cases x with
  | ret | enter c => trivial
  | go k =>
    cases k with
    | join account n =>
      rcases h with hout | hthere
      · exact .inl (hattempts n hout)
      · exact hpending account n hthere
    | auth n k =>
      cases k with
      | await account flight =>
        obtain ⟨f, rfl, hclose | hair⟩ := h
        · exact ⟨f, rfl, .inl (hclosed f hclose)⟩
        · exact ⟨f, rfl, hflights account f hair⟩
      | _ => trivial
    | _ => trivial

/-- What the sections of `Authenticator.Login` do to the flights. -/
theorem paired_body {s : Shared} (h : Paired s) (c : Auth.Section) :
    (∀ account, (Auth.body s.auth c).1.pending account =
      ((Auth.body s.auth c).1.flights account).isSome) ∧
    (∀ f ∈ s.auth.closed, f ∈ (Auth.body s.auth c).1.closed) ∧
    ∀ account f, s.auth.flights account = some f →
      f ∈ (Auth.body s.auth c).1.closed ∨ (Auth.body s.auth c).1.flights account = some f := by
  cases c with
  | begin a =>
    simp only [Auth.body]
    split
    · exact ⟨h, fun f => id, fun account f => .inr⟩
    · rename_i hfree
      refine ⟨fun account => ?_, fun f => id, fun account f hf => .inr ?_⟩
      · by_cases ha : account = a
        · simp only [Auth.State.beginFlight, ha, update_self]
          rfl
        · simp only [Auth.State.beginFlight, update_of_ne ha]
          exact h account
      · have hother : account ≠ a := by
          rintro rfl
          rw [h account, hf] at hfree
          exact hfree rfl
        exact (update_of_ne hother ..).trans hf
  | finish a flight result =>
    refine ⟨fun account => ?_, fun f hf => List.mem_append_right _ hf, fun account f hf => ?_⟩
    · by_cases ha : account = a
      · simp only [Auth.body, Auth.State.endFlight, ha, update_self]
        rfl
      · simp only [Auth.body, Auth.State.endFlight, update_of_ne ha]
        exact h account
    · by_cases ha : account = a
      · refine .inl (List.mem_append_left _ ?_)
        rw [← ha, hf]
        exact List.mem_singleton_self f
      · exact .inr ((update_of_ne ha ..).trans hf)

theorem waits_done (s : Shared) (account : AccountID) (n : ℕ) (role : Auth.Role)
    (result : Auth.Result) : Waits s (proceed account n (.done role result)) := by
  cases result <;> trivial

theorem waits_authBody {s : Shared} (h : Paired s) (n : ℕ) (c : Auth.Section) :
    Waits (body s (.auth n c)).1 (body s (.auth n c)).2 := by
  cases c with
  | begin a =>
    simp only [body, Auth.body]
    split
    · rename_i hpending
      rw [h a] at hpending
      obtain ⟨f, hf⟩ := Option.isSome_iff_exists.mp hpending
      exact ⟨f, hf, .inr hf⟩
    · trivial
  | finish a flight result => exact waits_done ..

/-- No action without a lock leads to a wait. -/
theorem Acts.waits_next {s s' : Shared} {k : Work} {r : Reply} {out : Shared × Exit Section Work}
    (h : Acts s k r out) : Waits s' out.2 := by
  cases h with
  | auth hauth =>
    cases hauth with
    | follow => exact waits_done ..
    | _ => trivial
  | _ => trivial

variable [UnicodeTables]

/-- A caller waits for what is there. -/
theorem waitOutline : NextOutline (τ := ℕ) program (fun s _ => Orderly s) Paired Waits := by
  refine .of_acts (fun {s t a x} _ _ hx => ?_) (fun {s t r c} hs horderly ht _ => ?_)
    fun {s t r k shared x} hs _ _ hk _ => ?_
  · cases a <;> cases hx <;> trivial
  · cases c with
    | begin a =>
      simp only [program, body]
      split
      · exact ⟨hs.inv, .inr ‹_›, fun _ _ => id⟩
      · rename_i hfree
        refine ⟨hs.inv, trivial, fun t' _ hwaits => hwaits.mono (fun _ => id) (fun account n hn => ?_)
          (fun _ => id) fun _ _ => .inr⟩
        have hother : account ≠ a := by
          rintro rfl
          cases hfree.symm.trans hn
        exact .inr ((update_of_ne hother ..).trans hn)
    | publish a m result =>
      have hlead : s.shared.pending a = some m :=
        horderly.2.at_point ht a m rfl
      refine ⟨hs.inv, trivial, fun t' _ hwaits => hwaits.mono (fun n hn => ?_)
        (fun account n hn => ?_) (fun _ => id) fun _ _ => .inr⟩
      · by_cases hm : n = m
        · rw [hm]
          simp [program, body, Shared.return]
        · exact fun hnone => hn ((update_of_ne hm ..).symm.trans hnone)
      · -- the outcome of the attempt, or another attempt
        by_cases ha : account = a
        · obtain rfl : m = n := Option.some.inj (hlead.symm.trans (ha ▸ hn))
          exact .inl (by simp [program, body, Shared.return])
        · exact .inr ((update_of_ne ha ..).trans hn)
    | auth m c =>
      obtain ⟨hpaired, hclosed, hflights⟩ := paired_body hs.inv c
      exact ⟨hpaired, waits_authBody hs.inv m c, fun _ _ hwaits =>
        hwaits.mono (fun _ => id) (fun _ _ => .inr) hclosed hflights⟩
  · have hacts := work_acts hk
    refine ⟨fun account => ?_, hacts.waits_next, fun t' _ hwaits => hwaits.mono ?_ ?_ ?_ ?_⟩
    · rw [hacts.flightFrame.pending, hacts.flightFrame.flights]
      exact hs.inv account
    · rw [hacts.gate.attempts]
      exact fun _ => id
    · rw [hacts.gate.pending]
      exact fun _ _ => .inr
    · rw [hacts.flightFrame.closed]
      exact fun _ => id
    · rw [hacts.flightFrame.flights]
      exact fun _ _ => .inr

/-! ## All calls return -/

/-- How many actions come at most after a section. -/
def Section.rank : Section → ℕ
  | .publish _ _ _ => 1
  | .auth _ (.finish _ _ _) => 5
  | .auth _ (.begin _) => 12
  | .begin _ => 16

/-- And outside the sections. -/
def Work.rank : Work → ℕ
  | .join _ _ | .logoutClear _ => 1
  | .logoutRequest _ => 2
  | .logout _ => 3
  | .discard _ _ _ => 4
  | .auth _ (.follow _ _) => 5
  | .auth _ (.await _ _) => 6
  | .auth _ (.read _ _) => 8
  | .auth _ (.save _ _ _) => 9
  | .auth _ (.request _ _) => 10
  | .auth _ (.encrypt _ _) => 11
  | .lead _ _ => 15
  | .login _ _ => 19

omit [UnicodeTables] in
theorem rank_done (account : AccountID) (n : ℕ) (role : Auth.Role) (result : Auth.Result) :
    (proceed account n (.done role result)).rank Section.rank Work.rank ≤ 4 := by
  cases result <;> simp [proceed, Section.rank, Work.rank]

/-- Every action brings a call nearer to its return. -/
theorem callVariant :
    NextVariant program unwinding (fun _ => 0) Section.rank fun _ => Work.rank where
  ret := rfl
  body {s r c} := by
    refine .inr ⟨le_refl _, rfl, ?_⟩
    simp only [program, Turn.point, Point.rank]
    cases c with
    | begin a =>
      simp only [body]
      split <;> simp [Section.rank, Work.rank]
    | publish a m result => simp [body, Section.rank]
    | auth m c =>
      cases c with
      | begin a =>
        simp only [body, Auth.body]
        split <;> simp [proceed, Section.rank, Work.rank]
      | finish a flight result => exact Nat.succ_le_succ (rank_done ..)
  work {s r k shared x} hk := by
    have hacts := work_acts hk
    refine .inr ⟨le_refl _, rfl, ?_⟩
    generalize hout : (shared, x) = out at hacts
    obtain rfl : x = out.2 := congrArg Prod.snd hout
    cases hacts with
    | auth hauth =>
      cases hauth with
      | follow => exact Nat.lt_succ_of_le (rank_done ..)
      | _ => simp [proceed, Section.rank, Work.rank]
    | _ => simp [Section.rank, Work.rank]
  calls {s k} hcalls := by
    cases k with
    | auth n k => cases k <;> exact Nat.succ_pos _
    | _ => exact Nat.succ_pos _

/-- Only a caller that waits is blocked. -/
theorem work_blocked {s : Shared} {k : Work} {r : Reply} (h : work s k r = none) :
    (∃ account n, k = .join account n ∧ s.attempts n = none) ∨
      ∃ n account flight, k = .auth n (.await account flight) ∧ ∀ f, flight = some f → f ∉ s.auth.closed := by
  cases k with
  | login account password =>
    simp only [work] at h
    split at h
    · cases h
    · split at h
      · cases h
      · split at h <;> cases h
  | join account n =>
    simp only [work] at h
    split at h
    · cases h
    · cases h
    · exact .inl ⟨account, n, rfl, ‹_›⟩
  | lead | logoutClear =>
    simp only [work] at h
    split at h <;> cases h
  | auth n k =>
    have hauth : Auth.work wireLogin s.auth k r = none := Option.map_eq_none_iff.mp h
    cases k with
    | await account flight =>
      refine .inr ⟨n, account, flight, rfl, ?_⟩
      rintro f rfl hclosed
      cases hctx : r.ctxErr <;> simp [Auth.work, hctx, hclosed] at hauth
    | request account flight | encrypt account flight | save account flight token =>
      simp only [Auth.work] at hauth
      split at hauth <;> cases hauth
    | _ => cases hauth
  | discard account n err => cases h
  | _ =>
    simp only [work] at h
    split at h
    · cases h
    · split at h <;> cases h

/-- A call of `Login` that finds no live session sends a request. -/
def LoginBegins (s : System) : Prop :=
  ∀ t account password r, account ≠ [] → trimSpace password ≠ [] → r.err = none →
    s.shared.liveSession account r = .ok none →
    ∃ s', exec step s (.call t (.login account password) :: List.replicate 9 (.run t r)) = some s' ∧
      ∃ n flight, s'.point t = .work (.auth n (.request account flight))

/-- One step of the system with panics. -/
def stepPanic : System → Happening Reply Call ℕ → Option System := unwinding.step program

/-- **All calls return and the next login can begin**, in every schedule. -/
def Released : System → Prop :=
  Inevitable stepPanic (fun t r => .event (.run t r)) (Later LoginSpared)
    fun s => s.Quiescent ∧ LoginBegins s

/-- What holds as long as no request of a login panics. -/
structure Served (s : System) : Prop where
  orderly : Orderly s
  waits : Sound program Paired (fun s p => Waits s p.next) s
  attempts : Accounted (fun s account => s.pending account = none)
    (fun x account => ∃ n, led x = some (account, n)) s
  flights : Accounted (fun s account => s.auth.pending account = false)
    (fun x account => leadsFlight account x) s

theorem served_init (store : AccountID → Option Session) : Served (init store) :=
  ⟨orderly_init store, sound_init (fun _ => rfl) trivial, fun _ => .inl rfl, fun _ => .inl rfl⟩

theorem Served.step {s s' : System} {a : Happening Reply Call ℕ} (h : Served s)
    (hspared : Only LoginSpared s a) (hstep : stepPanic s a = some s') : Served s' := by
  cases a with
  | event ev =>
    exact ⟨h.orderly.step hstep, waitOutline.step h.waits h.orderly hstep,
      gateDebts.step h.attempts trivial hstep, flightDebts.step h.flights trivial hstep⟩
  | panic t =>
    obtain ⟨k, ht, hcalls, rfl⟩ := Unwinding.panic_cases hstep
    have hlogout := hspared k ht
    cases k with
    | logoutRequest account =>
      refine ⟨⟨h.orderly.1.giveUp ?_, h.orderly.2.giveUp ht nofun⟩, h.waits.giveUp ht trivial,
        h.attempts.giveUp ht ?_, h.flights.giveUp ht fun _ => id⟩
      · rintro i ⟨n, hn⟩
        cases hn
      · rintro i ⟨n, hn⟩
        cases hn
    | auth n k => cases hcalls.symm.trans hlogout
    | _ => cases hcalls

/-- At rest no account is pending, and the mutexes are free. -/
theorem LoginBegins.of_quiescent {s : System} (h : Served s) (hquiet : s.Quiescent) :
    LoginBegins s := by
  intro t account password r haccount hpassword hread hlive
  have hgate : s.shared.pending account = none :=
    h.attempts.quiescent (fun i => by rintro ⟨n, hn⟩; cases hn) hquiet account
  have hflight : s.shared.auth.pending account = false := h.flights.quiescent (fun i => id) hquiet account
  have hcall : Alone program (s.move t _) t r 0 s.shared (.work (.login account password)) :=
    alone_start (h.waits.locked.free_of_quiescent hquiet) _
  have hlogin : Alone program _ t r 1 s.shared (.wait (.begin account)) :=
    hcall.work (by simp only [program, work, if_neg haccount, if_neg hpassword, hlive]; rfl)
  let led : Shared := { s.shared with
    pending := update s.shared.pending account (some s.shared.begun)
    begun := s.shared.begun + 1 }
  have hbegin : Alone program _ t r 4 led (.work (.lead account s.shared.begun)) :=
    hlogin.section (by simp only [program, body, hgate]; rfl)
  -- the leader finds the same store
  have hsame : led.liveSession account r = .ok none := hlive
  have hlead : Alone program _ t r 5 led (.wait (.auth s.shared.begun (.begin account))) :=
    hbegin.work (by simp only [program, work, hsame]; rfl)
  have hflies : Alone program _ t r 8 { led with auth := led.auth.beginFlight account }
      (.work (.auth s.shared.begun (.encrypt account s.shared.auth.begun))) :=
    hlead.section (by
      have hfree : ¬led.auth.pending account = true := by
        rw [show led.auth.pending account = false from hflight]
        exact Bool.false_ne_true
      simp only [program, body, Auth.body, if_neg hfree]
      rfl)
  have hsends : Alone program _ t r 9 _
      (.work (.auth s.shared.begun (.request account s.shared.auth.begun))) :=
    hflies.work (by simp only [program, work, Auth.work, hread]; rfl)
  obtain ⟨s', hrun, hpoint⟩ := hsends.exec_call (x := .go _) (.login account password) (hquiet t) rfl
  exact ⟨s', hrun, _, _, hpoint⟩

/-- As long as a call has not returned, some thread can go on. -/
theorem Served.can_run {s : System} (h : Served s) (hgoal : ¬(s.Quiescent ∧ LoginBegins s)) :
    ∃ t, ∀ r, (program.step s (.run t r)).isSome = true := by
  by_contra hstuck
  have hblocked : ∀ t, s.point t ≠ .idle → ∃ k r, s.point t = .work k ∧ work s.shared k r = none :=
    fun t hbusy => h.waits.locked.blocked hstuck hbusy
  -- the leader of a flight would be blocked, which it is not
  have hflights : ∀ account, s.shared.auth.pending account = false := by
    intro account
    refine h.flights.done_of_busy (fun _ => id) fun t hbusy hleads => ?_
    obtain ⟨k, r, ht, hnone⟩ := hblocked t hbusy
    rw [ht] at hleads
    rcases work_blocked hnone with ⟨a, n, rfl, -⟩ | ⟨n, a, flight, rfl, -⟩
    · exact hleads
    · exact hleads
  -- so nobody waits for a flight, and the leader of an attempt would not be blocked either
  have hjoins : ∀ t, s.point t ≠ .idle → ∃ account n, s.point t = .work (.join account n) ∧
      s.shared.attempts n = none := by
    intro t hbusy
    obtain ⟨k, r, ht, hnone⟩ := hblocked t hbusy
    have hwaits : k.Waits s.shared := h.waits.at_point ht
    rcases work_blocked hnone with ⟨a, n, rfl, hopen⟩ | ⟨n, a, flight, rfl, hclosed⟩
    · exact ⟨a, n, ht, hopen⟩
    · obtain ⟨f, rfl, hclose | hair⟩ := hwaits
      · exact absurd hclose (hclosed f rfl)
      · have hpending := h.waits.inv a
        rw [hflights a, hair] at hpending
        cases hpending
  have hgate : ∀ account, s.shared.pending account = none := by
    intro account
    refine h.attempts.done_of_busy (fun i => ?_) fun t hbusy => ?_
    · rintro ⟨n, hled⟩
      cases hled
    · rintro ⟨n, hled⟩
      obtain ⟨a, m, ht, -⟩ := hjoins t hbusy
      rw [ht] at hled
      cases hled
  have hquiet : s.Quiescent := by
    intro t
    by_contra hbusy
    obtain ⟨a, n, ht, hopen⟩ := hjoins t hbusy
    have hwaits : (Work.join a n).Waits s.shared := h.waits.at_point ht
    rcases hwaits with hout | hthere
    · exact hout hopen
    · cases (hgate a).symm.trans hthere
  exact hgoal ⟨hquiet, .of_quiescent h hquiet⟩

theorem always_released (store : AccountID → Option Session) {run : List (Happening Reply Call ℕ)}
    (hrun : EachStep stepPanic (Only LoginSpared) (init store) run) :
    Always stepPanic Released (init store) run := by
  refine callVariant.settles (fun s t k hspared ht => ?_) (fun _ hs hgoal => hs.can_run hgoal)
    (fun _ _ _ hs hspared hstep => hs.step hspared hstep) (served_init store) hrun
  have hlogout := hspared k ht
  cases k with
  | auth n k => cases k <;> first | rfl | cases hlogout
  | _ => rfl

/-! ## A request that panics -/

/-- An attempt that nobody leads stays at the gate. -/
theorem strandedOutline (account : AccountID) (n : ℕ) : NextOutline (τ := ℕ) program (fun _ _ => True)
    (fun s => s.pending account = some n ∧ s.attempts n = none ∧ n < s.begun)
    (fun _ x => ∀ a m, led x = some (a, m) → a ≠ account ∧ m ≠ n) where
  start {s t a x} _ _ hx := by
    cases a <;> cases hx <;> rintro _ _ ⟨⟩
  body {s t r c} hs _ ht := by
    obtain ⟨hpending, hopen, hbegun⟩ := hs.inv
    have hother : ∀ a m, c.led = some (a, m) → a ≠ account ∧ m ≠ n := hs.at_point ht
    cases c with
    | begin b =>
      simp only [program, body]
      split
      · exact ⟨hs.inv, by rintro _ _ ⟨⟩⟩
      · rename_i hfree
        have hb : account ≠ b := by
          rintro rfl
          cases hfree.symm.trans hpending
        refine ⟨⟨(update_of_ne hb ..).trans hpending, hopen, Nat.lt_succ_of_lt hbegun⟩, ?_⟩
        intro a m hled
        cases hled
        exact ⟨hb.symm, hbegun.ne'⟩
    | publish b m result =>
      obtain ⟨hb, hm⟩ := hother b m rfl
      exact ⟨⟨(update_of_ne hb.symm ..).trans hpending,
        (update_of_ne hm.symm ..).trans hopen, hbegun⟩, by rintro _ _ ⟨⟩⟩
    | auth m c =>
      refine ⟨hs.inv, fun a k hled => hother a k ?_⟩
      exact (led_proceed (Auth.body_on s.shared.auth c)).symm.trans hled
  body_other {s t r c t'} hs _ _ _ := hs.assert t'
  work {s t r k shared x} hs _ ht hk := by
    have hacts := work_acts hk
    have hother : ∀ a m, k.led = some (a, m) → a ≠ account ∧ m ≠ n := hs.at_point ht
    refine ⟨?_, fun a m hled => hother a m (hacts.led_eq.symm.trans hled)⟩
    rw [hacts.gate.pending, hacts.gate.attempts, hacts.gate.begun]
    exact hs.inv
  work_other {s t r k shared x t'} hs _ _ _ _ := hs.assert t'

/-- An attempt is at the gate and nobody leads it. -/
abbrev Stranded (account : AccountID) (n : ℕ) : System → Prop :=
  Sound program (fun s => s.pending account = some n ∧ s.attempts n = none ∧ n < s.begun)
    fun _ p => ∀ a m, led p.next = some (a, m) → a ≠ account ∧ m ≠ n

theorem Stranded.step {n : ℕ} {s s' : System} {a : Happening Reply Call ℕ}
    (h : Stranded account n s) (hstep : stepPanic s a = some s') : Stranded account n s' := by
  have hlocked := h.locked.unwind hstep
  cases a with
  | event ev => exact (strandedOutline account n).step h trivial hstep
  | panic t =>
    obtain ⟨k, ht, -, rfl⟩ := Unwinding.panic_cases hstep
    -- what is deferred does not concern the gate
    have hgate : GateFrame s.shared (unwinding.deferred k s.shared) := by
      simp only [unwinding]
      split <;> exact ⟨rfl, rfl, rfl⟩
    refine ⟨hlocked, ?_, fun t' a m hled => ?_⟩
    · simp only [State.move_shared, State.write]
      rw [hgate.pending, hgate.attempts, hgate.begun]
      exact h.inv
    · by_cases hthread : t' = t
      · rw [hthread, State.move_point_self] at hled
        cases hled
      · rw [State.move_point_of_ne _ hthread] at hled
        exact h.assert t' a m hled

/-- The context of the thread is not done. -/
def Patient (t : ℕ) : Happening Reply Call ℕ → Prop
  | .event (.run t' r) => t' = t → r.ctxErr = none
  | .event (.call _ _) | .panic _ => True

/-- A caller that has joined such an attempt waits for ever, unless its context is done, and no request
of a login of the account is sent any more. -/
theorem Stranded.forever {n t : ℕ} {s : System} (h : Stranded account n s)
    (ht : s.point t = .work (.join account n)) {run : List (Happening Reply Call ℕ)}
    (hrun : ∀ a ∈ run, Patient t a) :
    Always stepPanic (fun s => s.point t = .work (.join account n) ∧
      ∀ t, ¬inFlight account (s.point t)) s run := by
  have hboth : Always stepPanic (fun s => Stranded account n s ∧ s.point t = .work (.join account n))
      s run := by
    have hpatient : EachStep stepPanic (fun _ => Patient t) s run :=
      EachStep.of_forall (fun a ha _ => hrun a ha) s
    refine hpatient.always (fun s a s' h hpatient hstep => ?_) ⟨h, ht⟩
    refine ⟨h.1.step hstep, Unwinding.point_of_blocked hstep h.2 rfl fun r hr => ?_⟩
    subst hr
    simp only [program, work, hpatient rfl, h.1.inv.2.1]
  refine hboth.mono fun s h => ⟨h.2, fun t' hflight => ?_⟩
  obtain ⟨m, hled⟩ := led_of_inFlight hflight
  exact (h.1.assert t' account m hled).1 rfl

/-- Thread `0` logs in and thread `1` joins it, and then the request panics. -/
def panickedLogin : List (Happening Reply Call ℕ) :=
  (acts 0 (.login (bytes "a") (bytes "p")) 9 ++ acts 1 (.login (bytes "a") (bytes "p")) 4).map .event ++
    [.panic 0]

omit [UnicodeTables] in
/-- Thread `1` waits for ever, and nobody logs in to the account any more. -/
theorem panic_strands_joiner :
    ∃ s, exec (@stepPanic asciiTables) (init fun _ => none) panickedLogin = some s ∧
      ¬@Released asciiTables s ∧ ∀ run, (∀ a ∈ run, Patient 1 a) → Always (@stepPanic asciiTables)
        (fun s => s.point 1 = .work (.join (bytes "a") 0) ∧ ∀ t, ¬inFlight (bytes "a") (s.point t)) s run := by
  let _ := asciiTables
  obtain ⟨s, hs, hinv, hwaits, hothers⟩ :
      ∃ s, exec stepPanic (init fun _ => none) panickedLogin = some s ∧
        (s.shared.pending (bytes "a") = some 0 ∧ s.shared.attempts 0 = none ∧ 0 < s.shared.begun) ∧
        s.point 1 = .work (.join (bytes "a") 0) ∧
        ∀ a ∈ panickedLogin, a.thread = 1 ∨ s.point a.thread = .idle := exec_exists (by decide +kernel)
  have hidle := Unwinding.idle_of_exec hs hothers
  have hstranded : Stranded (bytes "a") 0 s := by
    refine ⟨Unwinding.locked_of_exec hs, hinv, fun t a m hled => ?_⟩
    by_cases ht : t = 1
    · rw [ht, hwaits] at hled
      cases hled
    · rw [hidle t ht] at hled
      cases hled
  refine ⟨s, hs, fun hreleased => ?_, fun run hrun => hstranded.forever hwaits hrun⟩
  have hblocked : program.work (.join (bytes "a") 0) {} s.shared = none := by
    simp only [program, work, hinv.2.1]
    rfl
  have hrest := Unwinding.of_blocked hreleased hidle hwaits hblocked
  cases (hrest.1 1).symm.trans hwaits

end HstongApi.SessionService
