import HstongApi.PushClient

/-!
# Connections of the push client are closed

Every connection that was ever dialed is closed, stored in the client, or in the hands of a
thread that will store it or close it. Once `Close` has taken the stored connection, none
may be stored any more. `Connect` keeps to that, since it looks at `closed` under the lock
before it stores; `Run` does not look, and it does not look whether it replaces another
connection either. `connections_closed` says under which conditions on the steps nothing is
lost and no hook starts late, and `close_during_dial_leaks` what happens otherwise.
-/

namespace HstongApi.PushClient

open Threads

/-! ## What the threads are at -/

/-- `Run` is in a section in which it has seen the client open, and will store a connection
or call hooks without another look. -/
def Section.commits : Section → Bool
  | .currentConn _ | .setConn _ _ _ => true
  | _ => false

/-- And so outside the sections. -/
def Work.commits : Work → Bool
  | .checkCtx _ | .dial _ _ | .recheckCtx _ | .fireOnReconnect _ _ => true
  | _ => false

/-- **`Run` has seen the client open**, and will store a connection or call hooks before it
looks again. -/
def commits : Next → Bool
  | .ret => false
  | .enter c => c.commits
  | .go k => k.commits

/-- The thread is in a call of `Connect`, `Run` or `Close`. -/
def inCall : Next → Bool
  | .ret | .enter (.takeConn .watcher) => false
  | .go (.watch _) | .go (.cancel _) | .go (.shut .watcher _) => false
  | _ => true

/-- The call of `Connect`, `Run` or `Close` returns. -/
def returns : Next → Bool
  | .go (.endConnect _) | .go (.endRun _ _) | .go .endClose => true
  | _ => false

/-- The goroutine beside `Run` has taken a connection and has not closed it yet. -/
def watcherHolds : Next → Bool
  | .go (.shut .watcher _) => true
  | _ => false

/-- The thread has the connection, and will store it or close it. -/
def holds : Next → ℕ → Prop
  | .enter (.connectStore k), i | .enter (.setConn _ _ k), i => i = k
  | .go (.discard k _), i | .go (.shut _ k), i => i = k
  | _, _ => False

/-! ## The property and its condition -/

/-- **Nothing is lost and nothing is late.** Once `Close` and all calls of `Connect` and `Run`
have returned every connection is closed, and no hook has started after `Close` returned. -/
structure Released (s : System) : Prop where
  closed : s.shared.closeReturned = true → (∀ t, inCall (s.point t).next = false) →
    ∀ k < s.shared.dialed, k ∈ s.shared.shut
  punctual : s.shared.lateHook = false

/-- What the steps of a thread must meet. -/
structure Apart (s : System) (t : ℕ) : Prop where
  /-- `Close` sets `closed` while no `Run` dials, stores or calls hooks -/
  flag : s.point t = .work .flag → ∀ t', commits (s.point t').next = false
  /-- `setConn` does not replace a connection -/
  setConn : ∀ l dial k, s.point t = .inside (.setConn l dial k) → s.shared.conn = none
  /-- a call returns while no goroutine beside `Run` has a connection to close -/
  settled : returns (s.point t).next = true → ∀ t', watcherHolds (s.point t').next = false

/-- `Close` comes while no `Run` reconnects, and connections are stored and closed in time. -/
def InTurn (s : System) (a : Action) : Prop := Apart s a.thread

/-! ## The flag -/

/-- The thread has set `closed`, and `Close` has not taken the connection yet. -/
def hasFlagged : Next → Bool
  | .go .signal | .enter (.takeConn .close) => true
  | _ => false

/-- The thread is in a call of `Close` after the connection was taken. -/
def hasReleased : Next → Bool
  | .go (.shut .close _) | .go .finish | .go .endClose => true
  | _ => false

/-- What holds of the shared state. -/
structure Inv (s : Shared) : Prop where
  punctual : s.lateHook = false
  closed : s.released = true → s.closed = true
  empty : s.released = true → s.conn = none
  done : s.closeOnce = .done → s.released = true
  returned : s.closeReturned = true → s.released = true

/-- What a thread knows. -/
structure Knows (s : Shared) (x : Next) : Prop where
  unclosed : commits x = true → s.closed = false
  flagged : hasFlagged x = true → s.closed = true
  released : hasReleased x = true → s.released = true

variable {s s' : Shared} {k : Work} {c : Section} {x : Next} {call : Call}

/-- A thread that knows nothing. -/
theorem Knows.nothing (hcommits : commits x = false) (hflagged : hasFlagged x = false)
    (hreleased : hasReleased x = false) : Knows s x where
  unclosed h := nomatch hcommits.symm.trans h
  flagged h := nomatch hflagged.symm.trans h
  released h := nomatch hreleased.symm.trans h

theorem Knows.of_closed_eq_false (h : s.closed = false) (hflagged : hasFlagged x = false)
    (hreleased : hasReleased x = false) : Knows s x where
  unclosed _ := h
  flagged h := nomatch hflagged.symm.trans h
  released h := nomatch hreleased.symm.trans h

theorem Knows.of_released (h : s.released = true) (hcommits : commits x = false)
    (hflagged : hasFlagged x = false) : Knows s x where
  unclosed h := nomatch hcommits.symm.trans h
  flagged h := nomatch hflagged.symm.trans h
  released _ := h

theorem Knows.congr (h : Knows s x) (hclosed : s'.closed = s.closed)
    (hreleased : s.released = true → s'.released = true) : Knows s' x where
  unclosed hx := hclosed.trans (h.unclosed hx)
  flagged hx := hclosed.trans (h.flagged hx)
  released hx := hreleased (h.released hx)

/-- The client may still be given a connection while it is open. -/
theorem Inv.store (h : Inv s) (hclosed : s.closed = false) (k : ℕ) :
    Inv { s with conn := some k } where
  punctual := h.punctual
  closed := h.closed
  empty hreleased := nomatch hclosed.symm.trans (h.closed hreleased)
  done := h.done
  returned := h.returned

theorem Inv.takeConn (h : Inv s) {closer : Closer} (hclosed : closer = .close → s.closed = true) :
    Inv (s.takeConn closer) where
  punctual := h.punctual
  closed hreleased := by
    rcases Bool.or_eq_true_iff.mp hreleased with hreleased | hcloser
    · exact h.closed hreleased
    · exact hclosed (beq_iff_eq.mp hcloser)
  empty _ := rfl
  done hdone := Bool.or_eq_true_iff.mpr (.inl (h.done hdone))
  returned hreturned := Bool.or_eq_true_iff.mpr (.inl (h.returned hreturned))

theorem Shared.takeConn_released {closer : Closer} (h : s.released = true) :
    (s.takeConn closer).released = true :=
  Bool.or_eq_true_iff.mpr (.inl h)

/-- An action that changes nothing passes on what is known. -/
theorem Moves.knows (h : Moves s k x) (hinv : Inv s) (hknows : Knows s (.go k)) : Knows s x := by
  cases h with
  | checkedClosed hclosed | recheckedClosed hclosed | retry hclosed =>
    exact .of_closed_eq_false hclosed rfl rfl
  | checkedCtx | recheckedCtx => exact .of_closed_eq_false (hknows.unclosed rfl) rfl rfl
  | closeAgain hdone => exact .of_released (hinv.done hdone) rfl rfl
  | _ => exact .nothing rfl rfl rfl

/-- How a section passes on what is known. -/
theorem Follows.knows (h : Follows s c (s', x)) (hinv : Inv s) (hknows : Knows s (.enter c)) :
    Inv s' ∧ Knows s' x := by
  cases h with
  | connected | unconnected | discard | currentConn => exact ⟨hinv, .nothing rfl rfl rfl⟩
  | store hclosed => exact ⟨hinv.store hclosed _, .nothing rfl rfl rfl⟩
  | noConn => exact ⟨hinv, .of_closed_eq_false (hknows.unclosed rfl) rfl rfl⟩
  | @setConn l dial k =>
    have hclosed : s.closed = false := hknows.unclosed rfl
    refine ⟨hinv.store hclosed k, ?_⟩
    cases dial with
    | first => exact .nothing rfl rfl rfl
    | again => exact .of_closed_eq_false hclosed rfl rfl
  | @takeNone closer _ | @takeConn closer k _ =>
    refine ⟨hinv.takeConn fun hcloser => hknows.flagged (by rw [hcloser]; rfl), ?_⟩
    cases closer with
    | loop l | watcher => exact .nothing rfl rfl rfl
    | close => exact .of_released (Bool.or_true _) rfl rfl

/-- The sections do not touch the flag. -/
theorem Follows.frame (h : Follows s c (s', x)) :
    s'.closed = s.closed ∧ (s.released = true → s'.released = true) := by
  cases h with
  | takeNone | takeConn => exact ⟨rfl, Shared.takeConn_released⟩
  | _ => exact ⟨rfl, id⟩

/-- How an action without the lock passes on what is known. -/
theorem Acts.knows (h : Acts s k (s', x)) (hinv : Inv s) (hknows : Knows s (.go k)) :
    Inv s' ∧ Knows s' x := by
  cases h with
  | moves hmoves => exact ⟨hinv, hmoves.knows hinv hknows⟩
  | connectDialed | discard | run | endRun | cancel => exact ⟨{ hinv with }, .nothing rfl rfl rfl⟩
  | dialed => exact ⟨{ hinv with }, .of_closed_eq_false (hknows.unclosed rfl) rfl rfl⟩
  | fire =>
    -- the client is open, so `Close` has not returned
    have hclosed : s.closed = false := hknows.unclosed rfl
    have hreturned : s.closeReturned = false := eq_false_of_ne_true fun hreturned =>
      nomatch hclosed.symm.trans (hinv.closed (hinv.returned hreturned))
    refine ⟨{ hinv with punctual := ?_ }, .of_closed_eq_false hclosed rfl rfl⟩
    exact Bool.or_eq_false_iff.mpr ⟨hinv.punctual, hreturned⟩
  | @shut closer k =>
    refine ⟨{ hinv with }, ?_⟩
    cases closer with
    | loop l | watcher => exact .nothing rfl rfl rfl
    | close => exact .of_released (hknows.released rfl) rfl rfl
  | close => exact ⟨{ hinv with done := nofun }, .nothing rfl rfl rfl⟩
  | flag => exact ⟨{ hinv with closed := fun _ => rfl }, nofun, fun _ => rfl, nofun⟩
  | signal => exact ⟨{ hinv with }, nofun, fun _ => hknows.flagged rfl, nofun⟩
  | finish =>
    have hreleased : s.released = true := hknows.released rfl
    exact ⟨{ hinv with done := fun _ => hreleased }, .of_released hreleased rfl rfl⟩
  | endClose =>
    have hreleased : s.released = true := hknows.released rfl
    exact ⟨{ hinv with returned := fun _ => hreleased }, .nothing rfl rfl rfl⟩

/-- Only `Close` touches the flag. -/
theorem Acts.frame (h : Acts s k (s', x)) (hk : k ≠ .flag) :
    s'.closed = s.closed ∧ s'.released = s.released := by
  cases h with
  | flag => exact absurd rfl hk
  | _ => exact ⟨rfl, rfl⟩

theorem knows_start (h : start s call = some x) : Knows s x := by
  cases call with
  | watch run =>
    obtain ⟨-, heq⟩ := Option.ite_none_right_eq_some.mp h
    cases heq
    exact .nothing rfl rfl rfl
  | _ =>
    cases h
    exact .nothing rfl rfl rfl

/-- What the threads know about the flag. -/
theorem flagOutline : NextOutline (τ := ℕ) program InTurn Inv Knows := by
  refine .of_acts (fun _ _ hx => knows_start hx) (fun {s t r c} hs _ _ hknows => ?_)
    fun {s t r k shared x} hs hcond ht hk hknows => ?_
  · obtain ⟨hinv, hnext⟩ := (body_follows s.shared c).knows hs.inv hknows
    obtain ⟨hclosed, hreleased⟩ := (body_follows s.shared c).frame
    exact ⟨hinv, hnext, fun _ _ hother => hother.congr hclosed hreleased⟩
  · have hacts := work_acts hk
    obtain ⟨hinv, hnext⟩ := hacts.knows hs.inv hknows
    refine ⟨hinv, hnext, fun t' _ hother => ?_⟩
    by_cases hflag : k = .flag
    · subst hflag
      cases hacts with
      | moves hmoves => cases hmoves
      | flag =>
        exact ⟨fun hc => (nomatch (hcond.flag ht t').symm.trans hc), fun _ => rfl, hother.released⟩
    · obtain ⟨hclosed, hreleased⟩ := hacts.frame hflag
      exact hother.congr hclosed fun h => hreleased.trans h

/-! ## Who has a connection -/

/-- The connection is not dialed yet, or it is closed or stored. -/
def Kept (s : Shared) (k : ℕ) : Prop := k < s.dialed → k ∈ s.shut ∨ s.conn = some k

theorem Moves.not_holds (h : Moves s k x) (i : ℕ) : ¬ holds (.go k) i := by
  cases h <;> exact id

theorem Kept.dial {i : ℕ} (h : Kept s i) (hi : i ≠ s.dialed) : Kept s.dial i :=
  fun hlt => h (Nat.lt_of_le_of_ne (Nat.le_of_lt_succ hlt) hi)

theorem Kept.shut {i : ℕ} (h : Kept s i) (k : ℕ) : Kept { s with shut := k :: s.shut } i :=
  fun hlt => (h hlt).imp_left (List.mem_cons_of_mem k)

/-- A connection that is stored where none was is kept, and so are the others. -/
theorem kept_store {i k : ℕ} (hnone : s.conn = none) (h : Kept s i ∨ i = k) :
    Kept { s with conn := some k } i := by
  rcases h with hkept | rfl
  · refine fun hlt => (hkept hlt).imp_right fun hconn => ?_
    cases hnone.symm.trans hconn
  · exact fun _ => .inr rfl

/-- Every connection is kept or in the hands of a thread. -/
theorem connectionDebts : Debts (τ := ℕ) program InTurn Kept holds where
  ret _ := id
  body {s t r c i} hcond ht h := by
    have hfollows : Follows s.shared c (body s.shared c) := body_follows s.shared c
    show Kept (body s.shared c).1 i ∨ holds (body s.shared c).2 i
    generalize body s.shared c = out at hfollows
    cases hfollows with
    | connected | unconnected | noConn | currentConn => exact h
    | discard => exact h
    | store _ hnone => exact .inl (kept_store hnone h)
    | @setConn l dial k => exact .inl (kept_store (hcond.setConn l dial k ht) h)
    | takeNone hnone =>
      refine .inl fun hlt => .inl ?_
      rcases h.resolve_right id hlt with hshut | hconn
      · exact hshut
      · cases hnone.symm.trans hconn
    | @takeConn closer k hsome =>
      by_cases hi : i = k
      · exact .inr hi
      · refine .inl fun hlt => .inl ?_
        rcases h.resolve_right id hlt with hshut | hconn
        · exact hshut
        · exact absurd (Option.some.inj (hconn.symm.trans hsome)) hi
  work {s t r k shared x i} _ _ hk h := by
    have hacts := work_acts hk
    cases hacts with
    | moves hmoves => exact .inl (h.resolve_right (hmoves.not_holds i))
    | connectDialed | dialed =>
      by_cases hi : i = s.shared.dialed
      · exact .inr hi
      · exact .inl ((h.resolve_right id).dial hi)
    | @discard k out | @shut closer k =>
      refine .inl ?_
      rcases h with hkept | hholds
      · exact hkept.shut k
      · obtain rfl : i = k := hholds
        exact fun _ => .inl List.mem_cons_self
    | _ => exact .inl (h.resolve_right id)

/-! ## The goroutines beside `Run` -/

/-- Once all calls have returned, no goroutine beside `Run` has a connection. -/
def Settled (s : System) : Prop :=
  s.shared.closeReturned = true → (∀ t, inCall (s.point t).next = false) →
    ∀ t, watcherHolds (s.point t).next = false

/-- A thread in a call is in it until the call returns. -/
theorem Moves.stays (h : Moves s k x) (hk : inCall (.go k) = true) :
    inCall x = true ∨ returns (.go k) = true := by
  cases h with
  | endConnect => exact .inr rfl
  | watch | watched => cases hk
  | _ => exact .inl rfl

theorem Moves.takes_nothing (h : Moves s k x) : watcherHolds x = false := by
  cases h <;> rfl

theorem Acts.stays (h : Acts s k (s', x)) (hk : inCall (.go k) = true) :
    inCall x = true ∨ returns (.go k) = true := by
  cases h with
  | moves hmoves => exact hmoves.stays hk
  | @shut closer k =>
    cases closer with
    | watcher => cases hk
    | _ => exact .inl rfl
  | endRun | endClose => exact .inr rfl
  | cancel => cases hk
  | _ => exact .inl rfl

/-- No action without the lock takes a connection. -/
theorem Acts.takes_nothing (h : Acts s k (s', x)) : watcherHolds x = false := by
  cases h with
  | moves hmoves => exact hmoves.takes_nothing
  | @shut closer k => cases closer <;> rfl
  | _ => rfl

theorem Acts.closeReturned (h : Acts s k (s', x)) (hk : inCall (.go k) = false) :
    s'.closeReturned = s.closeReturned := by
  cases h with
  | endClose => cases hk
  | _ => rfl

theorem Follows.stays (h : Follows s c (s', x)) : inCall x = true ∨ c = .takeConn .watcher := by
  cases h with
  | @setConn l dial k => cases dial <;> exact .inl rfl
  | @takeNone closer _ | @takeConn closer k _ =>
    cases closer with
    | watcher => exact .inr rfl
    | _ => exact .inl rfl
  | _ => exact .inl rfl

theorem Follows.closeReturned (h : Follows s c (s', x)) : s'.closeReturned = s.closeReturned := by
  cases h <;> rfl

theorem start_takes_nothing (h : start s call = some x) : watcherHolds x = false := by
  cases call with
  | watch run =>
    obtain ⟨-, heq⟩ := Option.ite_none_right_eq_some.mp h
    cases heq
    rfl
  | _ =>
    cases h
    rfl

/-- What is left to show when one thread acts and moves. -/
theorem Settled.move {s : System} (h : Settled s) {t : ℕ} {shared : Shared} {p : Point Section Work}
    (hp : shared.closeReturned = true → inCall p.next = false → watcherHolds p.next = false ∧
      (s.shared.closeReturned = true ∧ inCall (s.point t).next = false ∨
        ∀ t', watcherHolds (s.point t').next = false)) :
    Settled ((s.write shared).move t p) := by
  intro hreturned hcalls t'
  have hcall : inCall p.next = false := by
    have := hcalls t
    rwa [State.move_point_self] at this
  obtain ⟨hself, hothers⟩ := hp hreturned hcall
  by_cases ht : t' = t
  · rw [ht, State.move_point_self]
    exact hself
  · rw [State.move_point_of_ne _ ht]
    rcases hothers with ⟨hbefore, hcall⟩ | hnone
    · refine h hbefore (fun t'' => ?_) t'
      by_cases ht'' : t'' = t
      · rw [ht'']
        exact hcall
      · have := hcalls t''
        rwa [State.move_point_of_ne _ ht''] at this
    · exact hnone t'

theorem Settled.congr {s s' : System} (h : Settled s)
    (hreturned : s'.shared.closeReturned = s.shared.closeReturned)
    (hnext : ∀ t, (s'.point t).next = (s.point t).next) : Settled s' := by
  intro hreturned' hcalls t
  rw [hnext t]
  exact h (hreturned.symm.trans hreturned') (fun t' => hnext t' ▸ hcalls t') t

/-- The last call that returns leaves no goroutine with a connection, and afterwards the client
has none to take. -/
theorem Settled.step {s s' : System} (h : Settled s)
    (hs : Sound program Inv (fun s p => Knows s p.next) s) {a : Action} (ha : InTurn s a)
    (hstep : PushClient.step s a = some s') : Settled s' := by
  cases Program.step_cases hstep with
  | @call t call x ht hx =>
    refine h.move fun hreturned _ => ?_
    rw [Exit.next_point]
    exact ⟨start_takes_nothing hx, .inl ⟨hreturned, by rw [ht]; rfl⟩⟩
  | @lock t r c ht hfree =>
    exact h.congr rfl (State.next_move (s.hand _ _) (congrArg Point.next ht).symm)
  | @unlock t r c x ht =>
    refine h.congr rfl (State.next_move (s.hand _ _) ?_)
    rw [Exit.next_point]
    exact (congrArg Point.next ht).symm
  | @body t r c ht =>
    refine h.move fun hreturned hcall => ?_
    have hfollows : Follows s.shared c (body s.shared c) := body_follows s.shared c
    have hbefore : s.shared.closeReturned = true := hfollows.closeReturned.symm.trans hreturned
    have hempty : s.shared.conn = none := hs.inv.empty (hs.inv.returned hbefore)
    rcases hfollows.stays with hstays | rfl
    · cases hcall.symm.trans hstays
    · refine ⟨?_, .inl ⟨hbefore, by rw [ht]; rfl⟩⟩
      show watcherHolds (body s.shared (.takeConn .watcher)).2 = false
      rw [body, hempty]
      rfl
  | @work t r k shared x ht hk =>
    refine h.move fun hreturned hcall => ?_
    have hacts := work_acts hk
    rw [Exit.next_point] at hcall ⊢
    refine ⟨hacts.takes_nothing, ?_⟩
    cases hk' : inCall (.go k) with
    | true =>
      rcases hacts.stays hk' with hstays | hreturns
      · cases hcall.symm.trans hstays
      · exact .inr (ha.settled (by rw [Event.thread, ht]; exact hreturns))
    | false =>
      refine .inl ⟨(hacts.closeReturned hk').symm.trans hreturned, ?_⟩
      rw [ht]
      exact hk'

/-! ## Runs -/

/-- What holds in every state of a run whose steps come in turn. -/
structure Guarded (s : System) : Prop where
  sound : Sound program Inv (fun s p => Knows s p.next) s
  accounted : Accounted Kept holds s
  settled : Settled s

theorem Guarded.step {s s' : System} (h : Guarded s) {a : Action} (ha : InTurn s a)
    (hstep : PushClient.step s a = some s') : Guarded s' where
  sound := flagOutline.step h.sound ha hstep
  accounted := connectionDebts.step h.accounted ha hstep
  settled := h.settled.step h.sound ha hstep

/-- A thread that has a connection is in a call, or beside one. -/
theorem inCall_or_watcherHolds {k : ℕ} (h : holds x k) :
    inCall x = true ∨ watcherHolds x = true := by
  unfold holds at h
  split at h
  · exact .inl rfl
  · exact .inl rfl
  · exact .inl rfl
  · rename_i closer _
    cases closer with
    | watcher => exact .inr rfl
    | _ => exact .inl rfl
  · exact h.elim

theorem Guarded.released {s : System} (h : Guarded s) : Released s where
  closed hreturned hcalls k hk := by
    have hreleased : s.shared.released = true := h.sound.inv.returned hreturned
    rcases h.accounted k with hkept | ⟨t, hholds⟩
    · rcases hkept hk with hshut | hconn
      · exact hshut
      · cases (h.sound.inv.empty hreleased).symm.trans hconn
    · rcases inCall_or_watcherHolds hholds with hcall | hwatcher
      · cases (hcalls t).symm.trans hcall
      · cases (h.settled hreturned hcalls t).symm.trans hwatcher
  punctual := h.sound.inv.punctual

/-- **Connections are closed and hooks are not late**, in every run in which `Close` sets its
flag while no `Run` has seen the client open and is about to store a connection or to call
hooks, `setConn` replaces no connection, and calls return while no goroutine beside `Run` has
a connection to close. -/
theorem connections_closed (initErr : Bool) (onReconnect : ℕ) (run : List Action)
    (h : EachStep step InTurn (init initErr onReconnect) run) :
    Always step Released (init initErr onReconnect) run := by
  have hinit : Guarded (init initErr onReconnect) :=
    ⟨sound_init ⟨rfl, nofun, nofun, nofun, nofun⟩ (.nothing rfl rfl rfl), fun _ => .inl nofun,
      fun _ _ _ => rfl⟩
  have hall : Always step Guarded (init initErr onReconnect) run :=
    h.always (fun s a s' hs ha hstep => hs.step ha hstep) hinit
  exact hall.mono fun s hs => hs.released

/-- A thread does a number of actions. -/
def acts (t n : ℕ) (r : Reply) : List Action := List.replicate n (.run t r)

/-- A connection is lost and dialed again; then the context is cancelled, the goroutine beside
`Run` closes the connection, and `Close` comes last. -/
def closeAfterRun : List Action :=
  .call 0 .connect :: acts 0 9 .dialed ++
  .call 1 (.run 0) :: acts 1 24 .dialed ++
  .call 2 (.cancel 0) :: acts 2 1 .cancelled ++
  .call 3 (.watch 0) :: acts 3 5 .cancelled ++
  acts 1 7 .dialed ++
  .call 4 .close :: acts 4 8 .closed

/-- In that run both connections are closed when all calls have returned. -/
theorem connections_closed_closeAfterRun :
    EachStep step InTurn (init false 1) closeAfterRun ∧
      (∃ s, exec step (init false 1) closeAfterRun = some s ∧ s.shared.closeReturned = true ∧
        s.shared.dialed = 2) ∧
      Always step Released (init false 1) closeAfterRun := by
  have hbounded : EachStep step (fun s a =>
      (s.point a.thread = .work .flag → ∀ t' ∈ [0, 1, 2, 3, 4], commits (s.point t').next = false) ∧
      (match s.point a.thread with
        | .inside (.setConn _ _ _) => s.shared.conn.isNone
        | _ => true) = true ∧
      (returns (s.point a.thread).next = true →
        ∀ t' ∈ [0, 1, 2, 3, 4], watcherHolds (s.point t').next = false))
      (init false 1) closeAfterRun := by
    decide +kernel
  have hidle : EachStep step (fun s _ => ∀ t', t' ∉ [0, 1, 2, 3, 4] → s.point t' = .idle)
      (init false 1) closeAfterRun := Program.eachStep_idle (by decide) fun _ _ => rfl
  have hturn : EachStep step InTurn (init false 1) closeAfterRun := by
    refine (hbounded.and hidle).mono fun s a ha => ⟨fun hflag => ?_, fun l dial k hset => ?_,
      fun hreturns => ?_⟩
    · exact State.forall_point (p := (commits ·.next = false)) ha.2 rfl (ha.1.1 hflag)
    · have hnone := ha.1.2.1
      rw [hset] at hnone
      exact Option.isNone_iff_eq_none.mp hnone
    · exact State.forall_point (p := (watcherHolds ·.next = false)) ha.2 rfl (ha.1.2.2 hreturns)
  exact ⟨hturn, exec_exists (by decide +kernel), connections_closed false 1 closeAfterRun hturn⟩

/-- `Close` comes and returns while `Run` dials again. -/
def closeDuringDial : List Action :=
  .call 0 .connect :: acts 0 9 .dialed ++
  .call 1 (.run 0) :: acts 1 13 .dialed ++
  .call 2 .close :: acts 2 8 .closed ++
  acts 1 8 .dialed

/-- **`Close` during a dial.** `Run` stores the connection and calls its hook after `Close` has
returned. In the end all calls have returned and the connection is open. -/
theorem close_during_dial_leaks :
    ∃ s, exec step (init false 1) closeDuringDial = some s ∧ s.Quiescent ∧
      s.shared.closeReturned = true ∧ s.shared.dialed = 2 ∧ s.shared.shut = [0] ∧
      s.shared.lateHook = true ∧ ¬ Released s := by
  obtain ⟨s, hs, hidle, hreturned, hdialed, hshut, hlate⟩ :
      ∃ s, exec step (init false 1) closeDuringDial = some s ∧
        (∀ ev ∈ closeDuringDial, s.point ev.thread = .idle) ∧
        s.shared.closeReturned = true ∧ s.shared.dialed = 2 ∧ s.shared.shut = [0] ∧
        s.shared.lateHook = true := exec_exists (by decide +kernel)
  refine ⟨s, hs, Program.quiescent_of_exec hs hidle, hreturned, hdialed, hshut, hlate, ?_⟩
  exact fun hreleased => nomatch hreleased.punctual.symm.trans hlate

end HstongApi.PushClient
