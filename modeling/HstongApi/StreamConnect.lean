import HstongApi.Stream

/-!
# Connects of one stream client

`Connect` looks at `started` before it dials and sets it afterwards, and what it does after a dial
that failed is to call `cancel`, which is that of the last caller. When calls overlap, two of them
can start a loop, and one that fails can end the context of another one (`connect_overlap`).

`connect_alone` is for the runs in which a `Connect` goes on to dial only while no other one has
gone on and is not through. Then there is at most one loop and no `Connect` that fails ends its
context. The calls of `Close`, the end of contexts and all the rest may come at any time.
-/

namespace HstongApi.Stream

open Threads

/-! ## The property and the condition -/

/-- There is at most one loop, and no `Connect` that failed has ended its context. -/
structure OneLoop (s : Shared) : Prop where
  one : s.runs.length ≤ 1
  kept : ∀ k ∈ s.runs, k ∉ s.aborted

/-- Between the two sections of `Connect`, or about to call `cancel`. -/
def dialing : Next → Bool
  | .go (.dial _) | .go (.abort _) | .enter (.started _) => true
  | _ => false

/-- A `Connect` goes on to dial only while no other one does. -/
def Alone (s : System) (a : Action) : Prop :=
  s.point a.thread = .inside .connect → s.shared.closed = false → s.shared.started = false →
    ∀ t, dialing (s.point t).next = false

/-- A `Connect` that goes on after its first section. -/
def connecting : Next → Bool
  | .go (.dial _) | .go (.abort _) | .enter (.started _) | .go (.spawn _) => true
  | _ => false

theorem connecting_next (tasks : List Task) (rest : Rest) : connecting (next tasks rest) = false := by
  cases tasks with
  | nil => cases rest <;> rfl
  | cons t tasks => cases t <;> rfl

theorem connecting_afterCancel (s : Shared) (i : ℕ) (lastTrade : Bool) :
    connecting (s.afterCancel i lastTrade) = false := by
  rcases s.afterCancel_cases i lastTrade with h | h | h <;> rw [h] <;> rfl

theorem connecting_caller (caller : Caller) : connecting caller.next = false := by
  cases caller <;> rfl

theorem connecting_goroutine (g : Goroutine) : connecting (.go g.work) = false := by
  cases g <;> rfl

variable {s s' : Shared} {x : Next}

theorem connecting_start {a : Call} (h : start s a = some x) : connecting x = false := by
  cases start_begins h <;> rfl

/-! ## What the other calls leave alone -/

/-- What `Connect` is about is the same. -/
structure SameLoop (s s' : Shared) : Prop where
  started : s'.started = s.started
  cancel : s'.cancel = s.cancel
  contexts : s'.contexts = s.contexts
  runs : s'.runs = s.runs
  aborted : s'.aborted = s.aborted

/-- A section that is not the second one of `Connect` leaves it alone, or it is the first one. -/
theorem Follows.sameLoop {c : Section} (h : Follows s c (s', x))
    (hc : connecting (.enter c) = false) :
    (SameLoop s s' ∧ connecting x = false) ∨
      (c = .connect ∧ s.closed = false ∧ s.started = false ∧
        s' = { s with contexts := s.contexts + 1, cancel := some s.contexts } ∧
        x = .go (.dial s.contexts)) := by
  have hsame : SameLoop s s := ⟨rfl, rfl, rfl, rfl, rfl⟩
  cases h with
  | connect hclosed hstarted => exact .inr ⟨rfl, hclosed, hstarted, rfl, rfl⟩
  | startedClosed | started => cases hc
  | cancelAgain | deliver | reconnect | broadcast | updateSkipped | errSkipped =>
    exact .inl ⟨hsame, connecting_next _ _⟩
  | register | registerTrade | shutdown | close => exact .inl ⟨⟨rfl, rfl, rfl, rfl, rfl⟩, rfl⟩
  | cancelLast | cancelTrade | cancel =>
    exact .inl ⟨⟨rfl, rfl, rfl, rfl, rfl⟩, connecting_afterCancel s _ _⟩
  | sendUpdate | sendErr => exact .inl ⟨⟨rfl, rfl, rfl, rfl, rfl⟩, connecting_next _ _⟩
  | _ => exact .inl ⟨hsame, rfl⟩

/-- So do the actions without a lock. -/
theorem Acts.sameLoop {r : Input} {k : Work} (h : Acts s r k (s', x))
    (hk : connecting (.go k) = false) : SameLoop s s' ∧ connecting x = false := by
  cases h with
  | dial | dialFailed | abortNothing | abort | spawn => cases hk
  | shutdownAgain | shutdownDone => exact ⟨⟨rfl, rfl, rfl, rfl, rfl⟩, connecting_caller _⟩
  | begin => exact ⟨⟨rfl, rfl, rfl, rfl, rfl⟩, connecting_goroutine _⟩
  | reply | request | requestRefused | requestTrade | requestTradeRefused | close | sendUpdate
  | sendErr | shutdown | endContext | closePush | waitGroup | runs | watchShutdown | watches
  | forward | forwardSkips | forwards | finish | expire =>
    exact ⟨⟨rfl, rfl, rfl, rfl, rfl⟩, rfl⟩
  | _ => exact ⟨⟨rfl, rfl, rfl, rfl, rfl⟩, connecting_next _ _⟩

/-! ## What the threads know -/

/-- What holds of the contexts. -/
structure LoopInv (s : Shared) : Prop where
  loop : OneLoop s
  started : s.started = false → s.runs = []
  current : ∀ k ∈ s.cancel, k < s.contexts
  aborted : ∀ k ∈ s.aborted, k < s.contexts

/-- What a `Connect` knows that goes on after its first section. -/
def KnowsLoop (s : Shared) : Next → Prop
  | .go (.dial k) | .enter (.started k) => s.started = false ∧ k ∉ s.aborted
  | .go (.abort _) => s.started = false
  | .go (.spawn k) => s.started = true ∧ s.runs = [] ∧ k ∉ s.aborted
  | _ => True

theorem knowsLoop_of_not_connecting (h : connecting x = false) : KnowsLoop s x := by
  unfold KnowsLoop
  split <;> trivial

theorem SameLoop.inv (h : SameLoop s s') (hinv : LoopInv s) : LoopInv s' where
  loop := ⟨h.runs ▸ hinv.loop.one, by rw [h.runs, h.aborted]; exact hinv.loop.kept⟩
  started := by rw [h.started, h.runs]; exact hinv.started
  current := by rw [h.cancel, h.contexts]; exact hinv.current
  aborted := by rw [h.aborted, h.contexts]; exact hinv.aborted

theorem SameLoop.knows (h : SameLoop s s') (hx : KnowsLoop s x) : KnowsLoop s' x := by
  unfold KnowsLoop at hx ⊢
  split
  · rw [h.started, h.aborted]
    exact hx
  · rw [h.started, h.aborted]
    exact hx
  · rw [h.started]
    exact hx
  · rw [h.started, h.runs, h.aborted]
    exact hx
  · trivial

/-- A `Connect` that goes on to dial has a context of its own. -/
theorem LoopInv.connect (h : LoopInv s) :
    LoopInv { s with contexts := s.contexts + 1, cancel := some s.contexts } where
  loop := ⟨h.loop.one, h.loop.kept⟩
  started := h.started
  current k hk := by
    cases hk
    exact Nat.lt_succ_self _
  aborted k hk := Nat.lt_succ_of_lt (h.aborted k hk)

/-- The sections keep the invariant. -/
theorem Follows.knowsLoop {c : Section} (h : Follows s c (s', x)) (hinv : LoopInv s)
    (hc : KnowsLoop s (.enter c)) : LoopInv s' ∧ KnowsLoop s' x := by
  cases hconnecting : connecting (.enter c) with
  | false =>
    rcases h.sameLoop hconnecting with ⟨hsame, hx⟩ | ⟨-, -, hstarted, rfl, rfl⟩
    · exact ⟨hsame.inv hinv, knowsLoop_of_not_connecting hx⟩
    · refine ⟨hinv.connect, hstarted, fun hmem => ?_⟩
      exact Nat.lt_irrefl _ (hinv.aborted _ hmem)
  | true =>
    cases h with
    | startedClosed => exact ⟨hinv, trivial⟩
    | started =>
      obtain ⟨hstarted, hfresh⟩ := hc
      exact ⟨⟨⟨hinv.loop.one, hinv.loop.kept⟩, nofun, hinv.current, hinv.aborted⟩,
        rfl, hinv.started hstarted, hfresh⟩
    | _ => cases hconnecting

/-- So do the actions without a lock. -/
theorem Acts.knowsLoop {r : Input} {k : Work} (h : Acts s r k (s', x)) (hinv : LoopInv s)
    (hk : KnowsLoop s (.go k)) : LoopInv s' ∧ KnowsLoop s' x := by
  cases hconnecting : connecting (.go k) with
  | false =>
    obtain ⟨hsame, hx⟩ := h.sameLoop hconnecting
    exact ⟨hsame.inv hinv, knowsLoop_of_not_connecting hx⟩
  | true =>
    cases h with
    | dial => exact ⟨hinv, hk⟩
    | dialFailed => exact ⟨hinv, hk.1⟩
    | abortNothing => exact ⟨hinv, trivial⟩
    | @abort err k hcancel =>
      have hruns : s.runs = [] := hinv.started hk
      refine ⟨⟨⟨hinv.loop.one, ?_⟩, hinv.started, hinv.current, fun j hj => ?_⟩, trivial⟩
      · rw [hruns]
        exact nofun
      · rcases List.mem_cons.mp hj with rfl | hj
        · exact hinv.current _ hcancel
        · exact hinv.aborted j hj
    | @spawn k =>
      obtain ⟨hstarted, hruns, hfresh⟩ := hk
      refine ⟨⟨⟨?_, fun j hj => ?_⟩, fun h => (nomatch hstarted.symm.trans h), hinv.current,
        hinv.aborted⟩, trivial⟩
      · rw [hruns]
        exact Nat.le_refl 1
      · rw [hruns] at hj
        exact List.mem_singleton.mp hj ▸ hfresh
    | _ => cases hconnecting

/-! ## One `Connect` at a time -/

/-- At most one `Connect` goes on after its first section. -/
def ConnectAlone (s : System) : Prop := AtMostOne (connecting · = true) s

/-- What the threads know about the loop. -/
abbrev SoundLoop (s : System) : Prop := Sound program LoopInv (fun s p => KnowsLoop s p.next) s

/-- While the client is not started, no thread is about to start the loop. -/
theorem dialing_of_connecting {s : System} (h : SoundLoop s) (hstarted : s.shared.started = false)
    {t : ℕ} (ht : connecting (s.point t).next = true) : dialing (s.point t).next = true := by
  have hknows : KnowsLoop s.shared (s.point t).next := h.assert t
  generalize (s.point t).next = x at ht hknows ⊢
  unfold connecting at ht
  split at ht
  · rfl
  · rfl
  · rfl
  · exact nomatch hstarted.symm.trans hknows.1
  · cases ht

theorem connectAlone : NextAlone (τ := ℕ) program (fun s a => SoundLoop s ∧ Alone s a)
    (connecting · = true) where
  start _ hx := by
    rw [connecting_start hx]
    exact Bool.false_ne_true
  body {s t r c} hcond ht hbusy := by
    cases hc : connecting (.enter c) with
    | true => exact .inl rfl
    | false =>
      refine .inr fun t' ht' => ?_
      rcases (body_follows s.shared r c).sameLoop hc with ⟨-, hx⟩ | ⟨rfl, hclosed, hstarted, -, -⟩
      · exact nomatch hbusy.symm.trans hx
      · have hdialing := dialing_of_connecting hcond.1 hstarted ht'
        exact nomatch (hcond.2 ht hclosed hstarted t').symm.trans hdialing
  work {s t r k shared x} _ _ hk hbusy := by
    cases hconnecting : connecting (.go k) with
    | true => exact .inl rfl
    | false => exact nomatch hbusy.symm.trans ((work_acts hk).sameLoop hconnecting).2

/-- What a thread knows about the loop is not changed by the others. -/
theorem loopOutline : NextOutline (τ := ℕ) program (fun s a => ConnectAlone s ∧ Alone s a)
    LoopInv KnowsLoop := by
  -- a thread that knows something of the loop is the only one that connects
  have halone : ∀ {s : System} {t t' : ℕ} {x : Exit Section Work}, ConnectAlone s → t' ≠ t →
      (s.point t).next = x → connecting (s.point t').next = true → connecting x = false := by
    rintro s t t' _ hone hne rfl ht'
    exact Bool.eq_false_of_not_eq_true fun hc => hne (hone t' t ht' hc)
  refine .of_acts (fun _ _ hx => knowsLoop_of_not_connecting (connecting_start hx))
    (fun {s t r c} hs hcond ht hknows => ?_) fun {s t r k shared x} hs hcond ht hk hknows => ?_
  · have hfollows := body_follows s.shared r c
    obtain ⟨hinv, hnext⟩ := hfollows.knowsLoop hs.inv hknows
    refine ⟨hinv, hnext, fun t' hne hother => ?_⟩
    cases ht' : connecting (s.point t').next with
    | false => exact knowsLoop_of_not_connecting ht'
    | true =>
      rcases hfollows.sameLoop (halone hcond.1 hne (by rw [ht]; rfl) ht') with
        ⟨hsame, -⟩ | ⟨rfl, hclosed, hstarted, -, -⟩
      · exact hsame.knows hother
      · have hdialing := dialing_of_connecting hs hstarted ht'
        exact nomatch (hcond.2 ht hclosed hstarted t').symm.trans hdialing
  · obtain ⟨hinv, hnext⟩ := (work_acts hk).knowsLoop hs.inv hknows
    refine ⟨hinv, hnext, fun t' hne hother => ?_⟩
    cases ht' : connecting (s.point t').next with
    | false => exact knowsLoop_of_not_connecting ht'
    | true =>
      have hconnecting := halone hcond.1 hne (by rw [ht]) ht'
      exact ((work_acts hk).sameLoop hconnecting).1.knows hother

/-- **One loop.** In every run in which a `Connect` goes on to dial only while no other one does,
at most one loop is started, and no `Connect` that fails ends the context of one that was. -/
theorem connect_alone (hasClient trade : Bool) (buffer : ℕ) (run : List Action)
    (h : EachStep step Alone (init hasClient trade buffer) run) :
    Always step (fun s => OneLoop s.shared) (init hasClient trade buffer) run := by
  have hinit : LoopInv (init hasClient trade buffer).shared :=
    ⟨⟨Nat.zero_le 1, nofun⟩, fun _ => rfl, nofun, nofun⟩
  have hall : Always step (fun s => ConnectAlone s ∧ SoundLoop s)
      (init hasClient trade buffer) run := by
    refine h.always (fun s a s' hs hcond hstep => ?_)
      ⟨atMostOne_init _ Bool.false_ne_true, sound_init hinit trivial⟩
    exact ⟨connectAlone.step hs.1 ⟨hs.2, hcond⟩ hstep, loopOutline.step hs.2 ⟨hs.1, hcond⟩ hstep⟩
  exact hall.mono fun s hs => hs.2.inv.loop

/-! ## Runs -/

/-- A thread does a number of actions. -/
def acts (t n : ℕ) (r : Input) : List Action := List.replicate n (.run t r)

/-- The Gateway does not answer. -/
def refusedDial : Input := { push := some (.dial (.text (bytes "connection refused"))) }

/-- A `Connect` that fails, one that starts the loop, one that finds it started, and `Close`, for
which the three goroutines end. -/
def connectsInTurn : List Action :=
  .call 0 .connect :: acts 0 6 refusedDial ++ .call 0 .connect :: acts 0 9 {} ++
  .call 1 .connect :: acts 1 4 {} ++
  .call 2 (.goroutine (.run 1)) :: acts 2 1 {} ++
  .call 3 (.goroutine (.watch 1)) :: acts 3 1 {} ++
  .call 4 (.goroutine (.forward 1)) :: acts 4 1 {} ++
  .call 1 .close :: acts 1 8 {} ++ acts 2 2 {} ++ acts 3 2 { context := false } ++ acts 4 2 {} ++
  acts 1 2 {}

theorem connect_alone_connectsInTurn :
    EachStep step Alone (init true true 64) connectsInTurn ∧
      (∃ s, exec step (init true true 64) connectsInTurn = some s ∧ s.shared.runs = [1] ∧
        s.shared.aborted = [0] ∧ Reply.closed ∈ s.shared.replies) ∧
      Always step (fun s => OneLoop s.shared) (init true true 64) connectsInTurn := by
  have hbounded : EachStep step (fun s a => s.point a.thread = .inside .connect →
      s.shared.closed = false → s.shared.started = false →
        ∀ t ∈ [0, 1, 2, 3, 4], dialing (s.point t).next = false)
      (init true true 64) connectsInTurn := by
    decide +kernel
  have hidle : EachStep step (fun s _ => ∀ t, t ∉ [0, 1, 2, 3, 4] → s.point t = .idle)
      (init true true 64) connectsInTurn := Program.eachStep_idle (by decide) fun _ _ => rfl
  have halone : EachStep step Alone (init true true 64) connectsInTurn := by
    refine (hbounded.and hidle).mono fun s a ha hconnect hclosed hstarted => ?_
    exact State.forall_point (p := (dialing ·.next = false)) ha.2 rfl (ha.1 hconnect hclosed hstarted)
  exact ⟨halone, exec_exists (by decide +kernel), connect_alone true true 64 connectsInTurn halone⟩

/-- Two calls of `Connect` have gone on to dial. -/
def twoDials : List Action :=
  .call 0 .connect :: acts 0 3 {} ++ .call 1 .connect :: acts 1 3 {}

/-- **Calls of `Connect` that overlap.** If both dials succeed then there are two loops. If the
first caller fails after the second one has returned nil, it ends the context of the second. -/
theorem connect_overlap :
    (∃ s, exec step (init true true 64) (twoDials ++ acts 0 6 {} ++ acts 1 6 {}) = some s ∧
      s.Quiescent ∧ s.shared.runs = [1, 0] ∧ ¬ OneLoop s.shared) ∧
    ∃ s, exec step (init true true 64) (twoDials ++ acts 1 6 {} ++ acts 0 3 refusedDial) = some s ∧
      s.Quiescent ∧ s.shared.runs = [1] ∧ Reply.connect none ∈ s.shared.replies ∧
      s.shared.ended = [1] ∧ ¬ OneLoop s.shared := by
  constructor
  · obtain ⟨s, hs, hidle, hruns⟩ : ∃ s,
        exec step (init true true 64) (twoDials ++ acts 0 6 {} ++ acts 1 6 {}) = some s ∧
        (∀ a ∈ twoDials ++ acts 0 6 {} ++ acts 1 6 {}, s.point a.thread = .idle) ∧
        s.shared.runs = [1, 0] := exec_exists (by decide +kernel)
    refine ⟨s, hs, Program.quiescent_of_exec hs hidle, hruns, fun h => ?_⟩
    exact absurd (hruns ▸ h.one) (by decide)
  · obtain ⟨s, hs, hidle, hruns, hreply, hended, haborted⟩ : ∃ s,
        exec step (init true true 64) (twoDials ++ acts 1 6 {} ++ acts 0 3 refusedDial) = some s ∧
        (∀ a ∈ twoDials ++ acts 1 6 {} ++ acts 0 3 refusedDial, s.point a.thread = .idle) ∧
        s.shared.runs = [1] ∧ Reply.connect none ∈ s.shared.replies ∧ s.shared.ended = [1] ∧
        s.shared.aborted = [1] := exec_exists (by decide +kernel)
    refine ⟨s, hs, Program.quiescent_of_exec hs hidle, hruns, hreply, hended, fun h => ?_⟩
    refine h.kept 1 ?_ ?_
    · rw [hruns]
      exact List.mem_singleton_self 1
    · rw [haborted]
      exact List.mem_singleton_self 1

end HstongApi.Stream
