import HstongApi.PushEffects

/-!
# A proof outline of the orchestration

`Inv` holds in every state of `PushSystem`. `Owns` says what each lock protects: the account of a
channel is settled unless the holder of its lock is in the middle of a delivery or of a report, and
`Close` has run or not. `Knows` says what holds there in the meantime. The effects of `PushEffects`
keep all three, so every state of a run is `Good`.
-/

namespace HstongApi.PushSystem

open Locks

/-! ## Assertions -/

/-- What holds of an inbox at all times. -/
structure Inbox.Sound (n : ℕ) (b : Inbox) : Prop where
  fits : b.chan.Fits n
  whole : b.chan.broken = false
  closes : b.chan.closes = b.closed.toNat

/-- Nobody is delivering: the account is settled, and `Dropped` counts the updates that were
discarded and the discards that found nothing. -/
structure Inbox.Settled (b : Inbox) : Prop where
  chan : b.chan.Settled
  dropped : b.dropped = b.chan.discarded.length + b.chan.vain

/-- A delivery has found the channel full; after its discard, there is room, and the discard is
not counted yet. -/
structure Inbox.Offering (n : ℕ) (u : PushUpdate) (discarded : Bool) (b : Inbox) : Prop where
  chan : b.chan.Offering u
  opened : b.closed = false
  room : discarded = true → b.chan.queue.length < n
  dropped : b.dropped + discarded.toNat = b.chan.discarded.length + b.chan.vain

/-- The account of the error stream when no report is under way; what was accepted is in the order
in which the reports took the lock, as long as none was refused. -/
structure ErrorLog.Settled (e : ErrorLog) : Prop where
  chan : e.chan.Settled
  dropped : e.dropped = e.chan.discarded.length
  taken : e.refused = 0 → e.taken = e.chan.accepted

/-- A report has passed its check. -/
structure ErrorLog.Reporting (err : StreamError) (stage : Stage) (e : ErrorLog) : Prop where
  opened : e.chan.closes = 0
  chan : if stage = .send then e.chan.Settled else e.chan.Offering err
  room : stage = .count ∨ stage = .resend → e.chan.queue.length < defaultPushBuffer
  dropped : e.dropped + (if stage = .count then 1 else 0) = e.chan.discarded.length
  taken : e.taken = e.chan.accepted ++ (if stage = .send then [err] else [])

/-- `Close` has come to a stage. -/
def Closing.At (v : View) : Closing → Prop
  | .flag => v.errors.chan.closes = 0 ∧ v.closeCh = 0
  | .channel => v.errors.chan.closes = 0 ∧ v.closeCh = 0 ∧ v.closed = true
  | .errors => v.errors.chan.closes = 0 ∧ v.closeCh = 1 ∧ v.closed = true
  | .done => v.errors.chan.closes = 1 ∧ v.closeCh = 1 ∧ v.closed = true

/-- **The invariant.** -/
structure Inv (v : View) : Prop where
  buffer : 0 < v.buffer
  inbox : ∀ p, (v.inbox p).Sound v.buffer
  raised : ∀ p, v.raised p = true → (v.inbox p).dropped ≠ 0
  errFits : v.errors.chan.Fits defaultPushBuffer
  errWhole : v.errors.chan.broken = false
  errCloses : v.errors.chan.closes ≤ 1
  errClosed : v.errors.chan.closes ≠ 0 → v.closed = true
  refused : v.errors.refused ≠ 0 → v.closed = true

/-- **What is known at an action.** -/
def Knows (v : View) : Guard → Prop
  | .free | .asking => True
  | .offering p u discarded => (v.inbox p).Offering v.buffer u discarded
  | .reporting err stage => v.errors.Reporting err stage
  | .closing stage => stage.At v

/-- **What a lock protects.** -/
def Owns (v : View) : Mutex → Prop
  | .port p => (v.inbox p).Settled
  | .errcMu => v.errors.Settled
  | .closeOnce => v.closeCh = v.closeDone.toNat ∧ v.errors.chan.closes = v.closeDone.toNat ∧
      (v.closeDone = true → v.closed = true)
  | _ => True

section

variable {v v' : View} {p : Port} {b : Inbox} {g : Guard} {m : Mutex}

theorem Inv.setInbox (h : Inv v) (hb : b.Sound v.buffer)
    (hdropped : (v.inbox p).dropped ≤ b.dropped) : Inv (v.setInbox p b) := by
  refine { h with inbox := fun q => ?_, raised := fun q hq => ?_ }
  · by_cases hqp : q = p
    · rw [hqp, v.inbox_self]
      exact hb
    · rw [v.inbox_of_ne hqp]
      exact h.inbox q
  · have hold := h.raised q hq
    by_cases hqp : q = p
    · subst hqp
      rw [v.inbox_self]
      omega
    · rw [v.inbox_of_ne hqp]
      exact hold

/-- The assertions speak about these parts of a view only. -/
theorem Knows.of_eq (h : Knows v g) (hinbox : v'.inbox = v.inbox) (hbuffer : v'.buffer = v.buffer)
    (herrors : v'.errors = v.errors) (hch : v'.closeCh = v.closeCh) (hclosed : v'.closed = v.closed) :
    Knows v' g := by
  cases g with
  | free => trivial
  | asking => trivial
  | offering p u discarded =>
    simp only [Knows, hinbox, hbuffer]
    exact h
  | reporting err stage =>
    simp only [Knows, herrors]
    exact h
  | closing stage =>
    cases stage <;> simpa only [Knows, Closing.At, herrors, hch, hclosed] using h

theorem Knows.setInbox (h : Knows v g)
    (hb : ∀ u discarded, g = .offering p u discarded → b.Offering v.buffer u discarded) :
    Knows (v.setInbox p b) g := by
  cases g with
  | free => trivial
  | asking => trivial
  | offering q u discarded =>
    by_cases hqp : q = p
    · subst hqp
      rw [Knows, v.inbox_self]
      exact hb u discarded rfl
    · rw [Knows, v.inbox_of_ne hqp]
      exact h
  | reporting err stage => exact h
  | closing stage => cases stage <;> exact h

theorem Owns.setInbox (h : m ≠ .port p → Owns v m) (hb : m = .port p → b.Settled) :
    Owns (v.setInbox p b) m := by
  by_cases hm : m = .port p
  · subst hm
    rw [Owns, v.inbox_self]
    exact hb rfl
  · have hold := h hm
    cases m with
    | port q =>
      have hqp : q ≠ p := fun heq => hm (congrArg Mutex.port heq)
      rw [Owns, v.inbox_of_ne hqp]
      exact hold
    | _ => exact hold

variable {e : ErrorLog}

theorem Inv.setErrors (h : Inv v) (hfits : e.chan.Fits defaultPushBuffer)
    (hwhole : e.chan.broken = false) (hcloses : e.chan.closes = v.errors.chan.closes)
    (hrefused : e.refused ≠ 0 → v.closed = true) : Inv (v.setErrors e) := by
  refine ⟨h.buffer, h.inbox, h.raised, hfits, hwhole, ?_, fun hne => h.errClosed ?_, hrefused⟩
  · exact hcloses.trans_le h.errCloses
  · rw [← hcloses]
    exact hne

theorem Knows.setErrors (h : Knows v g) (hcloses : e.chan.closes = v.errors.chan.closes)
    (hb : ∀ err stage, g = .reporting err stage → e.Reporting err stage) :
    Knows (v.setErrors e) g := by
  cases g with
  | free => trivial
  | asking => trivial
  | offering q u discarded => exact h
  | reporting err stage => exact hb err stage rfl
  | closing stage => cases stage <;> exact ⟨hcloses.trans h.1, h.2⟩

theorem Owns.setErrors (h : m ≠ .errcMu → Owns v m) (hcloses : e.chan.closes = v.errors.chan.closes)
    (hb : m = .errcMu → e.Settled) : Owns (v.setErrors e) m := by
  cases m with
  | closeOnce =>
    have hold := h nofun
    exact ⟨hold.1, hcloses.trans hold.2.1, hold.2.2⟩
  | errcMu => exact hb rfl
  | _ => exact h nofun

end

/-! ## Inboxes -/

namespace Inbox

variable {n : ℕ} {u : PushUpdate} {b : Inbox}

theorem Sound.not_isClosed (h : b.Sound n) (hopen : b.closed = false) :
    b.chan.isClosed = false := by
  simp [Lossy.isClosed, h.closes, hopen]

theorem Sound.send (h : b.Sound n) (hopen : b.closed = false) (now : Time) :
    Sound n { b with lastSeen := now, chan := b.chan.send n u } := by
  refine ⟨h.fits.send, ?_, h.closes⟩
  simp only [Lossy.send, h.whole, h.not_isClosed hopen, Bool.or_false]

theorem Sound.discard (h : b.Sound n) : Sound n { b with chan := b.chan.discard } := by
  obtain ⟨hcloses, hbroken, -⟩ := b.chan.discard_same
  exact ⟨h.fits.discard, hbroken.trans h.whole, hcloses.trans h.closes⟩

theorem Sound.resend (h : b.Sound n) (hoffer : b.Offering n u true) :
    Sound n { b with chan := b.chan.resend n u, dropped := b.dropped + 1 } := by
  obtain ⟨hbroken, -⟩ := Lossy.resend_same (x := u) (hoffer.room rfl)
  refine ⟨.resend hoffer.chan (hoffer.room rfl), ?_, (b.chan.resend_closes n u).trans h.closes⟩
  rw [hbroken, h.whole, h.not_isClosed hoffer.opened]
  rfl

theorem Sound.shutdown (h : b.Sound n) (hopen : b.closed = false) :
    Sound n { b with closed := true, chan := b.chan.close } := by
  refine ⟨⟨h.fits.length, h.fits.order⟩, ?_, ?_⟩
  · simp only [Lossy.close, h.whole, h.not_isClosed hopen, Bool.or_false]
  · simp only [Lossy.close, h.closes, hopen, Bool.toNat_false, Bool.toNat_true]

theorem Sound.receive (h : b.Sound n) : Sound n { b with chan := b.chan.receive } := by
  obtain ⟨-, -, hcloses, hbroken, -⟩ := b.chan.receive_same
  exact ⟨h.fits.receive, hbroken.trans h.whole, hcloses.trans h.closes⟩

theorem Settled.send (h : b.Settled) (hroom : b.chan.queue.length < n) (now : Time) :
    Settled { b with lastSeen := now, chan := b.chan.send n u } :=
  ⟨h.chan.send hroom, h.dropped⟩

theorem Settled.send_full (h : b.Settled) (hsound : b.Sound n) (hopen : b.closed = false)
    (hfull : ¬ b.chan.queue.length < n) (now : Time) :
    Offering n u false { b with lastSeen := now, chan := b.chan.send n u } :=
  ⟨h.chan.send_full hsound.fits hfull, hopen, nofun, h.dropped⟩

theorem Offering.discard (h : b.Offering n u false) (hsound : b.Sound n) (hn : 0 < n) :
    Offering n u true { b with chan := b.chan.discard } := by
  obtain ⟨-, -, -, -, hcount⟩ := b.chan.discard_same
  refine ⟨h.chan.discard, h.opened, fun _ => hsound.fits.discard_room hn, ?_⟩
  rw [hcount, ← h.dropped]
  rfl

theorem Offering.resend (h : b.Offering n u true) :
    Settled { b with chan := b.chan.resend n u, dropped := b.dropped + 1 } := by
  obtain ⟨-, hdiscarded, hvain⟩ := Lossy.resend_same (x := u) (h.room rfl)
  refine ⟨h.chan.resend (h.room rfl), ?_⟩
  rw [hdiscarded, hvain, ← h.dropped]
  rfl

theorem Settled.shutdown (h : b.Settled) :
    Settled { b with closed := true, chan := b.chan.close } :=
  ⟨⟨h.chan.last, h.chan.count⟩, h.dropped⟩

theorem Settled.receive (h : b.Settled) : Settled { b with chan := b.chan.receive } := by
  obtain ⟨-, hdiscarded, -, -, hvain, -⟩ := b.chan.receive_same
  refine ⟨h.chan.receive, ?_⟩
  rw [hdiscarded, hvain]
  exact h.dropped

theorem Offering.receive {discarded : Bool} (h : b.Offering n u discarded) :
    Offering n u discarded { b with chan := b.chan.receive } := by
  obtain ⟨-, hdiscarded, -, -, hvain, -, hlength⟩ := b.chan.receive_same
  refine ⟨h.chan.receive, h.opened, fun hd => hlength.trans_lt (h.room hd), ?_⟩
  rw [hdiscarded, hvain]
  exact h.dropped

end Inbox

/-! ## The error stream -/

namespace ErrorLog

variable {e : ErrorLog} {err : StreamError} {stage : Stage}

/-- A consumer may receive an error at any time. -/
theorem Settled.receive (h : e.Settled) : Settled { e with chan := e.chan.receive } := by
  obtain ⟨haccepted, hdiscarded, -⟩ := e.chan.receive_same
  refine ⟨h.chan.receive, ?_, fun hrefused => ?_⟩
  · rw [hdiscarded]
    exact h.dropped
  · rw [haccepted]
    exact h.taken hrefused

theorem Reporting.receive (h : e.Reporting err stage) :
    Reporting err stage { e with chan := e.chan.receive } := by
  obtain ⟨haccepted, hdiscarded, hcloses, -, -, -, hlength⟩ := e.chan.receive_same
  refine ⟨hcloses.trans h.opened, ?_, fun hs => hlength.trans_lt (h.room hs), ?_, ?_⟩
  · have hchan := h.chan
    split
    · rw [if_pos ‹_›] at hchan
      exact hchan.receive
    · rw [if_neg ‹_›] at hchan
      exact hchan.receive
  · rw [hdiscarded]
    exact h.dropped
  · rw [haccepted]
    exact h.taken

/-- **The check** of a report. -/
theorem Settled.check (h : e.Settled) (hcloses : e.chan.closes = 0) (hrefused : e.refused = 0) :
    Reporting err .send { e with taken := e.taken ++ [err] } := by
  refine ⟨hcloses, h.chan, nofun, h.dropped, ?_⟩
  simp only [h.taken hrefused, if_true]

/-- **The first attempt**, with room. -/
theorem Reporting.send (h : e.Reporting err .send) (hroom : e.chan.queue.length < defaultPushBuffer) :
    Settled { e with chan := e.chan.send defaultPushBuffer err } :=
  ⟨h.chan.send hroom, h.dropped, fun _ => h.taken⟩

/-- **The first attempt**, without room. -/
theorem Reporting.send_full (h : e.Reporting err .send) (hfits : e.chan.Fits defaultPushBuffer)
    (hfull : ¬ e.chan.queue.length < defaultPushBuffer) :
    Reporting err .discard { e with chan := e.chan.send defaultPushBuffer err } := by
  refine ⟨h.opened, h.chan.send_full hfits hfull, nofun, h.dropped, ?_⟩
  simp only [Lossy.send, List.append_nil, reduceCtorEq, if_false]
  exact h.taken

/-- **The discard**, when there is something to discard. -/
theorem Reporting.discard (h : e.Reporting err .discard) (hfits : e.chan.Fits defaultPushBuffer)
    (hne : e.chan.queue ≠ []) : Reporting err .count { e with chan := e.chan.discard } := by
  obtain ⟨hcloses, -, haccepted, -⟩ := e.chan.discard_same
  have hdropped : e.dropped = e.chan.discarded.length := h.dropped
  refine ⟨hcloses.trans h.opened, h.chan.discard, fun _ => hfits.discard_room (by decide), ?_, ?_⟩
  · rw [Lossy.discard_of_ne_nil hne, hdropped, if_pos rfl]
  · rw [haccepted]
    exact h.taken

/-- **The discard**, when there is nothing to discard. -/
theorem Reporting.discard_vain (h : e.Reporting err .discard) (hfits : e.chan.Fits defaultPushBuffer)
    (hnil : e.chan.queue = []) : Reporting err .resend { e with chan := e.chan.discard } := by
  obtain ⟨hcloses, -, haccepted, -⟩ := e.chan.discard_same
  refine ⟨hcloses.trans h.opened, h.chan.discard, fun _ => hfits.discard_room (by decide), ?_, ?_⟩
  · rw [Lossy.discard_of_nil hnil]
    exact h.dropped
  · rw [haccepted]
    exact h.taken

theorem Reporting.count (h : e.Reporting err .count) :
    Reporting err .resend { e with dropped := e.dropped + 1 } :=
  { h with room := fun _ => h.room (.inl rfl) }

/-- **The second attempt.** -/
theorem Reporting.resend (h : e.Reporting err .resend) :
    Settled { e with chan := e.chan.resend defaultPushBuffer err } := by
  have hroom := h.room (.inr rfl)
  obtain ⟨-, hdiscarded, -⟩ := Lossy.resend_same (x := err) hroom
  refine ⟨h.chan.resend hroom, ?_, fun _ => ?_⟩
  · rw [hdiscarded]
    exact h.dropped
  · have htaken := h.taken
    simp only [reduceCtorEq, if_false, List.append_nil] at htaken
    rw [Lossy.resend_accepted, htaken]

end ErrorLog

/-! ## Effects -/

namespace Effect

variable {held : List Mutex} {v v' : View} {g g' b : Guard} {m : Mutex}

/-- The stream is open while a report is under way. -/
theorem errc_open (h : v.errors.chan.closes = 0) : v.errors.chan.isClosed = false := by
  simp [Lossy.isClosed, h]

/-- **The invariant is kept.** -/
theorem inv (h : Effect held v g v' g') (hinv : Inv v) (hknows : Knows v g) : Inv v' := by
  cases h with
  | quiet | closeOnce => exact hinv
  | @send p u now _ hopen _ | @sendFull p u now _ hopen _ =>
    exact hinv.setInbox ((hinv.inbox p).send hopen now) le_rfl
  | @discard p u => exact hinv.setInbox (hinv.inbox p).discard le_rfl
  | @resend p u raised hraised =>
    have hnew := hinv.setInbox ((hinv.inbox p).resend hknows) (Nat.le_succ _)
    refine { hnew with raised := fun q hq => ?_ }
    rcases hraised q hq with rfl | hold
    · simp only [v.inbox_self]
      omega
    · exact hnew.raised q hold
  | @shutdown p _ _ hopen _ => exact hinv.setInbox ((hinv.inbox p).shutdown hopen) le_rfl
  | @receive p => exact hinv.setInbox (hinv.inbox p).receive le_rfl
  | report | closeChannel | closeDone => exact { hinv with }
  | refuse _ hclosed => exact hinv.setErrors hinv.errFits hinv.errWhole rfl fun _ => hclosed
  | check | errCount => exact hinv.setErrors hinv.errFits hinv.errWhole rfl hinv.refused
  | errSend | errSendFull =>
    refine hinv.setErrors hinv.errFits.send ?_ rfl hinv.refused
    simp only [Lossy.send, hinv.errWhole, errc_open hknows.opened, Bool.or_false]
  | errDiscard | errDiscardVain =>
    obtain ⟨hcloses, hbroken, -⟩ := v.errors.chan.discard_same
    exact hinv.setErrors hinv.errFits.discard (hbroken.trans hinv.errWhole) hcloses hinv.refused
  | @errResend err =>
    have hroom := hknows.room (.inr rfl)
    obtain ⟨hbroken, -⟩ := Lossy.resend_same (x := err) hroom
    refine hinv.setErrors (.resend hknows.chan hroom) ?_ (v.errors.chan.resend_closes _ err)
      hinv.refused
    rw [hbroken, hinv.errWhole, errc_open hknows.opened]
    rfl
  | receiveError =>
    obtain ⟨-, -, hcloses, hbroken, -⟩ := v.errors.chan.receive_same
    exact hinv.setErrors hinv.errFits.receive (hbroken.trans hinv.errWhole) hcloses hinv.refused
  | closeFlag => exact { hinv with errClosed := fun _ => rfl, refused := fun _ => rfl }
  | closeErrors =>
    refine ⟨hinv.1, hinv.2, hinv.3, ⟨hinv.errFits.length, hinv.errFits.order⟩, ?_, ?_,
      fun _ => hknows.2.2, hinv.8⟩
    · simp only [View.setErrors_errors, Lossy.close, hinv.errWhole, errc_open hknows.1, Bool.or_false]
    · simp only [View.setErrors_errors, Lossy.close, hknows.1, le_refl]

/-- **The next assertion.** -/
theorem knows (h : Effect held v g v' g') (hinv : Inv v) (hknows : Knows v g)
    (howns : ∀ m ∈ held, m ∉ g.locks → Owns v m) : Knows v' g' := by
  cases h with
  | quiet => exact hknows
  | send | resend | receive | report | refuse | errSend | errResend | receiveError | closeDone =>
    trivial
  | @sendFull p u now hp hopen hfull =>
    have hsettled : (v.inbox p).Settled := howns _ hp List.not_mem_nil
    rw [Knows, v.inbox_self]
    exact hsettled.send_full (hinv.inbox p) hopen hfull now
  | @discard p u =>
    rw [Knows, v.inbox_self]
    exact Inbox.Offering.discard hknows (hinv.inbox p) hinv.buffer
  | @shutdown p _ _ _ hg =>
    refine hknows.setInbox fun u discarded heq => ?_
    rw [heq] at hg
    cases hg
  | check herr hopen =>
    have hsettled : v.errors.Settled := howns _ herr List.not_mem_nil
    have hzero : ∀ {k : ℕ}, (k ≠ 0 → v.closed = true) → k = 0 := by
      intro k hk
      by_contra hne
      rw [hk hne] at hopen
      cases hopen
    exact hsettled.check (hzero hinv.errClosed) (hzero hinv.refused)
  | errSendFull hfull => exact ErrorLog.Reporting.send_full hknows hinv.errFits hfull
  | errDiscard hfound =>
    exact ErrorLog.Reporting.discard hknows hinv.errFits fun hnil => hfound ⟨hnil, errc_open hknows.opened⟩
  | errDiscardVain hnil => exact ErrorLog.Reporting.discard_vain hknows hinv.errFits hnil
  | errCount => exact ErrorLog.Reporting.count hknows
  | closeOnce hheld hnot =>
    obtain ⟨hch, hcloses, -⟩ : Owns v .closeOnce := howns _ hheld List.not_mem_nil
    rw [hnot] at hch hcloses
    exact ⟨hcloses, hch⟩
  | closeFlag => exact ⟨hknows.1, hknows.2, rfl⟩
  | closeChannel => exact ⟨hknows.1, congrArg (· + 1) hknows.2.1, hknows.2.2⟩
  | closeErrors => exact ⟨congrArg (· + 1) hknows.1, hknows.2⟩

/-- **What the locks protect** is in order when the thread does not keep the lock. -/
theorem owns (h : Effect held v g v' g') (hknows : Knows v g) (hm : m ∉ g'.locks)
    (howns : m ∉ g.locks → Owns v m) : Owns v' m := by
  cases h with
  | quiet => exact howns hm
  | @send p u now _ _ hroom =>
    refine Owns.setInbox (fun _ => howns nofun) fun hp => ?_
    subst hp
    exact Inbox.Settled.send (howns nofun) hroom now
  | @sendFull p u now =>
    refine Owns.setInbox (fun _ => howns nofun) fun hp => absurd ?_ hm
    rw [hp]
    exact List.mem_cons_self
  | @discard p u =>
    refine Owns.setInbox (fun _ => howns hm) fun hp => absurd ?_ hm
    rw [hp]
    exact List.mem_cons_self
  | @resend p u raised =>
    have hnew : Owns (v.setInbox p _) m := Owns.setInbox
      (fun hne => howns fun hmem => hne (List.mem_singleton.mp hmem))
      fun _ => Inbox.Offering.resend hknows
    cases m <;> exact hnew
  | @shutdown p g _ _ hg =>
    refine Owns.setInbox (fun _ => howns hm) fun hp => ?_
    subst hp
    exact Inbox.Settled.shutdown (howns hm)
  | @receive p =>
    refine Owns.setInbox (fun _ => howns nofun) fun hp => ?_
    subst hp
    exact Inbox.Settled.receive (howns nofun)
  | report => cases m <;> exact howns nofun
  | refuse =>
    have hold := howns nofun
    cases m with
    | errcMu => exact { hold with taken := nofun }
    | _ => exact hold
  | check =>
    cases m with
    | errcMu => exact absurd List.mem_cons_self hm
    | _ => exact howns nofun
  | errSend hroom =>
    exact Owns.setErrors (fun hne => howns fun hmem => hne (List.mem_singleton.mp hmem)) rfl
      fun _ => ErrorLog.Reporting.send hknows hroom
  | errSendFull | errCount =>
    refine Owns.setErrors (fun _ => howns hm) rfl fun heq => absurd ?_ hm
    rw [heq]
    exact List.mem_cons_self
  | errDiscard | errDiscardVain =>
    refine Owns.setErrors (fun _ => howns hm) v.errors.chan.discard_same.1 fun heq => absurd ?_ hm
    rw [heq]
    exact List.mem_cons_self
  | @errResend err =>
    exact Owns.setErrors (fun hne => howns fun hmem => hne (List.mem_singleton.mp hmem))
      (v.errors.chan.resend_closes _ err) fun _ => ErrorLog.Reporting.resend hknows
  | receiveError =>
    refine Owns.setErrors (fun _ => howns nofun) v.errors.chan.receive_same.2.2.1 fun heq => ?_
    subst heq
    exact ErrorLog.Settled.receive (howns nofun)
  | closeOnce => exact howns nofun
  | closeFlag =>
    have hold := howns hm
    cases m with
    | closeOnce => exact ⟨hold.1, hold.2.1, fun _ => rfl⟩
    | _ => exact hold
  | closeChannel =>
    have hold := howns hm
    cases m with
    | closeOnce => exact absurd List.mem_cons_self hm
    | _ => exact hold
  | closeErrors =>
    have hold := howns hm
    cases m with
    | closeOnce => exact absurd List.mem_cons_self hm
    | errcMu => exact { hold with chan := ⟨hold.chan.last, hold.chan.count⟩ }
    | _ => exact hold
  | closeDone =>
    cases m with
    | closeOnce => exact ⟨hknows.2.1, hknows.1, fun _ => hknows.2.2⟩
    | _ => exact howns nofun

/-- **Other threads** keep what they know. -/
theorem knows_other (h : Effect held v g v' g') (hg : ∀ m ∈ g.locks, m ∈ held)
    (hb : ∀ m ∈ b.locks, m ∉ held) (hknows : Knows v b) : Knows v' b := by
  -- a delivery, or a report, of another thread is under another lock
  have hport : ∀ {p : Port} {b' : Inbox}, .port p ∈ held → ∀ u discarded,
      b = .offering p u discarded → b'.Offering v.buffer u discarded := by
    rintro p b' hp u discarded rfl
    exact absurd hp (hb _ List.mem_cons_self)
  have herrc : ∀ {e : ErrorLog}, .errcMu ∈ held → ∀ err stage, b = .reporting err stage →
      e.Reporting err stage := by
    rintro e herr err stage rfl
    exact absurd herr (hb _ List.mem_cons_self)
  have hclose : .closeOnce ∈ held → ∀ stage, b ≠ .closing stage := by
    rintro hheld stage rfl
    exact hb _ List.mem_cons_self hheld
  cases h with
  | quiet | closeOnce => exact hknows
  | send hp | sendFull hp | shutdown hp =>
    exact hknows.setInbox (hport hp)
  | discard => exact hknows.setInbox (hport (hg _ List.mem_cons_self))
  | resend =>
    exact Knows.of_eq (hknows.setInbox (hport (hg _ List.mem_cons_self))) rfl rfl rfl rfl rfl
  | receive =>
    refine hknows.setInbox fun u d heq => ?_
    subst heq
    exact Inbox.Offering.receive hknows
  | report => exact hknows.of_eq rfl rfl rfl rfl rfl
  | refuse herr | check herr => exact hknows.setErrors rfl (herrc herr)
  | errSend | errSendFull | errCount =>
    exact hknows.setErrors rfl (herrc (hg _ List.mem_cons_self))
  | errDiscard | errDiscardVain =>
    exact hknows.setErrors v.errors.chan.discard_same.1 (herrc (hg _ List.mem_cons_self))
  | @errResend err =>
    exact hknows.setErrors (v.errors.chan.resend_closes _ err) (herrc (hg _ List.mem_cons_self))
  | receiveError =>
    refine hknows.setErrors v.errors.chan.receive_same.2.2.1 fun err st heq => ?_
    subst heq
    exact ErrorLog.Reporting.receive hknows
  | closeFlag | closeChannel | closeDone =>
    cases b with
    | closing stage => exact absurd rfl (hclose (hg _ List.mem_cons_self) stage)
    | _ => exact hknows
  | closeErrors herr =>
    cases b with
    | closing stage => exact absurd rfl (hclose (hg _ List.mem_cons_self) stage)
    | reporting err stage => exact herrc herr err stage rfl
    | _ => exact hknows

end Effect

/-! ## Runs -/

/-- A lock that is kept is held. -/
theorem Act.locks_held (a : Act) : ∀ m ∈ a.guard.locks, m ∈ a.held := by
  cases a with
  | deliverTo _ _ _ _ attempt | deliverOrderTo _ _ _ _ attempt =>
    cases attempt <;> simp [Act.guard, Attempt.guard, Guard.locks, Act.held]
  | shutdowns _ _ after | shutdown _ _ _ after | shutdownOrder _ _ after =>
    cases after <;> simp [Act.guard, Release.guard, Guard.locks, Act.held, Release.held]
  | _ => simp [Act.guard, Guard.locks, Act.held]

section

variable [UnicodeTables]

/-- **The outline.** -/
theorem outline : Outline plan program (fun s => Inv s.view) (fun s a => Knows s.view a.guard)
    fun s m => Owns s.view m := by
  refine ⟨?_, ?_, ?_⟩
  · intro a s s' k hinv hknows howns hdoes
    have hspec := does_spec hdoes
    refine ⟨hspec.effect.inv hinv hknows, hspec.effect.knows hinv hknows howns, ?_⟩
    intro m hm hkept
    exact hspec.effect.owns hknows hkept fun hfree => howns m hm hfree
  · intro a s s' k m _ hknows hdoes hm howns
    have hspec := does_spec hdoes
    refine hspec.effect.owns hknows (fun hkept => hm ?_) fun _ => howns
    have hmem := hspec.fits.kept m hkept
    rw [hspec.held] at hmem
    exact hmem
  · intro a s s' k b _ _ hdoes hb hknows
    exact (does_spec hdoes).effect.knows_other a.locks_held hb hknows

/-- What holds in every state. -/
abbrev Good : System → Prop :=
  Sound plan (fun s => Inv s.view) (fun s a => Knows s.view a.guard) fun s m => Owns s.view m

omit [UnicodeTables] in
theorem good_init (market trade transport : Bool) (n : ℤ) :
    Good (init market trade transport n) := by
  have hinbox : ∀ p, (init market trade transport n).shared.inbox p = {} := by
    intro p
    cases p <;> rfl
  have hraised : ∀ p, (init market trade transport n).shared.raised p = false := by
    intro p
    cases p <;> rfl
  have hcode : ∀ t, (init market trade transport n).code t = .act .idle ∨
      (t = 0 ∧ transport = true ∧ (init market trade transport n).code t = .act .drain) := by
    intro t
    by_cases h : t = 0 ∧ transport = true
    · exact .inr ⟨h.1, h.2, if_pos h⟩
    · exact .inl (if_neg h)
  refine ⟨⟨fun t => ?_, fun m t => ?_⟩, ?_, fun t => ?_, fun m => .inl ?_⟩
  · rcases hcode t with h | ⟨-, -, h⟩ <;> rw [h] <;> simp [Act.guard, Guard.locks]
  · by_cases h : t = 0 ∧ transport = true
    · obtain ⟨rfl, rfl⟩ := h
      simp [init, Act.held]
    · have hcode : (init market trade transport n).code t = .act .idle := if_neg h
      rw [hcode]
      refine iff_of_false (fun hholder => h ?_) nofun
      simp only [init] at hholder
      split at hholder
      · rename_i hm
        exact ⟨(Option.some.inj hholder).symm, hm.2⟩
      · cases hholder
  · refine ⟨(init market trade transport n).shared.orch.buffer_pos, fun p => ?_, fun p hp => ?_,
      Lossy.fits_new, rfl, Nat.zero_le _, nofun, nofun⟩
    · rw [Shared.view_inbox, hinbox]
      exact ⟨Lossy.fits_new, rfl, rfl⟩
    · rw [Shared.view_raised, hraised] at hp
      cases hp
  · rcases hcode t with h | ⟨-, -, h⟩ <;> rw [h] <;> trivial
  · cases m with
    | port p =>
      simp only [Owns, Shared.view_inbox, hinbox]
      exact ⟨Lossy.settled_new, rfl⟩
    | errcMu => exact ⟨Lossy.settled_new, rfl, fun _ => rfl⟩
    | closeOnce => exact ⟨rfl, rfl, nofun⟩
    | _ => trivial

theorem good_step {s s' : System} {ev : Action} (h : Good s) (hstep : step s ev = some s') : Good s' :=
  outline.step plan_follows h hstep

/-- **Every run is good.** -/
theorem good_run (market trade transport : Bool) (n : ℤ) (run : List Action) :
    Always step Good (init market trade transport n) run :=
  always_of_step (fun _ _ _ h hstep => good_step h hstep) (good_init market trade transport n) run

end

end HstongApi.PushSystem
