import Mathlib.Data.List.Basic

/-!
# Channels that lose their oldest value

A sender that must not block offers a value to a buffered channel in up to three attempts. It
tries to send. If the channel is full, it tries to receive the oldest value, in order to discard
it, and then it tries to send again. Receivers may act between the attempts.

A `Lossy` channel keeps account of its values: which were accepted, received and discarded, each
list in the order of the events. It also counts the discards that found it empty.

A channel that nobody is sending on is `Settled`: the newest value was received or is in the
channel, and every accepted value was received, discarded, or is in the channel. While a sender is
between its attempts, the channel is `Offering` the value of that sender. `Fits` holds at all
times.
-/

namespace HstongApi

universe u

/-- A channel and its account. -/
structure Lossy (α : Type u) where
  /-- the values in the channel, oldest first -/
  queue : List α := []
  /-- how often it was closed -/
  closes : ℕ := 0
  /-- it was closed, or something was sent on it, when it was closed already -/
  broken : Bool := false
  accepted : List α := []
  received : List α := []
  discarded : List α := []
  /-- the discards that found the channel empty -/
  vain : ℕ := 0
  deriving DecidableEq

namespace Lossy

variable {α : Type u}

/-! ## Operations -/

/-- The channel is closed. -/
def isClosed (q : Lossy α) : Bool := 0 < q.closes

/-- The first attempt to send. -/
def send (n : ℕ) (x : α) (q : Lossy α) : Lossy α :=
  { q with
    queue := if q.queue.length < n then q.queue ++ [x] else q.queue
    accepted := q.accepted ++ [x]
    broken := q.broken || q.isClosed }

/-- The attempt to discard the oldest value. -/
def discard (q : Lossy α) : Lossy α :=
  match q.queue with
  | [] => { q with vain := q.vain + 1 }
  | x :: queue => { q with queue := queue, discarded := q.discarded ++ [x] }

/-- The second attempt to send; if it fails, the new value itself is lost. -/
def resend (n : ℕ) (x : α) (q : Lossy α) : Lossy α :=
  if q.queue.length < n then
    { q with queue := q.queue ++ [x], broken := q.broken || q.isClosed }
  else { q with discarded := q.discarded ++ [x], broken := q.broken || q.isClosed }

/-- A receiver takes the oldest value. -/
def receive (q : Lossy α) : Lossy α :=
  match q.queue with
  | [] => q
  | x :: queue => { q with queue := queue, received := q.received ++ [x] }

/-- The channel is closed. -/
def close (q : Lossy α) : Lossy α :=
  { q with closes := q.closes + 1, broken := q.broken || q.isClosed }

/-! ## What holds of the account -/

/-- The values that have come through, in order. -/
def through (q : Lossy α) : List α := q.received ++ q.queue

/-- The channel is not overfull, and nothing comes through out of order or twice. -/
structure Fits (n : ℕ) (q : Lossy α) : Prop where
  length : q.queue.length ≤ n
  order : q.through.Sublist q.accepted

/-- Nobody is between two attempts. -/
structure Settled (q : Lossy α) : Prop where
  last : q.through.getLast? = q.accepted.getLast?
  count : q.accepted.length = q.received.length + q.queue.length + q.discarded.length

/-- A sender has the value in hand. -/
def Offering (x : α) (q : Lossy α) : Prop :=
  ∃ before, q.accepted = before ++ [x] ∧ q.through.Sublist before ∧
    before.length = q.received.length + q.queue.length + q.discarded.length

variable {n : ℕ} {x : α} {q : Lossy α}

theorem fits_new : (({} : Lossy α)).Fits n := ⟨Nat.zero_le n, .slnil⟩

theorem settled_new : (({} : Lossy α)).Settled := ⟨rfl, rfl⟩

theorem send_through (hroom : q.queue.length < n) : (q.send n x).through = q.through ++ [x] := by
  simp only [through, send, if_pos hroom, List.append_assoc]

theorem send_through_full (hfull : ¬ q.queue.length < n) : (q.send n x).through = q.through := by
  simp only [through, send, if_neg hfull]

/-- **The first attempt**, with room: the value is in the channel. -/
theorem Settled.send (h : q.Settled) (hroom : q.queue.length < n) : (q.send n x).Settled := by
  have hcount := h.count
  refine ⟨?_, ?_⟩
  · simp [Lossy.send, through, hroom, ← List.append_assoc]
  · simp only [Lossy.send, if_pos hroom, List.length_append, List.length_singleton]
    omega

/-- **The first attempt**, without room: the sender has the value in hand. -/
theorem Settled.send_full (h : q.Settled) (hq : q.Fits n) (hfull : ¬ q.queue.length < n) :
    Offering x (q.send n x) := by
  refine ⟨q.accepted, rfl, ?_, ?_⟩
  · simp only [through, Lossy.send, if_neg hfull]
    exact hq.order
  · simp only [Lossy.send, if_neg hfull]
    exact h.count

theorem Fits.send (h : q.Fits n) : (q.send n x).Fits n := by
  by_cases hroom : q.queue.length < n
  · refine ⟨?_, ?_⟩
    · simp only [Lossy.send, if_pos hroom, List.length_append, List.length_singleton]
      exact hroom
    · simp only [through, Lossy.send, if_pos hroom, ← List.append_assoc]
      exact h.order.append (List.Sublist.refl [x])
  · refine ⟨?_, ?_⟩
    · simp only [Lossy.send, if_neg hroom]
      exact h.length
    · simp only [through, Lossy.send, if_neg hroom]
      exact h.order.trans (List.sublist_append_left _ _)

/-- Without its oldest value, less has come through. -/
theorem discard_through (q : Lossy α) : q.discard.through.Sublist q.through := by
  unfold discard through
  split
  · exact .refl _
  · rename_i y queue hqueue
    rw [hqueue]
    exact List.Sublist.append_left (List.sublist_cons_self y queue) _

/-- A discard finds a value or not. -/
theorem discard_same (q : Lossy α) : q.discard.closes = q.closes ∧ q.discard.broken = q.broken ∧
    q.discard.accepted = q.accepted ∧ q.discard.received = q.received ∧
    q.discard.discarded.length + q.discard.vain = q.discarded.length + q.vain + 1 := by
  unfold discard
  split
  · exact ⟨rfl, rfl, rfl, rfl, rfl⟩
  · refine ⟨rfl, rfl, rfl, rfl, ?_⟩
    simp only [List.length_append, List.length_singleton]
    omega

theorem discard_of_nil (h : q.queue = []) : q.discard.discarded = q.discarded := by
  simp [discard, h]

theorem discard_of_ne_nil (h : q.queue ≠ []) :
    q.discard.discarded.length = q.discarded.length + 1 := by
  cases hq : q.queue with
  | nil => exact absurd hq h
  | cons x queue => simp [discard, hq]

theorem Fits.discard (h : q.Fits n) : q.discard.Fits n := by
  refine ⟨?_, ?_⟩
  · have hlength := h.length
    unfold Lossy.discard
    split
    · exact hlength
    · rename_i y queue hqueue
      rw [hqueue] at hlength
      exact Nat.le_of_succ_le hlength
  · rw [q.discard_same.2.2.1]
    exact q.discard_through.trans h.order

/-- **The discard** makes room, if there was none. -/
theorem Fits.discard_room (h : q.Fits n) (hn : 0 < n) : q.discard.queue.length < n := by
  have hlength := h.length
  unfold Lossy.discard
  split
  · rename_i hqueue
    simp only [hqueue, List.length_nil]
    exact hn
  · rename_i y queue hqueue
    rw [hqueue] at hlength
    exact hlength

theorem Offering.discard (h : Offering x q) : Offering x q.discard := by
  obtain ⟨before, haccepted, hsub, hcount⟩ := h
  refine ⟨before, ?_, q.discard_through.trans hsub, ?_⟩
  · unfold Lossy.discard
    split <;> exact haccepted
  · unfold Lossy.discard
    split
    · exact hcount
    · rename_i y queue hqueue
      rw [hqueue, List.length_cons] at hcount
      simp only [List.length_append, List.length_singleton]
      omega

theorem resend_closes (n : ℕ) (x : α) (q : Lossy α) : (q.resend n x).closes = q.closes := by
  unfold resend
  split <;> rfl

theorem resend_accepted (n : ℕ) (x : α) (q : Lossy α) :
    (q.resend n x).accepted = q.accepted := by
  unfold resend
  split <;> rfl

theorem resend_same (hroom : q.queue.length < n) :
    (q.resend n x).broken = (q.broken || q.isClosed) ∧
    (q.resend n x).discarded = q.discarded ∧ (q.resend n x).vain = q.vain := by
  simp only [resend, if_pos hroom, and_self]

theorem resend_through (hroom : q.queue.length < n) : (q.resend n x).through = q.through ++ [x] := by
  simp only [through, resend, if_pos hroom, List.append_assoc]

/-- **The second attempt** puts the value into the channel. -/
theorem Offering.resend (h : Offering x q) (hroom : q.queue.length < n) :
    (q.resend n x).Settled := by
  obtain ⟨before, haccepted, -, hcount⟩ := h
  refine ⟨?_, ?_⟩
  · simp only [Lossy.resend, if_pos hroom, through, haccepted, ← List.append_assoc]
    simp
  · simp only [Lossy.resend, if_pos hroom, haccepted, List.length_append, List.length_singleton]
    omega

theorem Fits.resend (h : Offering x q) (hroom : q.queue.length < n) : (q.resend n x).Fits n := by
  obtain ⟨before, haccepted, hsub, -⟩ := h
  refine ⟨?_, ?_⟩
  · simp only [Lossy.resend, if_pos hroom, List.length_append, List.length_singleton]
    exact hroom
  · simp only [Lossy.resend, if_pos hroom, through, haccepted, ← List.append_assoc]
    exact hsub.append (List.Sublist.refl [x])

/-! ## Receivers -/

/-- What has come through does not change when it is received. -/
theorem receive_through (q : Lossy α) : q.receive.through = q.through := by
  unfold receive through
  split
  · rfl
  · rename_i y queue hqueue
    simp [hqueue]

theorem receive_same (q : Lossy α) : q.receive.accepted = q.accepted ∧
    q.receive.discarded = q.discarded ∧ q.receive.closes = q.closes ∧
    q.receive.broken = q.broken ∧ q.receive.vain = q.vain ∧
    q.receive.received.length + q.receive.queue.length = q.received.length + q.queue.length ∧
    q.receive.queue.length ≤ q.queue.length := by
  unfold receive
  split
  · exact ⟨rfl, rfl, rfl, rfl, rfl, rfl, Nat.le_refl _⟩
  · rename_i y queue hqueue
    refine ⟨rfl, rfl, rfl, rfl, rfl, ?_, ?_⟩
    · simp only [hqueue, List.length_append, List.length_cons, List.length_nil]
      omega
    · simp only [hqueue, List.length_cons]
      omega

theorem Fits.receive (h : q.Fits n) : q.receive.Fits n := by
  obtain ⟨haccepted, -, -, -, -, -, hlength⟩ := q.receive_same
  refine ⟨Nat.le_trans hlength h.length, ?_⟩
  rw [haccepted, receive_through]
  exact h.order

theorem Settled.receive (h : q.Settled) : q.receive.Settled := by
  obtain ⟨haccepted, hdiscarded, -, -, -, hlength, -⟩ := q.receive_same
  refine ⟨?_, ?_⟩
  · rw [haccepted, receive_through]
    exact h.last
  · rw [haccepted, hdiscarded, h.count, hlength]

theorem Offering.receive (h : Offering x q) : Offering x q.receive := by
  obtain ⟨haccepted, hdiscarded, -, -, -, hlength, -⟩ := q.receive_same
  obtain ⟨before, heq, hsub, hcount⟩ := h
  refine ⟨before, haccepted.trans heq, ?_, ?_⟩
  · rw [receive_through]
    exact hsub
  · rw [hdiscarded, hcount, hlength]

end Lossy

end HstongApi
