import Mathlib.Data.List.Basic

/-!
# Buffered channels

A channel has a capacity and holds the values that were sent and not yet received. A
`select` with a default branch never blocks: to send takes place if there is room
(`Chan.trySend`), to receive if there is a value (`Chan.tryRecv`). A value of type `Chan`
never holds more than its capacity.

A channel may be closed once. What was sent before can still be received. To send on a
closed channel is an error of the program; the programs that close a channel ask
`Chan.closed` before they send.
-/

namespace HstongApi

universe u

variable {α : Type u}

/-- A buffered channel, with the oldest value first. -/
structure Chan (α : Type u) where
  capacity : ℕ
  queue : List α
  closed : Bool
  fits : queue.length ≤ capacity

/-- How far the call of a function that is to run once has come: `sync.Once`. -/
inductive Once
  | unused
  | running
  | done
  deriving DecidableEq

namespace Chan

/-- A new channel. -/
def make (capacity : ℕ) : Chan α := ⟨capacity, [], false, Nat.zero_le capacity⟩

/-- To send without blocking; `none` if the channel is full. -/
def trySend (c : Chan α) (x : α) : Option (Chan α) :=
  if h : c.queue.length < c.capacity then
    some ⟨c.capacity, c.queue ++ [x], c.closed, by rw [List.length_append]; exact h⟩
  else none

/-- To receive without blocking; `none` if the channel is empty. -/
def tryRecv (c : Chan α) : Option (α × Chan α) :=
  match c.queue, c.fits with
  | [], _ => none
  | x :: queue, fits => some (x, ⟨c.capacity, queue, c.closed, Nat.le_of_succ_le fits⟩)

/-- To close the channel. -/
def close (c : Chan α) : Chan α := { c with closed := true }

variable {c c' : Chan α} {x : α}

theorem trySend_eq_some (h : c.trySend x = some c') :
    c'.queue = c.queue ++ [x] ∧ c'.capacity = c.capacity ∧ c'.closed = c.closed := by
  rw [trySend] at h
  split at h <;> cases h
  exact ⟨rfl, rfl, rfl⟩

/-- A channel with room takes a value. -/
theorem trySend_ne_none (h : c.queue.length < c.capacity) : c.trySend x ≠ none := by
  rw [trySend, dif_pos h]
  exact nofun

theorem tryRecv_eq_some (h : c.tryRecv = some (x, c')) :
    c.queue = x :: c'.queue ∧ c'.capacity = c.capacity ∧ c'.closed = c.closed := by
  rw [tryRecv] at h
  split at h <;> cases h
  rename_i y queue fits hqueue hfits
  exact ⟨hqueue, rfl, rfl⟩

end Chan

end HstongApi
