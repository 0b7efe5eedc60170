import HstongApi.Stream
import Mathlib.Data.List.Count

/-!
# The registry of a stream client

The mutex of the client guards the subscriptions that are registered and the number `tradeSubs` of
those for orders. `Registry` says that the number is right. Each section of the client keeps it
(`Follows.registry`), and the actions without a lock do not concern it (`Acts.registry`).
-/

namespace HstongApi.Stream

open Threads

/-! ## The registry -/

/-- The subscriptions for orders that are registered. -/
def Shared.tradeRegistered (s : Shared) : List ℕ := s.subs.filter fun i => (s.sub i).trade

/-- What the mutex of the client guards. -/
structure Registry (s : Shared) : Prop where
  nodup : s.subs.Nodup
  made : ∀ i ∈ s.subs, i < s.count
  counted : s.tradeSubs = s.tradeRegistered.length
  emptied : s.closed = true → s.subs = []

@[simp] theorem Shared.setSub_self (s : Shared) (i : ℕ) (sub : Sub) (panics : Bool) :
    (s.setSub i sub panics).sub i = sub :=
  Function.update_self ..

variable {i : ℕ} {s : Shared}

theorem Shared.setSub_of_ne (s : Shared) {j : ℕ} (h : j ≠ i) (sub : Sub) (panics : Bool) :
    (s.setSub i sub panics).sub j = s.sub j :=
  Function.update_of_ne h ..

/-- What is the same for the subscription that is changed is the same for all. -/
theorem Shared.setSub_congr {β : Type} (f : Sub → β) {sub : Sub} {panics : Bool}
    (h : f sub = f (s.sub i)) (j : ℕ) : f ((s.setSub i sub panics).sub j) = f (s.sub j) := by
  by_cases hj : j = i
  · rw [hj, setSub_self, h]
  · rw [setSub_of_ne s hj]

/-- The registry does not depend on the channels. -/
theorem Registry.congr {s' : Shared} (h : Registry s) (hsubs : s'.subs = s.subs)
    (htradeSubs : s'.tradeSubs = s.tradeSubs) (hcount : s'.count = s.count)
    (hclosed : s'.closed = s.closed) (htrade : ∀ i, (s'.sub i).trade = (s.sub i).trade) :
    Registry s' where
  nodup := hsubs ▸ h.nodup
  made := by rw [hsubs, hcount]; exact h.made
  counted := by
    rw [htradeSubs, h.counted, Shared.tradeRegistered, Shared.tradeRegistered, hsubs]
    simp only [htrade]
  emptied := by rw [hclosed, hsubs]; exact h.emptied

/-- A subscription is changed, but not what it is for. -/
theorem Registry.setSub (h : Registry s) {sub : Sub} {panics : Bool}
    (htrade : sub.trade = (s.sub i).trade) : Registry (s.setSub i sub panics) :=
  h.congr rfl rfl rfl rfl (Shared.setSub_congr Sub.trade htrade)

/-- What was registered before is the same after another one was. -/
theorem Registry.filter_add (h : Registry s) (sub : Sub) :
    (s.subs.filter fun i => ((s.add sub).sub i).trade) = s.tradeRegistered := by
  refine List.filter_congr fun i hi => ?_
  rw [show (s.add sub).sub i = s.sub i from Function.update_of_ne (h.made i hi).ne _ _]

theorem Registry.tradeRegistered_add (h : Registry s) (sub : Sub) :
    (s.add sub).tradeRegistered =
      if sub.trade then s.count :: s.tradeRegistered else s.tradeRegistered := by
  have hself : (s.add sub).sub s.count = sub := Function.update_self ..
  rw [Shared.tradeRegistered, show (s.add sub).subs = s.count :: s.subs from rfl,
    List.filter_cons, hself, h.filter_add sub]

/-- A subscription is registered while the client is not closed. -/
theorem Registry.add (h : Registry s) (hclosed : s.closed = false) {sub : Sub} {n : ℤ}
    (hn : n = s.tradeSubs + if sub.trade then 1 else 0) :
    Registry { s.add sub with tradeSubs := n } where
  nodup := List.nodup_cons.mpr ⟨fun hmem => (h.made _ hmem).false, h.nodup⟩
  made i hi := by
    rcases List.mem_cons.mp hi with rfl | hi
    · exact Nat.lt_succ_self _
    · exact Nat.lt_succ_of_lt (h.made i hi)
  counted := by
    have hlength := congrArg List.length (h.tradeRegistered_add sub)
    show n = ((s.add sub).tradeRegistered.length : ℤ)
    rw [hn, hlength, h.counted]
    split <;> simp
  emptied hclosed' := nomatch hclosed.symm.trans hclosed'

/-- The number of subscriptions for orders when one is deleted. -/
theorem Registry.length_delete (h : Registry s) (hi : i ∈ s.subs) :
    ((s.delete i).tradeRegistered.length : ℤ) =
      s.tradeSubs - if (s.sub i).trade then 1 else 0 := by
  have hdelete : (s.delete i).tradeRegistered =
      (s.subs.erase i).filter fun j => (s.sub j).trade := by
    rw [h.nodup.erase_eq_filter]
    rfl
  have hpos : (s.sub i).trade = true → 0 < s.tradeRegistered.length := fun htrade =>
    List.length_pos_of_mem (List.mem_filter.mpr ⟨hi, htrade⟩)
  rw [hdelete, ← List.countP_eq_length_filter, List.countP_erase, List.countP_eq_length_filter,
    h.counted]
  change ((s.tradeRegistered.length - _ : ℕ) : ℤ) = _
  cases htrade : (s.sub i).trade with
  | false => simp
  | true =>
    have := hpos htrade
    simp only [hi, and_self, if_true]
    omega

theorem Registry.delete (h : Registry s) {n : ℤ} (hn : n = (s.delete i).tradeRegistered.length) :
    Registry { s.delete i with tradeSubs := n } where
  nodup := h.nodup.filter _
  made j hj := h.made j (List.mem_of_mem_filter hj)
  counted := hn
  emptied hclosed := by
    show s.subs.filter (· != i) = []
    rw [h.emptied hclosed]
    rfl

/-- The sections keep the registry exact. -/
theorem Follows.registry {s' : Shared} {c : Section} {x : Next} (h : Follows s c (s', x))
    (hs : Registry s) : Registry s' := by
  cases h with
  | connect | started => exact hs.congr rfl rfl rfl rfl fun _ => rfl
  | register hclosed => exact hs.add hclosed (Int.add_zero _).symm
  | registerTrade hclosed => exact hs.add hclosed rfl
  | @cancelLast i hi htrade hlast =>
    have hlength := hs.length_delete hi
    rw [htrade, if_pos rfl] at hlength
    exact hs.delete (by omega)
  | @cancelTrade i hi htrade hmore =>
    have hlength := hs.length_delete hi
    rw [htrade, if_pos rfl] at hlength
    exact hs.delete hlength.symm
  | @cancel i hi htrade =>
    have hlength := hs.length_delete hi
    rw [htrade, if_neg Bool.false_ne_true, Int.sub_zero] at hlength
    exact hs.delete hlength.symm
  | shutdown => exact ⟨List.nodup_nil, nofun, rfl, fun _ => rfl⟩
  | sendUpdate | sendErr | close => exact hs.setSub rfl
  | _ => exact hs

/-- The actions without a lock do not change it. -/
theorem Acts.registry {s' : Shared} {r : Input} {k : Work} {x : Next} (h : Acts s r k (s', x))
    (hs : Registry s) : Registry s' := by
  cases h with
  | close | closed => exact hs.setSub rfl
  | _ => exact hs.congr rfl rfl rfl rfl fun _ => rfl

end HstongApi.Stream
