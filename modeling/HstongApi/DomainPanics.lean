import HstongApi.Bytes

/-!
# Panics

Code of the domain package that is given a text it cannot use panics, and so does code that cuts a
text which is too short or follows a nil pointer. A computation that may panic is in `Except Panic`.

`Returns` says that a computation comes to its end without a panic (or, for another type of errors,
without an error). The lemmas below take it apart along the computation: a sequence of two parts, a
last part that cannot fail, and the loops over a list.
-/

namespace HstongApi

/-- A run-time panic of the modelled code, with the text that caused it, if it was a text. -/
inductive Panic
  /-- `domain: Price: invalid decimal string` -/
  | price (value : Bytes)
  /-- `domain: Price: invalid tick string` -/
  | tick (value : Bytes)
  /-- `domain: Quantity: invalid decimal string` -/
  | quantity (value : Bytes)
  /-- `domain: Money: invalid decimal string` -/
  | money (value : Bytes)
  /-- `domain: Rate: invalid decimal string` -/
  | rate (value : Bytes)
  /-- `domain: Tick: invalid decimal string` -/
  | tickSize (value : Bytes)
  /-- a nil pointer is dereferenced -/
  | nilDereference
  /-- slice bounds out of range -/
  | sliceBounds
  /-- an operation of the decimal package panics -/
  | decimal
  deriving DecidableEq

/-! ## Coming to a result -/

/-- The code comes to a result. -/
def Returns {ε α : Type} (x : Except ε α) : Prop := ∃ a, x = .ok a

section

variable {ε α β : Type}

@[simp] theorem returns_pure (a : α) : Returns (pure a : Except ε α) := ⟨a, rfl⟩

theorem not_returns_error (e : ε) : ¬ Returns (.error e : Except ε α) := fun ⟨_, h⟩ => nomatch h

theorem returns_bind {x : Except ε α} {f : α → Except ε β} :
    Returns (x >>= f) ↔ ∃ a, x = .ok a ∧ Returns (f a) := by
  cases x with
  | error e => exact iff_of_false (not_returns_error e) (fun ⟨_, h, _⟩ => nomatch h)
  | ok a => exact ⟨fun h => ⟨a, rfl, h⟩, fun ⟨_, ha, h⟩ => Except.ok.inj ha ▸ h⟩

theorem Returns.bind {x : Except ε α} {f : α → Except ε β} (hx : Returns x)
    (hf : ∀ a, Returns (f a)) : Returns (x >>= f) := by
  obtain ⟨a, ha⟩ := hx
  exact returns_bind.mpr ⟨a, ha, hf a⟩

/-- Two parts of a computation, when the second returns or not whatever the first has found. -/
theorem returns_bind_and {x : Except ε α} {f : α → Except ε β} {p : Prop}
    (h : ∀ a, Returns (f a) ↔ p) : Returns (x >>= f) ↔ Returns x ∧ p := by
  rw [returns_bind]
  constructor
  · rintro ⟨a, ha, hf⟩
    exact ⟨⟨a, ha⟩, (h a).mp hf⟩
  · rintro ⟨⟨a, ha⟩, hp⟩
    exact ⟨a, ha, (h a).mpr hp⟩

/-- The last part of a computation cannot fail. -/
theorem returns_map {x : Except ε α} (f : α → β) :
    Returns (x >>= fun a => pure (f a)) ↔ Returns x := by
  rw [returns_bind_and (p := True) fun a => iff_true_intro (returns_pure (f a)), and_true]

@[inherit_doc returns_map]
theorem returns_fmap {x : Except ε α} (f : α → β) : Returns (f <$> x) ↔ Returns x := by
  rw [map_eq_pure_bind, returns_map]

/-- A loop comes to its end exactly if each of its rounds does. -/
theorem returns_foldlM {f : β → α → Except ε β} {p : α → Prop} (h : ∀ b a, Returns (f b a) ↔ p a)
    (l : List α) (b : β) : Returns (l.foldlM f b) ↔ ∀ a ∈ l, p a := by
  induction l generalizing b with
  | nil => exact iff_of_true (returns_pure b) nofun
  | cons a l ih => rw [List.foldlM_cons, returns_bind_and ih, h, List.forall_mem_cons]

/-- A loop that fills a list comes to its end exactly if it can compute every element. -/
theorem returns_mapM {f : α → Except ε β} (l : List α) :
    Returns (l.mapM f) ↔ ∀ a ∈ l, Returns (f a) := by
  induction l with
  | nil => exact iff_of_true (returns_pure []) nofun
  | cons a l ih =>
    rw [List.mapM_cons, returns_bind_and fun b => (returns_map _).trans ih, List.forall_mem_cons]

/-- The list that such a loop fills, element by element. -/
theorem forall₂_of_mapM {f : α → Except ε β} {l : List α} {r : List β} (h : l.mapM f = .ok r) :
    List.Forall₂ (fun a b => f a = .ok b) l r := by
  induction l generalizing r with
  | nil =>
    obtain rfl : [] = r := Except.ok.inj h
    exact .nil
  | cons a l ih =>
    rw [List.mapM_cons] at h
    obtain ⟨b, hb, hrest⟩ := returns_bind.mp ⟨r, h⟩
    obtain ⟨r', hr', -⟩ := returns_bind.mp hrest
    rw [hb, hr'] at h
    obtain rfl : b :: r' = r := Except.ok.inj h
    exact .cons hb (ih hr')

end

end HstongApi
