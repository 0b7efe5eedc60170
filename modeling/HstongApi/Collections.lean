import Mathlib.Data.List.AList
import Mathlib.Data.List.Nodup
import Mathlib.Data.List.ReduceOption
import Mathlib.Data.Set.Insert

/-!
# Distinct lists, buckets and heaps

Three small data structures over arbitrary types.

* `distinct` keeps the first occurrence of every element, as a loop with a `seen` set
  does.
* `Buckets κ β` is a finite map from keys to lists, as a hash index is: a bucket is
  created by the first `add` and deleted by the `remove` that empties it, and a
  missing bucket reads as the empty list. All later reasoning goes through `get`;
  `get_addAll` and `get_removeAll` say what indexing one value under a whole list of
  distinct keys does to a bucket, and `Indexes` says what such an index is for: to
  find the members of a set by their keys.
* `Heap α` holds the objects that are shared by pointers. A pointer is the number of
  the object, in the order of allocation, so pointers are equal when they point to
  one object.
-/

namespace HstongApi

universe u v

/-! ## Distinct elements -/

section

variable {α : Type u} [DecidableEq α]

/-- One turn of the loop: an element that was seen before is skipped. -/
def addDistinct (out : List α) (x : α) : List α := if x ∈ out then out else out ++ [x]

/-- The elements of a list without repetitions, in the order of their first
occurrences. -/
def distinct (xs : List α) : List α := xs.foldl addDistinct []

theorem mem_addDistinct {out : List α} {x y : α} :
    y ∈ addDistinct out x ↔ y ∈ out ∨ y = x := by
  rw [addDistinct]
  split
  · exact ⟨.inl, fun h => h.elim id fun heq => heq ▸ ‹_›⟩
  · simp

theorem nodup_addDistinct {out : List α} (h : out.Nodup) (x : α) : (addDistinct out x).Nodup := by
  rw [addDistinct]
  split
  · exact h
  · rename_i hx
    refine List.nodup_append.mpr ⟨h, List.nodup_singleton x, ?_⟩
    rintro a ha b hb rfl
    exact hx (List.mem_singleton.mp hb ▸ ha)

theorem foldl_addDistinct (xs out : List α) :
    (∀ y, y ∈ xs.foldl addDistinct out ↔ y ∈ out ∨ y ∈ xs) ∧
      (out.Nodup → (xs.foldl addDistinct out).Nodup) := by
  induction xs generalizing out with
  | nil => simp
  | cons x xs ih =>
    obtain ⟨hmem, hnodup⟩ := ih (addDistinct out x)
    refine ⟨fun y => ?_, fun h => hnodup (nodup_addDistinct h x)⟩
    rw [List.foldl_cons, hmem, mem_addDistinct, List.mem_cons, or_assoc]

@[simp] theorem mem_distinct {xs : List α} {y : α} : y ∈ distinct xs ↔ y ∈ xs := by
  rw [distinct, (foldl_addDistinct xs []).1]
  simp

theorem nodup_distinct (xs : List α) : (distinct xs).Nodup :=
  (foldl_addDistinct xs []).2 List.nodup_nil

end

theorem reduceOption_map_some {α : Type u} (l : List α) : (l.map some).reduceOption = l := by
  simp [List.reduceOption]

/-! ## Finite maps -/

section

variable {κ : Type u} {β : Type v} [DecidableEq κ]

variable {m : AList fun _ : κ => β}

theorem lookup_insert_eq_some {k k' : κ} {b b' : β} :
    (m.insert k b).lookup k' = some b' ↔ (k' = k ∧ b' = b) ∨ (k' ≠ k ∧ m.lookup k' = some b') := by
  by_cases hk : k' = k
  · subst hk
    simp [AList.lookup_insert, eq_comm]
  · simp [AList.lookup_insert_ne hk, hk]

theorem lookup_erase_eq_some {k k' : κ} {b : β} :
    (m.erase k).lookup k' = some b ↔ k' ≠ k ∧ m.lookup k' = some b := by
  by_cases hk : k' = k
  · subst hk
    simp [AList.lookup_erase]
  · simp [AList.lookup_erase_ne hk, hk]

theorem lookup_erase_eq_none {k k' : κ} (h : m.lookup k' = none) :
    (m.erase k).lookup k' = none := by
  refine Option.eq_none_iff_forall_ne_some.mpr fun b hb => ?_
  rw [(lookup_erase_eq_some.mp hb).2] at h
  cases h

end

/-! ## Buckets -/

/-- A finite map from keys to lists. -/
abbrev Buckets (κ : Type u) (β : Type v) : Type (max u v) := AList fun _ : κ => List β

namespace Buckets

variable {κ : Type u} {β : Type v} [DecidableEq κ] [DecidableEq β]

/-- The bucket under a key; a missing one is empty. -/
def get (m : Buckets κ β) (k : κ) : List β := (m.lookup k).getD []

omit [DecidableEq β] in
/-- Append a value to the bucket under a key. -/
def add (m : Buckets κ β) (k : κ) (b : β) : Buckets κ β := m.insert k (m.get k ++ [b])

/-- Drop the first occurrence of a value from the bucket under a key, and the
bucket when nothing is left. -/
def remove (m : Buckets κ β) (k : κ) (b : β) : Buckets κ β :=
  if (m.get k).erase b = [] then AList.erase k m else m.insert k ((m.get k).erase b)

/-- Append a value to the bucket under each of the keys. -/
def addAll (m : Buckets κ β) (ks : List κ) (b : β) : Buckets κ β := ks.foldl (fun m k => m.add k b) m

/-- Drop a value from the bucket under each of the keys. -/
def removeAll (m : Buckets κ β) (ks : List κ) (b : β) : Buckets κ β :=
  ks.foldl (fun m k => m.remove k b) m

omit [DecidableEq β] in
@[simp] theorem get_empty (k : κ) : get (∅ : Buckets κ β) k = [] := by
  rw [get, AList.lookup_empty, Option.getD_none]

omit [DecidableEq β] in
theorem get_insert (m : Buckets κ β) (k k' : κ) (l : List β) :
    get (m.insert k l) k' = if k' = k then l else m.get k' := by
  split
  · subst k'
    rw [get, AList.lookup_insert, Option.getD_some]
  · rename_i hne
    rw [get, AList.lookup_insert_ne hne, get]

omit [DecidableEq β] in
theorem get_add (m : Buckets κ β) (k k' : κ) (b : β) :
    (m.add k b).get k' = if k' = k then m.get k ++ [b] else m.get k' :=
  get_insert m k k' _

theorem get_remove (m : Buckets κ β) (k k' : κ) (b : β) :
    (m.remove k b).get k' = if k' = k then (m.get k).erase b else m.get k' := by
  rw [remove]
  split
  · rename_i hnil
    split
    · subst k'
      rw [get, AList.lookup_erase, Option.getD_none, hnil]
    · rename_i hne
      rw [get, AList.lookup_erase_ne hne, get]
  · exact get_insert m k k' _

omit [DecidableEq β] in
/-- What is done to one bucket is done once to the bucket of each of distinct keys. -/
theorem get_foldl {f : Buckets κ β → κ → Buckets κ β} {g : List β → List β}
    (hf : ∀ m a k, (f m a).get k = if k = a then g (m.get a) else m.get k) (m : Buckets κ β)
    {ks : List κ} (h : ks.Nodup) (k : κ) :
    (ks.foldl f m).get k = if k ∈ ks then g (m.get k) else m.get k := by
  induction ks generalizing m with
  | nil => simp
  | cons a ks ih =>
    obtain ⟨ha, hks⟩ := List.nodup_cons.mp h
    rw [List.foldl_cons, ih _ hks, hf]
    by_cases hk : k = a
    · subst hk
      simp [ha]
    · simp [hk]

omit [DecidableEq β] in
/-- Indexing a value under distinct keys appends it once to each of their buckets. -/
theorem get_addAll (m : Buckets κ β) {ks : List κ} (h : ks.Nodup) (b : β) (k : κ) :
    (m.addAll ks b).get k = if k ∈ ks then m.get k ++ [b] else m.get k :=
  get_foldl (f := fun m a => m.add a b) (g := (· ++ [b])) (fun m a k => get_add m a k b) m h k

/-- Dropping a value under distinct keys erases it once from each of their
buckets. -/
theorem get_removeAll (m : Buckets κ β) {ks : List κ} (h : ks.Nodup) (b : β) (k : κ) :
    (m.removeAll ks b).get k = if k ∈ ks then (m.get k).erase b else m.get k :=
  get_foldl (f := fun m a => m.remove a b) (g := (·.erase b)) (fun m a k => get_remove m a k b) m h k

/-- The buckets index a set of values by the keys of each value: a value stands once in
every bucket of its keys, and nowhere else. -/
structure Indexes (m : Buckets κ β) (keys : β → List κ) (live : Set β) : Prop where
  nodup : ∀ k, (m.get k).Nodup
  mem_get : ∀ k b, b ∈ m.get k ↔ b ∈ live ∧ k ∈ keys b

omit [DecidableEq β] in
theorem Indexes.empty (keys : β → List κ) : Indexes (∅ : Buckets κ β) keys ∅ :=
  ⟨fun k => by rw [get_empty]; exact List.nodup_nil, fun k b => by simp⟩

variable {m : Buckets κ β} {keys : β → List κ} {live : Set β}

omit [DecidableEq β] in
/-- Only the keys of the members matter. -/
theorem Indexes.congr {keys' : β → List κ} (h : m.Indexes keys live)
    (hkeys : ∀ b ∈ live, ∀ k, k ∈ keys' b ↔ k ∈ keys b) : m.Indexes keys' live :=
  ⟨h.nodup, fun k b => (h.mem_get k b).trans (and_congr_right fun hb => (hkeys b hb k).symm)⟩

omit [DecidableEq β] in
/-- Indexing a new value under its keys. -/
theorem Indexes.addAll (h : m.Indexes keys live) {b : β} (hb : b ∉ live) {ks : List κ}
    (hks : ks.Nodup) (hkeys : ∀ k, k ∈ ks ↔ k ∈ keys b) :
    (m.addAll ks b).Indexes keys (insert b live) := by
  constructor
  · intro k
    rw [get_addAll m hks]
    split
    · refine List.nodup_append.mpr ⟨h.nodup k, List.nodup_singleton b, ?_⟩
      rintro c hc d hd rfl
      exact hb (List.mem_singleton.mp hd ▸ ((h.mem_get k c).mp hc).1)
    · exact h.nodup k
  · intro k c
    rw [get_addAll m hks, Set.mem_insert_iff]
    by_cases hcb : c = b
    · subst hcb
      have hout : c ∉ m.get k := fun hc => hb ((h.mem_get k c).mp hc).1
      by_cases hk : k ∈ ks
      · simp [hk, (hkeys k).mp hk]
      · have hk' : k ∉ keys c := fun hc => hk ((hkeys k).mpr hc)
        simp [hk, hout, hk']
    · have hmem : c ∈ (if k ∈ ks then m.get k ++ [b] else m.get k) ↔ c ∈ m.get k := by
        split
        · simp [hcb]
        · rfl
      rw [hmem, h.mem_get]
      simp [hcb]

/-- Dropping a value from the buckets of its keys. -/
theorem Indexes.removeAll (h : m.Indexes keys live) (b : β) {ks : List κ} (hks : ks.Nodup)
    (hkeys : b ∈ live → ∀ k, k ∈ ks ↔ k ∈ keys b) :
    (m.removeAll ks b).Indexes keys (live \ {b}) := by
  constructor
  · intro k
    rw [get_removeAll m hks]
    split
    · exact (h.nodup k).erase b
    · exact h.nodup k
  · intro k c
    rw [get_removeAll m hks, Set.mem_sdiff, Set.mem_singleton_iff]
    by_cases hcb : c = b
    · subst hcb
      have hout : c ∉ (if k ∈ ks then (m.get k).erase c else m.get k) := by
        split
        · exact (h.nodup k).not_mem_erase
        · rename_i hk
          intro hc
          obtain ⟨hlive, hck⟩ := (h.mem_get k c).mp hc
          exact hk ((hkeys hlive k).mpr hck)
      simp [hout]
    · have hmem : c ∈ (if k ∈ ks then (m.get k).erase b else m.get k) ↔ c ∈ m.get k := by
        split
        · exact List.mem_erase_of_ne hcb
        · rfl
      rw [hmem, h.mem_get]
      simp [hcb]

/-- Dropping several values, each from the buckets of its keys. -/
theorem Indexes.removeEach (h : m.Indexes keys live) (hnodup : ∀ b, (keys b).Nodup) (bs : List β) :
    (bs.foldl (fun m b => m.removeAll (keys b) b) m).Indexes keys (live \ {b | b ∈ bs}) := by
  induction bs generalizing m live with
  | nil =>
    have hset : live \ {b | b ∈ ([] : List β)} = live := by
      ext b
      simp
    rwa [hset]
  | cons b bs ih =>
    have hstep := ih (h.removeAll b (hnodup b) fun _ k => Iff.rfl)
    have hset : (live \ {b}) \ {c | c ∈ bs} = live \ {c | c ∈ b :: bs} := by
      ext c
      simp [and_assoc]
    rwa [hset] at hstep

end Buckets

/-! ## Heaps -/

/-- Objects of one type, with the number of those allocated. -/
structure Heap (α : Type u) where
  size : ℕ
  get : ℕ → α

variable {ps : List ℕ}

namespace Heap

variable {α : Type u}

instance [Inhabited α] : EmptyCollection (Heap α) := ⟨⟨0, fun _ => default⟩⟩

/-- Allocate an object; its pointer is the size of the heap before. -/
def alloc (h : Heap α) (a : α) : Heap α := ⟨h.size + 1, Function.update h.get h.size a⟩

/-- Change the object at a pointer. -/
def modify (h : Heap α) (p : ℕ) (f : α → α) : Heap α := ⟨h.size, Function.update h.get p (f (h.get p))⟩

/-- Change the objects at several pointers, one after another. -/
def modifyAll (h : Heap α) (ps : List ℕ) (f : α → α) : Heap α := ps.foldl (fun h p => h.modify p f) h

@[simp] theorem size_alloc (h : Heap α) (a : α) : (h.alloc a).size = h.size + 1 := rfl

theorem get_alloc (h : Heap α) (a : α) (p : ℕ) :
    (h.alloc a).get p = if p = h.size then a else h.get p := Function.update_apply ..

theorem get_modify (h : Heap α) (p q : ℕ) (f : α → α) :
    (h.modify p f).get q = if q = p then f (h.get p) else h.get q := Function.update_apply ..

/-- What holds between an object and its change holds between the objects before and afterwards, if
it holds between an object and itself. -/
theorem rel_modify {R : α → α → Prop} (hrefl : ∀ a, R a a) {f : α → α} (hf : ∀ a, R a (f a))
    (h : Heap α) (p q : ℕ) : R (h.get q) ((h.modify p f).get q) := by
  rw [get_modify]
  split
  · rename_i hq
    rw [hq]
    exact hf _
  · exact hrefl _

/-- An allocation leaves the objects that exist as they are. -/
theorem get_alloc_of_lt (h : Heap α) (a : α) {p : ℕ} (hp : p < h.size) :
    (h.alloc a).get p = h.get p := by
  rw [get_alloc, if_neg (Nat.ne_of_lt hp)]

@[simp] theorem size_modifyAll (h : Heap α) (ps : List ℕ) (f : α → α) :
    (h.modifyAll ps f).size = h.size := by
  induction ps generalizing h with
  | nil => rfl
  | cons p ps ih => exact ih (h.modify p f)

/-- What a change keeps in each object, many changes keep. -/
theorem get_modifyAll_eq {β : Type v} {f : α → α} {g : α → β} (hf : ∀ a, g (f a) = g a)
    (h : Heap α) (ps : List ℕ) (q : ℕ) : g ((h.modifyAll ps f).get q) = g (h.get q) := by
  induction ps generalizing h with
  | nil => rfl
  | cons p ps ih =>
    refine (ih (h.modify p f)).trans ?_
    exact rel_modify (R := fun a b => g b = g a) (fun _ => rfl) hf h p q

/-- Objects at other pointers do not change. -/
theorem get_modifyAll_of_notMem (h : Heap α) (f : α → α) {q : ℕ} (hq : q ∉ ps) :
    (h.modifyAll ps f).get q = h.get q := by
  induction ps generalizing h with
  | nil => rfl
  | cons p ps ih =>
    refine (ih (h.modify p f) fun hmem => hq (List.mem_cons_of_mem _ hmem)).trans ?_
    have hne : q ≠ p := fun heq => hq (heq ▸ List.mem_cons_self)
    rw [get_modify, if_neg hne]

/-- Each object at one of the pointers changes once when the pointers are distinct. -/
theorem get_modifyAll_of_nodup (h : Heap α) (hps : ps.Nodup) (f : α → α) {q : ℕ} (hq : q ∈ ps) :
    (h.modifyAll ps f).get q = f (h.get q) := by
  induction ps generalizing h with
  | nil => cases hq
  | cons p ps ih =>
    obtain ⟨hp, hps⟩ := List.nodup_cons.mp hps
    rcases List.mem_cons.mp hq with rfl | hq
    · refine (get_modifyAll_of_notMem (h.modify q f) f hp).trans ?_
      rw [get_modify, if_pos rfl]
    · refine (ih (h.modify p f) hps hq).trans ?_
      have hne : q ≠ p := fun heq => hp (heq ▸ hq)
      rw [get_modify, if_neg hne]

/-- Each object at one of the pointers changes, once or several times, when the change
is idempotent. -/
theorem get_modifyAll_of_idem (h : Heap α) {f : α → α} (hf : ∀ a, f (f a) = f a) {q : ℕ}
    (hq : q ∈ ps) : (h.modifyAll ps f).get q = f (h.get q) := by
  induction ps generalizing h with
  | nil => cases hq
  | cons p ps ih =>
    by_cases hin : q ∈ ps
    · refine (ih (h.modify p f) hin).trans ?_
      rw [get_modify]
      split
      · rename_i hqp
        rw [hf, hqp]
      · rfl
    · refine (get_modifyAll_of_notMem (h.modify p f) f hin).trans ?_
      obtain rfl := (List.mem_cons.mp hq).resolve_right hin
      rw [get_modify, if_pos rfl]

end Heap

end HstongApi
