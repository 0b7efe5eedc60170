import HstongApi.Bytes

/-!
# Records at fixed offsets

A record is written into a buffer field by field, each at its offset. When the fields are
adjacent, each one begins where the one before ends (`Adjacent`), the buffer holds their
concatenation (`write_adjacent`), each field is found at its offset again (`slice_adjacent`),
and the fields that are found in a buffer are a part of the buffer (`flatten_of_slices`).
-/

namespace HstongApi.Layout

/-- Copies a text into a buffer from an offset on. -/
def copyAt (b : Bytes) (off : ℕ) (src : Bytes) : Bytes :=
  b.take off ++ src ++ b.drop (off + src.length)

/-- A part of a buffer. -/
def sliceAt (b : Bytes) (off n : ℕ) : Bytes := (b.drop off).take n

/-- Copies fields into a buffer, one after the other. -/
def write (b : Bytes) (fields : List (ℕ × Bytes)) : Bytes :=
  fields.foldl (fun b f => copyAt b f.1 f.2) b

/-- The fields without their offsets. -/
def flatten (fields : List (ℕ × Bytes)) : Bytes := fields.flatMap (·.2)

/-- Each field begins where the one before ends. -/
def Adjacent : ℕ → List (ℕ × Bytes) → Prop
  | _, [] => True
  | off, f :: fields => f.1 = off ∧ Adjacent (off + f.2.length) fields

variable {off : ℕ}

theorem length_sliceAt {b : Bytes} {n : ℕ} (h : off + n ≤ b.length) :
    (sliceAt b off n).length = n := by
  rw [sliceAt, List.length_take, List.length_drop]
  omega

variable {x : Bytes}

theorem sliceAt_append {y rest : Bytes} {n : ℕ} (hx : x.length = off) (hy : y.length = n) :
    sliceAt (x ++ (y ++ rest)) off n = y := by
  rw [sliceAt, List.drop_left' hx, List.take_left' hy]

theorem sliceAt_one {b : Bytes} (h : off < b.length) : sliceAt b off 1 = [b.getD off 0] := by
  rw [sliceAt, List.drop_eq_getElem_cons h, List.getD_eq_getElem?_getD, List.getElem?_eq_getElem h]
  rfl

theorem copyAt_append {y src : Bytes} (h : x.length = off) :
    copyAt (x ++ y) off src = x ++ src ++ y.drop src.length := by
  rw [copyAt, List.take_left' h, ← List.drop_drop, List.drop_left' h]

theorem flatten_cons (f : ℕ × Bytes) (fields : List (ℕ × Bytes)) :
    flatten (f :: fields) = f.2 ++ flatten fields := List.flatMap_cons

variable {fields : List (ℕ × Bytes)}

/-- Adjacent fields are written one behind the other. -/
theorem write_adjacent (h : Adjacent off fields) (hx : x.length = off) (y : Bytes) :
    write (x ++ y) fields = x ++ flatten fields ++ y.drop (flatten fields).length := by
  induction fields generalizing off x y with
  | nil => exact congrArg (· ++ y) (List.append_nil x).symm
  | cons f fields ih =>
    obtain ⟨hoff, hrest⟩ := h
    have hx' : (x ++ f.2).length = off + f.2.length := by rw [List.length_append, hx]
    have hcopy : copyAt (x ++ y) f.1 f.2 = x ++ f.2 ++ y.drop f.2.length :=
      copyAt_append (hx.trans hoff.symm)
    calc write (x ++ y) (f :: fields)
        = write (x ++ f.2 ++ y.drop f.2.length) fields := congrArg (write · fields) hcopy
      _ = x ++ f.2 ++ flatten fields ++ (y.drop f.2.length).drop (flatten fields).length :=
          ih hrest hx' _
      _ = x ++ flatten (f :: fields) ++ y.drop (flatten (f :: fields)).length := by
          rw [flatten_cons, List.length_append, List.drop_drop, List.append_assoc x]

/-- Each of some adjacent fields is found at its offset. -/
theorem slice_adjacent (h : Adjacent off fields) (hx : x.length = off) (rest : Bytes)
    {f : ℕ × Bytes} (hf : f ∈ fields) :
    sliceAt (x ++ (flatten fields ++ rest)) f.1 f.2.length = f.2 := by
  induction fields generalizing off x with
  | nil => cases hf
  | cons g fields ih =>
    obtain ⟨hoff, hrest⟩ := h
    rw [flatten_cons, List.append_assoc]
    rcases List.mem_cons.mp hf with rfl | hmem
    · exact sliceAt_append (hx.trans hoff.symm) rfl
    · have hx' : (x ++ g.2).length = off + g.2.length := by rw [List.length_append, hx]
      rw [← List.append_assoc]
      exact ih hrest hx' hmem

/-- Adjacent fields that are parts of a buffer make one part of it. -/
theorem flatten_of_slices (h : Adjacent off fields) {b : Bytes}
    (hslices : ∀ f ∈ fields, f.2 = sliceAt b f.1 f.2.length) :
    flatten fields = sliceAt b off (flatten fields).length := by
  induction fields generalizing off with
  | nil => rfl
  | cons f fields ih =>
    obtain ⟨hoff, hrest⟩ := h
    have hfirst : f.2 = sliceAt b off f.2.length := hoff ▸ hslices f List.mem_cons_self
    have htail := ih hrest fun g hg => hslices g (List.mem_cons_of_mem f hg)
    rw [flatten_cons, List.length_append, sliceAt, List.take_add, List.drop_drop]
    exact congrArg₂ (· ++ ·) hfirst htail

end HstongApi.Layout
