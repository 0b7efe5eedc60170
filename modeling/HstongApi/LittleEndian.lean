import HstongApi.Bytes

/-!
# Little-endian words

A word of `w` bytes is a bit vector of `8 * w` bits. `toBytes` writes it with the least
significant byte first and `ofBytes` reads it back. The two are inverse to each other: every
word is read back (`ofBytes_toBytes`), and every text of `w` bytes is what is written for the
word read from it (`toBytes_ofBytes`).
-/

namespace HstongApi.LittleEndian

/-- The lowest `w` bytes of a number. -/
def digits : ℕ → ℕ → Bytes
  | 0, _ => []
  | w + 1, n => UInt8.ofNat n :: digits w (n / 256)

/-- The number with the given bytes. -/
def value : Bytes → ℕ
  | [] => 0
  | b :: t => b.toNat + 256 * value t

@[simp] theorem length_digits (w n : ℕ) : (digits w n).length = w := by
  induction w generalizing n with
  | zero => rfl
  | succ w ih => rw [digits, List.length_cons, ih]

theorem value_lt (t : Bytes) : value t < 2 ^ (8 * t.length) := by
  induction t with
  | nil => exact Nat.one_pos
  | cons b t ih =>
    have hb : b.toNat < 256 := b.toNat_lt
    rw [value, List.length_cons, Nat.mul_succ, Nat.pow_add]
    omega

theorem value_digits {w n : ℕ} (h : n < 2 ^ (8 * w)) : value (digits w n) = n := by
  induction w generalizing n with
  | zero => exact (Nat.lt_one_iff.mp h).symm
  | succ w ih =>
    have hdiv : n / 256 < 2 ^ (8 * w) := by
      rw [Nat.mul_succ, Nat.pow_add] at h
      omega
    rw [digits, value, ih hdiv, UInt8.toNat_ofNat']
    exact Nat.mod_add_div n 256

theorem digits_value (t : Bytes) : digits t.length (value t) = t := by
  induction t with
  | nil => rfl
  | cons b t ih =>
    have hb : b.toNat < 256 := b.toNat_lt
    have hlow : UInt8.ofNat (b.toNat + 256 * value t) = b := by
      refine UInt8.toNat_inj.mp ?_
      rw [UInt8.toNat_ofNat']
      omega
    have hhigh : (b.toNat + 256 * value t) / 256 = value t := by omega
    rw [value, List.length_cons, digits, hlow, hhigh, ih]

/-- A word as bytes. -/
def toBytes {w : ℕ} (x : BitVec (8 * w)) : Bytes := digits w x.toNat

/-- The word with the given bytes. -/
def ofBytes (w : ℕ) (t : Bytes) : BitVec (8 * w) := BitVec.ofNat (8 * w) (value t)

@[simp] theorem length_toBytes {w : ℕ} (x : BitVec (8 * w)) : (toBytes x).length = w :=
  length_digits w x.toNat

theorem ofBytes_toBytes {w : ℕ} (x : BitVec (8 * w)) : ofBytes w (toBytes x) = x := by
  rw [ofBytes, toBytes, value_digits x.isLt, BitVec.ofNat_toNat, BitVec.setWidth_eq]

theorem toBytes_ofBytes {w : ℕ} {t : Bytes} (h : t.length = w) : toBytes (ofBytes w t) = t := by
  subst h
  rw [toBytes, ofBytes, BitVec.toNat_ofNat, Nat.mod_eq_of_lt (value_lt t), digits_value]

end HstongApi.LittleEndian
