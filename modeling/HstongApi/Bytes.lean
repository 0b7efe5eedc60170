import Mathlib.Data.List.Basic
import Mathlib.Data.List.Sort
import Mathlib.Data.List.TakeWhile
import Mathlib.Data.Nat.Digits.Defs

/-!
# Byte strings

A Go string is a sequence of bytes, and every index, slice and `len` of the
modelled code counts bytes, so text is `List UInt8` throughout. This file holds
the string operations of the Go standard library that the models call, under
the names the library gives them.

* `slice` is the slice expression `s[lo:hi]`; it is partial, and `none` is the
  run-time panic *slice bounds out of range*.
* `toLower`, `toUpper` and `trimSpace` are computed on ASCII text. Text that
  holds a byte above `0x7f` is mapped by the Unicode tables of the Go runtime,
  which are the parameter `UnicodeTables`: no result below depends on what they
  say.
* `skip` is the loop `for i < len(s) && p(s[i]) { i++ }`.
-/

namespace HstongApi

/-- A Go string. -/
abbrev Bytes : Type := List UInt8

instance : LawfulBEq Bytes := inferInstance

/-- The bytes of a string literal of the source. -/
def bytes (s : String) : Bytes := s.toUTF8.toList

/-- The slice expression `s[lo:hi]`, which panics unless `lo ≤ hi ≤ len(s)`. -/
def slice (s : Bytes) (lo hi : ℕ) : Option Bytes :=
  if lo ≤ hi ∧ hi ≤ s.length then some ((s.take hi).drop lo) else none

variable {s : Bytes}

theorem slice_eq_some {lo hi : ℕ} (h : lo ≤ hi) (hhi : hi ≤ s.length) :
    slice s lo hi = some ((s.take hi).drop lo) := if_pos ⟨h, hhi⟩

theorem slice_eq_none {lo hi : ℕ} (h : hi < lo) : slice s lo hi = none :=
  if_neg fun hc => absurd hc.1 (Nat.not_le.mpr h)

/-! ## Letter case and white space -/

/-- What the Unicode tables of the Go runtime make of a text that holds a byte
above `0x7f`. -/
class UnicodeTables where
  /-- `strings.Map(unicode.ToLower, s)` -/
  toLower : Bytes → Bytes
  /-- `strings.Map(unicode.ToUpper, s)` -/
  toUpper : Bytes → Bytes
  /-- `strings.TrimFunc(s, unicode.IsSpace)` -/
  trimSpace : Bytes → Bytes

/-- The tables that leave every text as it is: enough for ASCII text, on which
no table is consulted. -/
@[reducible] def asciiTables : UnicodeTables := ⟨id, id, id⟩

/-- `isASCII` -/
def isAscii (s : Bytes) : Bool := s.all (· < 0x80)

/-- The lower case of an ASCII byte. -/
def lowerByte (c : UInt8) : UInt8 := if 65 ≤ c ∧ c ≤ 90 then c + 32 else c

/-- The upper case of an ASCII byte. -/
def upperByte (c : UInt8) : UInt8 := if 97 ≤ c ∧ c ≤ 122 then c - 32 else c

/-- The white space of ASCII: tab, the three line breaks, carriage return, space. -/
def asciiSpace (c : UInt8) : Bool := c == 32 || (9 ≤ c && c ≤ 13)

variable [UnicodeTables]

/-- `strings.ToLower` -/
def toLower (s : Bytes) : Bytes :=
  if isAscii s then s.map lowerByte else UnicodeTables.toLower s

/-- `strings.ToUpper` -/
def toUpper (s : Bytes) : Bytes :=
  if isAscii s then s.map upperByte else UnicodeTables.toUpper s

/-- `strings.TrimSpace` -/
def trimSpace (s : Bytes) : Bytes :=
  if isAscii s then ((s.dropWhile asciiSpace).reverse.dropWhile asciiSpace).reverse
  else UnicodeTables.trimSpace s

theorem toLower_ascii (h : isAscii s = true) : toLower s = s.map lowerByte := by
  rw [toLower, h, if_pos rfl]

omit [UnicodeTables]

variable {c : UInt8}

theorem lowerByte_lt (h : c < 0x80) : lowerByte c < 0x80 := by
  unfold lowerByte
  grind

/-- Lower-casing a second time changes nothing. -/
theorem lowerByte_idem (c : UInt8) : lowerByte (lowerByte c) = lowerByte c := by
  unfold lowerByte
  grind

theorem isAscii_map_lowerByte (h : isAscii s = true) : isAscii (s.map lowerByte) = true := by
  rw [isAscii, List.all_eq_true] at h ⊢
  intro c hc
  obtain ⟨d, hd, rfl⟩ := List.mem_map.mp hc
  exact decide_eq_true (lowerByte_lt (of_decide_eq_true (h d hd)))

/-! ## Suffixes, numbers, joined and sorted lists -/

/-- `strings.TrimSuffix` -/
def trimSuffix (s suffix : Bytes) : Bytes :=
  if suffix.isSuffixOf s then s.take (s.length - suffix.length) else s

/-- The decimal digits of a natural number, most significant first. -/
def natText (n : ℕ) : Bytes :=
  if n = 0 then [48] else ((Nat.digits 10 n).map fun d => UInt8.ofNat (48 + d)).reverse

/-- `strconv.Itoa` and `strconv.FormatInt(n, 10)` -/
def itoa (n : ℤ) : Bytes := if n < 0 then 45 :: natText n.natAbs else natText n.natAbs

/-- `strings.Join` -/
def join (parts : List Bytes) (sep : Bytes) : Bytes := sep.intercalate parts

/-- `sort.Strings`: strings are ordered byte by byte. -/
def sortStrings (parts : List Bytes) : List Bytes := parts.insertionSort (· ≤ ·)

/-- The number that a text of decimal digits denotes. -/
def natOfText (t : Bytes) : ℕ := Nat.ofDigits 10 (t.reverse.map fun c => c.toNat - 48)

/-- The value of a hexadecimal digit. -/
def hexValue (c : UInt8) : Option ℕ :=
  if 48 ≤ c ∧ c ≤ 57 then some (c.toNat - 48)
  else if 65 ≤ c ∧ c ≤ 70 then some (c.toNat - 55)
  else if 97 ≤ c ∧ c ≤ 102 then some (c.toNat - 87)
  else none

theorem natOfText_natText (n : ℕ) : natOfText (natText n) = n := by
  rw [natText]
  split
  · rename_i hzero
    rw [hzero]
    rfl
  · rw [natOfText, List.reverse_reverse, List.map_map]
    refine Eq.trans (congrArg _ ?_) (Nat.ofDigits_digits 10 n)
    refine (List.map_congr_left fun d hd => ?_).trans (List.map_id _)
    have hlt := Nat.digits_lt_base (by decide) hd
    rw [Function.comp_apply, UInt8.toNat_ofNat', Nat.mod_eq_of_lt (by omega)]
    exact Nat.add_sub_cancel_left 48 d

theorem natText_ne_nil (n : ℕ) : natText n ≠ [] := by
  rw [natText]
  split
  · exact List.cons_ne_nil _ _
  · rename_i hne
    rwa [Ne, List.reverse_eq_nil_iff, List.map_eq_nil_iff, Nat.digits_eq_nil_iff_eq_zero]

theorem mem_natText {n : ℕ} (h : c ∈ natText n) : 48 ≤ c ∧ c ≤ 57 := by
  rw [natText] at h
  split at h
  · rw [List.mem_singleton.mp h]
    decide
  · obtain ⟨d, hd, rfl⟩ := List.mem_map.mp (List.mem_reverse.mp h)
    have hlt := Nat.digits_lt_base (by decide) hd
    rw [UInt8.le_iff_toNat_le, UInt8.le_iff_toNat_le, UInt8.toNat_ofNat',
      Nat.mod_eq_of_lt (by omega)]
    exact ⟨Nat.le_add_right 48 d, Nat.add_le_add_left (Nat.le_of_lt_succ hlt) 48⟩

theorem mem_itoa {n : ℤ} (h : c ∈ itoa n) : c = 45 ∨ 48 ≤ c ∧ c ≤ 57 := by
  rw [itoa] at h
  split at h
  · exact (List.mem_cons.mp h).imp_right mem_natText
  · exact .inr (mem_natText h)

theorem exists_digit_mem_itoa (n : ℤ) : ∃ c ∈ itoa n, 48 ≤ c ∧ c ≤ 57 := by
  obtain ⟨c, hc⟩ := List.exists_mem_of_ne_nil _ (natText_ne_nil n.natAbs)
  refine ⟨c, ?_, mem_natText hc⟩
  rw [itoa]
  split
  · exact List.mem_cons_of_mem _ hc
  · exact hc

theorem itoa_digit {b : UInt8} (hlow : 48 ≤ b) (hhigh : b ≤ 57) :
    itoa (b.toNat - 48 : ℕ) = [b] := by
  have hlow : 48 ≤ b.toNat := UInt8.le_iff_toNat_le.mp hlow
  have hhigh : b.toNat ≤ 57 := UInt8.le_iff_toNat_le.mp hhigh
  rw [itoa, if_neg (by omega), Int.natAbs_natCast, natText]
  split
  · exact congrArg (fun c => [c]) (UInt8.toNat_inj.mp (by change 48 = b.toNat; omega))
  · rename_i hne
    rw [Nat.digits_of_lt 10 _ hne (by omega), List.map_singleton, List.reverse_singleton,
      Nat.add_sub_cancel' hlow, UInt8.ofNat_toNat]

/-- Different numbers have different texts. -/
theorem itoa_injective : Function.Injective itoa := by
  intro m n h
  have habs : ∀ k l : ℕ, natText k = natText l → k = l := fun k l hkl => by
    rw [← natOfText_natText k, hkl, natOfText_natText]
  -- a minus sign is not a digit
  have hsign : ∀ k l : ℕ, 45 :: natText k ≠ natText l := fun k l hkl => by
    have := mem_natText (hkl ▸ List.mem_cons_self : (45 : UInt8) ∈ natText l)
    exact absurd this.1 (by decide)
  rw [itoa, itoa] at h
  split at h <;> split at h
  · have := habs _ _ (List.cons.inj h).2
    omega
  · exact absurd h (hsign _ _)
  · exact absurd h.symm (hsign _ _)
  · have := habs _ _ h
    omega

/-- A text is cut at the first place of a byte in one way only. -/
theorem cut_inj {x x' y y' : Bytes} (hx : c ∉ x) (hx' : c ∉ x') (h : x ++ c :: y = x' ++ c :: y') :
    x = x' ∧ y = y' := by
  induction x generalizing x' with
  | nil =>
    cases x' with
    | nil => exact ⟨rfl, (List.cons.inj h).2⟩
    | cons d x' => exact absurd ((List.cons.inj h).1 ▸ List.mem_cons_self) hx'
  | cons d x ih =>
    cases x' with
    | nil => exact absurd ((List.cons.inj h).1 ▸ List.mem_cons_self) hx
    | cons d' x' =>
      obtain ⟨rfl, hrest⟩ := List.cons.inj h
      obtain ⟨rfl, rfl⟩ := ih (fun hm => hx (List.mem_cons_of_mem _ hm))
        (fun hm => hx' (List.mem_cons_of_mem _ hm)) hrest
      exact ⟨rfl, rfl⟩

/-- A joined text begins with its first part, and with the separator behind it if there is
another one. -/
theorem join_cons (p : Bytes) (l : List Bytes) (c : UInt8) :
    (l = [] ∧ join (p :: l) [c] = p) ∨ join (p :: l) [c] = p ++ c :: join l [c] := by
  cases l with
  | nil => exact .inl ⟨rfl, by simp [join, List.intercalate]⟩
  | cons q l => exact .inr (by simp [join, List.intercalate])

/-- Parts of which none is another one with the separator behind it can be read back from the
joined text. -/
theorem join_unique {part : Bytes → Prop} (hne : ∀ p, part p → p ≠ [])
    (hcut : ∀ p q m, part p → part q → q ≠ p ++ c :: m) {parts parts' : List Bytes}
    (h : ∀ p ∈ parts, part p) (h' : ∀ p ∈ parts', part p) (heq : join parts [c] = join parts' [c]) :
    parts = parts' := by
  have hnil : ∀ p l, part p → join (p :: l) [c] ≠ [] := by
    intro p l hp hjoin
    rcases join_cons p l c with ⟨-, hl⟩ | hl <;> rw [hl] at hjoin
    · exact hne p hp hjoin
    · exact hne p hp (List.append_eq_nil_iff.mp hjoin).1
  induction parts generalizing parts' with
  | nil =>
    cases parts' with
    | nil => rfl
    | cons q l' => exact absurd heq.symm (hnil q l' (h' q List.mem_cons_self))
  | cons p l ih =>
    cases parts' with
    | nil => exact absurd heq (hnil p l (h p List.mem_cons_self))
    | cons q l' =>
      have hp := h p List.mem_cons_self
      have hq := h' q List.mem_cons_self
      -- two texts that go on behind their first parts have the same first part
      have hfirst : ∀ J J' : Bytes, p ++ c :: J = q ++ c :: J' → p = q ∧ J = J' := by
        intro J J' hJ
        rcases List.append_eq_append_iff.mp hJ with ⟨a, ha, hrest⟩ | ⟨a, ha, hrest⟩
        · cases a with
          | nil => exact ⟨by simpa using ha.symm, by simpa using hrest⟩
          | cons b a =>
            cases hrest
            exact absurd ha (hcut p q a hp hq)
        · cases a with
          | nil => exact ⟨by simpa using ha, by simpa using hrest.symm⟩
          | cons b a =>
            cases hrest
            exact absurd ha (hcut q p a hq hp)
      rcases join_cons p l c with ⟨rfl, hl⟩ | hl <;> rcases join_cons q l' c with ⟨rfl, hl'⟩ | hl' <;>
        rw [hl, hl'] at heq
      · rw [heq]
      · exact absurd heq (hcut q p _ hq hp)
      · exact absurd heq.symm (hcut p q _ hp hq)
      · obtain ⟨rfl, hrest⟩ := hfirst _ _ heq
        rw [ih (fun r hr => h r (List.mem_cons_of_mem _ hr))
          (fun r hr => h' r (List.mem_cons_of_mem _ hr)) hrest]

/-! ## Scanning -/

/-- Where the loop `for i < len(s) && p(s[i]) { i++ }` stops. -/
def skip (p : UInt8 → Bool) (s : Bytes) (i : ℕ) : ℕ := i + ((s.drop i).takeWhile p).length

theorem le_skip (p : UInt8 → Bool) (s : Bytes) (i : ℕ) : i ≤ skip p s i := Nat.le_add_right ..

theorem skip_le {p : UInt8 → Bool} {i : ℕ} (h : i ≤ s.length) : skip p s i ≤ s.length := by
  have hle := (List.takeWhile_prefix (p := p) (l := s.drop i)).length_le
  rw [List.length_drop] at hle
  unfold skip
  omega

theorem drop_skip (p : UInt8 → Bool) (s : Bytes) (i : ℕ) :
    s.drop (skip p s i) = (s.drop i).dropWhile p := by
  have hcut : s.drop i = (s.drop i).takeWhile p ++ (s.drop i).dropWhile p :=
    List.takeWhile_append_dropWhile.symm
  rw [skip, ← List.drop_drop]
  nth_rewrite 2 [hcut]
  exact List.drop_left

/-- The loop runs exactly over a prefix whose bytes pass the test and which the
next byte, if there is one, ends. -/
theorem skip_of_drop {p : UInt8 → Bool} {w r : Bytes} {i : ℕ} (hs : s.drop i = w ++ r)
    (hw : ∀ c ∈ w, p c = true) (hr : ∀ c ∈ r.head?, p c = false) : skip p s i = i + w.length := by
  have htake : r.takeWhile p = [] := by
    cases r with
    | nil => rfl
    | cons c r => exact List.takeWhile_cons_of_neg (by simp [hr c rfl])
  rw [skip, hs, List.takeWhile_append_of_pos hw, htake, List.append_nil]

/-- The text from a position on, cut where the loop stops. -/
theorem drop_eq_skip (p : UInt8 → Bool) (s : Bytes) (i : ℕ) :
    ∃ w r, s.drop i = w ++ r ∧ (∀ c ∈ w, p c = true) ∧ (∀ c ∈ r.head?, p c = false) ∧
      skip p s i = i + w.length ∧ s.drop (skip p s i) = r := by
  refine ⟨(s.drop i).takeWhile p, (s.drop i).dropWhile p,
    List.takeWhile_append_dropWhile.symm, fun c hc => List.mem_takeWhile_imp hc, ?_, rfl,
    drop_skip p s i⟩
  intro c hc
  have hne : (s.drop i).dropWhile p ≠ [] := by
    intro hnil
    rw [hnil] at hc
    cases hc
  have hhead := List.head_dropWhile_not p hne
  rw [List.head?_eq_some_head hne] at hc
  rw [← Option.some.inj hc]
  exact hhead

end HstongApi
