import HstongApi.Dates
import Mathlib.Algebra.Field.Rat
import Mathlib.Algebra.Order.Field.Power

/-!
# Texts of rational numbers

`setString` is `Rat.SetString` of Go's `math/big`. It reads a fraction of two whole numbers, or a
number with a point and an exponent; the numbers may have a prefix for their base, and separators
between their digits.

A text is `Plain` if it is digits, or digits, a point and digits. A plain text is read as the number
it denotes, unless there are too many digits after the point (`setString_plain`). Of the other texts
that are read, none is made of digits and points with a digit at both ends (`plain_iff_clean`).
-/

namespace HstongApi.RatText

open Numeral (isDigit IsDigits natOfText_append)

/-! ## Digits -/

/-- What was read before: a separator, a digit, or anything else. -/
inductive Prev
  | separator
  | digit
  | other
  deriving DecidableEq

/-- What is known of the digits that were read. -/
structure Mantissa where
  value : ℕ := 0
  count : ℕ := 0
  /-- how many digits were before the point -/
  point : Option ℕ := none
  prev : Prev := .other
  /-- a separator was not after a digit -/
  invalSep : Bool := false

/-- The value of a digit; what is no digit is too large. -/
def digitValue (ch : UInt8) : ℕ :=
  if 48 ≤ ch ∧ ch ≤ 57 then ch.toNat - 48
  else if 97 ≤ ch ∧ ch ≤ 122 then ch.toNat - 87
  else if 65 ≤ ch ∧ ch ≤ 90 then ch.toNat - 55
  else 63

/-- The loop over the digits of `nat.scan`, and the one of `scanExponent`; with what is left. -/
def digits (b : ℕ) (fracOk : Bool) (m : Mantissa) : Bytes → Mantissa × Bytes
  | [] => (m, [])
  | ch :: rest =>
    if ch = 46 ∧ fracOk = true then
      digits b false { m with
        invalSep := m.invalSep || m.prev == .separator
        prev := .other
        point := some m.count } rest
    else if ch = 95 then
      digits b fracOk { m with
        invalSep := m.invalSep || m.prev != .digit
        prev := .separator } rest
    else if digitValue ch < b then
      digits b fracOk { m with
        value := m.value * b + digitValue ch
        count := m.count + 1
        prev := .digit } rest
    else (m, ch :: rest)

/-- How `nat.scan` starts with the base 0: the base, if it is octal because of a zero, what is known
of the digits, and the text after the prefix. -/
def start (fracOk : Bool) : Bytes → ℕ × Bool × Mantissa × Bytes
  | 48 :: ch :: rest =>
    if ch = 98 ∨ ch = 66 then (2, false, { prev := .digit }, rest)
    else if ch = 111 ∨ ch = 79 then (8, false, { prev := .digit }, rest)
    else if ch = 120 ∨ ch = 88 then (16, false, { prev := .digit }, rest)
    else if fracOk = true then (10, false, { count := 1, prev := .digit }, ch :: rest)
    else (8, true, { prev := .digit }, ch :: rest)
  | [48] => (10, false, { count := 1, prev := .digit }, [])
  | s => (10, false, {}, s)

/-- What `nat.scan` returns. -/
structure Scanned where
  value : ℕ
  base : ℕ
  /-- how many digits there are, or, if there is a point, minus how many are after it -/
  fcount : ℤ
  rest : Bytes

/-- `nat.scan` with the base 0 -/
def scan (fracOk : Bool) (s : Bytes) : Option Scanned :=
  let (base, octal, m, t) := start fracOk s
  let (m, rest) := digits base fracOk m t
  if m.invalSep || m.prev == .separator then none
  else if m.count = 0 then
    -- a single zero was taken for a prefix
    if octal then some ⟨0, 10, 1, rest⟩ else none
  else some ⟨m.value, base, m.point.elim (m.count : ℤ) fun p => p - m.count, rest⟩

/-- `scanSign` -/
def scanSign : Bytes → Bool × Bytes
  | 45 :: t => (true, t)
  | 43 :: t => (false, t)
  | t => (false, t)

/-- The number after the mark of an exponent, and what is left. -/
def exponent (base : ℕ) (s : Bytes) : Option (ℤ × ℕ × Bytes) :=
  let (neg, t) := scanSign s
  let (m, rest) := digits 10 false {} t
  let n : ℤ := if neg then -m.value else m.value
  if m.count = 0 ∨ n < -9223372036854775808 ∨ 9223372036854775807 < n then none
  else if m.invalSep || m.prev == .separator then none
  else some (n, base, rest)

/-- `scanExponent` -/
def scanExponent : Bytes → Option (ℤ × ℕ × Bytes)
  | [] => some (0, 10, [])
  | ch :: rest =>
    if ch = 101 ∨ ch = 69 then exponent 10 rest
    else if ch = 112 ∨ ch = 80 then exponent 2 rest
    else some (0, 10, ch :: rest)

/-! ## Numbers -/

/-- `Int.SetString` with the base 0 -/
def setInt (s : Bytes) : Option ℤ := do
  let (neg, t) := scanSign s
  let m ← scan false t
  if m.rest = [] then some (if neg then -m.value else m.value) else none

/-- How many bits a digit after the point has, or that it has one factor of two and one of five. -/
def bits (base : ℕ) : ℤ := if base = 8 then 3 else if base = 16 then 4 else 1

/-- A number with a point and an exponent. -/
def floating (s : Bytes) : Option ℚ := do
  let (neg, t) := scanSign s
  let m ← scan true t
  let (exp, ebase, rest) ← scanExponent m.rest
  let fcount := min m.fcount 0
  let exp5 := (if m.base = 10 then fcount else 0) + if ebase = 10 then exp else 0
  let exp2 := fcount * bits m.base + exp
  if rest ≠ [] then none
  else if m.value = 0 then some 0
  else if 1000000 < exp5.natAbs ∨ 10000000 < exp2.natAbs then none
  else some ((if neg then -(m.value : ℚ) else m.value) * 5 ^ exp5 * 2 ^ exp2)

/-- A fraction. -/
def fraction (a b : Bytes) : Option ℚ := do
  let numerator ← setInt a
  let denominator ← scan false b
  if denominator.rest ≠ [] ∨ denominator.value = 0 then none
  else some (numerator / denominator.value)

/-- **`Rat.SetString`** -/
def setString (s : Bytes) : Option ℚ :=
  if s = [] then none
  else match Numeral.cut (· == 47) s with
    | some (a, b) => fraction a b
    | none => floating s

/-! ## Plain texts -/

/-- **A plain decimal**, the number it denotes, and how many digits are after the point. -/
inductive Plain : Bytes → ℚ → ℕ → Prop
  | whole {a : Bytes} : IsDigits a → Plain a (natOfText a) 0
  | point {a b : Bytes} : IsDigits a → IsDigits b →
      Plain (a ++ 46 :: b) ((natOfText (a ++ b) : ℚ) / 10 ^ b.length) b.length

/-- Digits and points, with a digit at both ends. -/
def Clean (s : Bytes) : Prop :=
  (∀ c ∈ s, isDigit c = true ∨ c = 46) ∧ s.head? ≠ some 46 ∧ s.getLast? ≠ some 46

instance (s : Bytes) : Decidable (Clean s) := inferInstanceAs (Decidable (_ ∧ _))

/-- One more decimal digit. -/
def Mantissa.push (m : Mantissa) (c : UInt8) : Mantissa :=
  { m with value := m.value * 10 + (c.toNat - 48), count := m.count + 1, prev := .digit }

/-- A text is digits up to some place. -/
theorem digits_or (s : Bytes) : (∀ c ∈ s, isDigit c = true) ∨
    ∃ a c r, (∀ d ∈ a, isDigit d = true) ∧ isDigit c = false ∧ s = a ++ c :: r := by
  induction s with
  | nil => exact .inl nofun
  | cons c s ih =>
    cases hc : isDigit c with
    | false => exact .inr ⟨[], c, s, nofun, hc, rfl⟩
    | true =>
      rcases ih with hall | ⟨a, d, r, ha, hd, rfl⟩
      · exact .inl (List.forall_mem_cons.mpr ⟨hc, hall⟩)
      · exact .inr ⟨c :: a, d, r, List.forall_mem_cons.mpr ⟨hc, ha⟩, hd, rfl⟩

theorem digitValue_of_isDigit {c : UInt8} (h : isDigit c = true) :
    c ≠ 46 ∧ c ≠ 95 ∧ digitValue c = c.toNat - 48 ∧ digitValue c < 10 := by
  have hrange : 48 ≤ c ∧ c ≤ 57 := by simpa [isDigit] using h
  obtain ⟨hlow, hhigh⟩ := Dates.isDigit_iff.mp h
  have hvalue : digitValue c = c.toNat - 48 := if_pos hrange
  refine ⟨?_, ?_, hvalue, by omega⟩
  · rintro rfl
    exact absurd h (by decide)
  · rintro rfl
    exact absurd h (by decide)

variable {a : Bytes}

/-- **The loop reads digits.** -/
theorem digits_append (ha : ∀ c ∈ a, isDigit c = true) (fracOk : Bool) (m : Mantissa) (t : Bytes) :
    digits 10 fracOk m (a ++ t) = digits 10 fracOk (a.foldl Mantissa.push m) t := by
  induction a generalizing m with
  | nil => rfl
  | cons c a ih =>
    obtain ⟨hc, ha⟩ := List.forall_mem_cons.mp ha
    obtain ⟨hpoint, hsep, hvalue, hlt⟩ := digitValue_of_isDigit hc
    rw [List.cons_append, digits, if_neg fun h => hpoint h.1, if_neg hsep, if_pos hlt, hvalue,
      List.foldl_cons, ← ih ha]
    rfl

/-- What is known after the digits. -/
theorem foldl_push (a : Bytes) (m : Mantissa) :
    a.foldl Mantissa.push m =
      { m with
        value := m.value * 10 ^ a.length + natOfText a
        count := m.count + a.length
        prev := if a = [] then m.prev else .digit } := by
  induction a using List.reverseRecOn with
  | nil => simp [natOfText]
  | append_singleton a c ih =>
    rw [List.foldl_append, List.foldl_cons, List.foldl_nil, ih, Mantissa.push,
      Dates.natOfText_snoc, List.length_append, List.length_singleton, pow_succ]
    simp only [List.append_eq_nil_iff, List.cons_ne_nil, and_false, if_false, Mantissa.mk.injEq,
      and_true, Nat.add_assoc]
    ring

variable {s : Bytes}

theorem scan_of_clean (hs : ∀ c ∈ s, isDigit c = true ∨ c = 46) : scan true s =
      let (m, rest) := digits 10 true {} s;
      if m.invalSep || m.prev == .separator then none
      else if m.count = 0 then none
      else some ⟨m.value, 10, m.point.elim (m.count : ℤ) fun p => p - m.count, rest⟩ := by
  have hstart : ∃ m t, start true s = (10, false, m, t) ∧ digits 10 true m t = digits 10 true {} s := by
    unfold start
    split
    · rename_i ch rest
      have hch : isDigit ch = true ∨ ch = 46 := hs ch (by simp)
      rw [if_neg (by rintro (rfl | rfl) <;> exact absurd hch (by decide)),
        if_neg (by rintro (rfl | rfl) <;> exact absurd hch (by decide)),
        if_neg (by rintro (rfl | rfl) <;> exact absurd hch (by decide)), if_pos rfl]
      have hzero : ∀ c ∈ [48], isDigit c = true := List.forall_mem_singleton.mpr (by decide)
      exact ⟨_, _, rfl, (digits_append hzero true {} (ch :: rest)).symm⟩
    · exact ⟨_, _, rfl, rfl⟩
    · exact ⟨_, _, rfl, rfl⟩
  obtain ⟨m, t, hstart, hdigits⟩ := hstart
  rw [scan, hstart]
  simp only [hdigits]
  rfl

theorem scanSign_of_clean (hs : ∀ c ∈ s, isDigit c = true ∨ c = 46) : scanSign s = (false, s) := by
  unfold scanSign
  split
  · exact absurd (hs 45 List.mem_cons_self) (by decide)
  · exact absurd (hs 43 List.mem_cons_self) (by decide)
  · rfl

theorem setString_of_clean (hs : ∀ c ∈ s, isDigit c = true ∨ c = 46) (hne : s ≠ []) :
    setString s = floating s := by
  have hcut : Numeral.cut (· == 47) s = none := by
    refine Numeral.cut_eq_none.mpr fun c hc => beq_false_of_ne ?_
    rintro rfl
    exact absurd (hs 47 hc) (by decide)
  rw [setString, if_neg hne, hcut]

theorem scan_whole (ha : IsDigits a) : scan true a = some ⟨natOfText a, 10, a.length, []⟩ := by
  have hdigits : digits 10 true {} a =
      ({ value := natOfText a, count := a.length, prev := .digit }, []) := by
    have happend := digits_append ha.2 true {} []
    rw [List.append_nil, foldl_push, if_neg ha.1] at happend
    simpa [digits] using happend
  rw [scan_of_clean fun c hc => .inl (ha.2 c hc), hdigits]
  simp [ha.1]

/-- Digits, a point and digits are read up to a second point. -/
theorem scan_point {b u : Bytes} (ha : ∀ c ∈ a, isDigit c = true) (hb : ∀ c ∈ b, isDigit c = true)
    (hu : u = [] ∨ ∃ r, u = 46 :: r) (hs : ∀ c ∈ a ++ 46 :: (b ++ u), isDigit c = true ∨ c = 46) :
    scan true (a ++ 46 :: (b ++ u)) =
      if a ++ b = [] then none else some ⟨natOfText (a ++ b), 10, -b.length, u⟩ := by
  have hsep : ((if a = [] then Prev.other else .digit) == .separator) = false := by
    split <;> rfl
  have hpoint : digits 10 true {} (a ++ 46 :: (b ++ u)) =
      digits 10 false { value := natOfText a, count := a.length, point := some a.length } (b ++ u) := by
    rw [digits_append ha, foldl_push, digits, if_pos ⟨rfl, rfl⟩]
    simp [hsep]
  have hstop : ∀ m, digits 10 false m u = (m, u) := by
    intro m
    obtain rfl | ⟨r, rfl⟩ := hu
    · rfl
    · rfl
  rw [scan_of_clean hs, hpoint, digits_append hb, foldl_push, hstop]
  by_cases hnil : a ++ b = []
  · obtain ⟨rfl, rfl⟩ := List.append_eq_nil_iff.mp hnil
    rfl
  · have hor : a = [] → ¬b = [] := fun ha hb => hnil (by rw [ha, hb]; rfl)
    have hprev : ((if b = [] then Prev.other else .digit) == .separator) = false := by
      split <;> rfl
    simpa [hnil, hprev, natOfText_append] using hor

/-- **Digits are read as their number.** -/
theorem setString_whole (ha : IsDigits a) : setString a = some (natOfText a : ℚ) := by
  have hclean : ∀ c ∈ a, isDigit c = true ∨ c = 46 := fun c hc => .inl (ha.2 c hc)
  rw [setString_of_clean hclean ha.1, floating, scanSign_of_clean hclean]
  simp only [scan_whole ha, Option.bind_eq_bind, Option.bind_some, scanExponent]
  by_cases hzero : natOfText a = 0
  · simp [hzero]
  · simp [hzero]

/-- **Digits with a point are read as their number**, unless too many digits are after the point. -/
theorem setString_point {b : Bytes} (ha : ∀ c ∈ a, isDigit c = true)
    (hb : ∀ c ∈ b, isDigit c = true) (hne : a ++ b ≠ []) : setString (a ++ 46 :: b) =
      if natOfText (a ++ b) = 0 ∨ b.length ≤ 1000000 then
        some ((natOfText (a ++ b) : ℚ) / 10 ^ b.length)
      else none := by
  have hclean : ∀ c ∈ a ++ 46 :: b, isDigit c = true ∨ c = 46 := by
    intro c hc
    rcases List.mem_append.mp hc with hc | hc
    · exact .inl (ha c hc)
    · exact (List.mem_cons.mp hc).elim .inr fun hc => .inl (hb c hc)
  have hscan := scan_point ha hb (.inl rfl) (by rwa [List.append_nil])
  rw [List.append_nil, if_neg hne] at hscan
  rw [setString_of_clean hclean (by simp), floating, scanSign_of_clean hclean]
  simp only [hscan, Option.bind_eq_bind, Option.bind_some, scanExponent]
  have hmin : min (-(b.length : ℤ)) 0 = -b.length := min_eq_left (by omega)
  have hvalue : (natOfText (a ++ b) : ℚ) * 5 ^ (-(b.length : ℤ)) * 2 ^ (-(b.length : ℤ)) =
      natOfText (a ++ b) / 10 ^ b.length := by
    rw [mul_assoc, ← mul_zpow, zpow_neg, zpow_natCast, div_eq_mul_inv]
    norm_num
  have hbits : bits 10 = 1 := rfl
  simp only [hmin, hbits, ne_eq, not_true_eq_false, if_false, if_true, Bool.false_eq_true, mul_one,
    add_zero, Int.natAbs_neg, Int.natAbs_natCast, hvalue]
  by_cases hzero : natOfText (a ++ b) = 0
  · simp [hzero]
  · by_cases hlength : b.length ≤ 1000000
    · rw [if_neg hzero, if_neg (by omega), if_pos (.inr hlength)]
    · rw [if_neg hzero, if_pos (.inl (by omega)), if_neg (by simp [hzero, hlength])]

/-- Two points are not read. -/
theorem setString_two_points {b r : Bytes} (ha : ∀ c ∈ a, isDigit c = true)
    (hb : ∀ c ∈ b, isDigit c = true)
    (hs : ∀ c ∈ a ++ 46 :: (b ++ 46 :: r), isDigit c = true ∨ c = 46) :
    setString (a ++ 46 :: (b ++ 46 :: r)) = none := by
  rw [setString_of_clean hs (by simp), floating, scanSign_of_clean hs]
  simp only [scan_point ha hb (.inr ⟨r, rfl⟩) hs]
  by_cases hnil : a ++ b = []
  · simp [hnil]
  · simp [hnil, scanExponent]

/-- **A plain text is read as the number it denotes**, unless too many digits are after the point. -/
theorem setString_plain {q : ℚ} {k : ℕ} (h : Plain s q k) :
    setString s = if q = 0 ∨ k ≤ 1000000 then some q else none := by
  cases h with
  | whole ha => rw [setString_whole ha, if_pos (.inr (Nat.zero_le _))]
  | @point a b ha hb =>
    have hzero : (natOfText (a ++ b) : ℚ) / 10 ^ b.length = 0 ↔ natOfText (a ++ b) = 0 := by
      simp
    rw [setString_point ha.2 hb.2 (by simp [ha.1])]
    simp only [hzero]

theorem Plain.clean {q : ℚ} {k : ℕ} (h : Plain s q k) : Clean s := by
  have hends : ∀ {t : Bytes} {c : UInt8}, IsDigits t → c ∈ t → some c ≠ some 46 := by
    intro t c ht hc heq
    have hdigit := ht.2 c hc
    rw [Option.some.inj heq] at hdigit
    exact absurd hdigit (by decide)
  cases h with
  | whole ha =>
    refine ⟨fun c hc => .inl (ha.2 c hc), ?_, ?_⟩
    · rw [List.head?_eq_some_head ha.1]
      exact hends ha (List.head_mem ha.1)
    · rw [List.getLast?_eq_some_getLast ha.1]
      exact hends ha (List.getLast_mem ha.1)
  | @point a b ha hb =>
    refine ⟨fun c hc => ?_, ?_, ?_⟩
    · rcases List.mem_append.mp hc with hc | hc
      · exact .inl (ha.2 c hc)
      · exact (List.mem_cons.mp hc).elim .inr fun hc => .inl (hb.2 c hc)
    · rw [List.head?_append_of_ne_nil _ ha.1, List.head?_eq_some_head ha.1]
      exact hends ha (List.head_mem ha.1)
    · rw [List.getLast?_append_of_ne_nil _ (by simp), List.getLast?_cons_of_ne_nil hb.1,
        List.getLast?_eq_some_getLast hb.1]
      exact hends hb (List.getLast_mem hb.1)

/-- A clean text that is read is plain. -/
theorem plain_of_clean {r : ℚ} (h : setString s = some r) (hs : Clean s) : ∃ q k, Plain s q k := by
  obtain ⟨hbytes, hhead, hlast⟩ := hs
  have hpoint : ∀ {c : UInt8}, c ∈ s → isDigit c = false → c = 46 := by
    intro c hc hdigit
    exact (hbytes c hc).resolve_left (by simp [hdigit])
  rcases digits_or s with hall | ⟨a, c, t, ha, hc, rfl⟩
  · have hne : s ≠ [] := by
      rintro rfl
      cases h
    exact ⟨_, _, .whole ⟨hne, hall⟩⟩
  · obtain rfl := hpoint (by simp) hc
    have hane : a ≠ [] := by
      rintro rfl
      exact hhead rfl
    rcases digits_or t with hb | ⟨b, d, u, hb, hd, rfl⟩
    · have hbne : t ≠ [] := by
        rintro rfl
        simp at hlast
      exact ⟨_, _, .point ⟨hane, ha⟩ ⟨hbne, hb⟩⟩
    · obtain rfl := hpoint (by simp) hd
      rw [setString_two_points ha hb hbytes] at h
      cases h

/-- **Of the texts that are read**, the clean ones are plain, and the others are not. -/
theorem plain_iff_clean {r : ℚ} (h : setString s = some r) : (∃ k, Plain s r k) ↔ Clean s := by
  constructor
  · rintro ⟨k, hplain⟩
    exact hplain.clean
  · intro hs
    obtain ⟨q, k, hplain⟩ := plain_of_clean h hs
    rw [setString_plain hplain, Option.ite_none_right_eq_some, Option.some.injEq] at h
    obtain ⟨-, rfl⟩ := h
    exact ⟨k, hplain⟩

-- texts that are read and are not plain
example : ["1/2", "1e3", "+5", ".5", "5.", "0x10", "1_000", "010/1"].map (setString ∘ bytes) =
    [some (1 / 2), some 1000, some 5, some (1 / 2), some 5, some 16, some 1000, some 8] := by
  decide +kernel

-- a separator needs a digit on both sides, also after the zero of an octal number
example : ["0/5", "0_/5", "_1/2", "1__0"].map (setString ∘ bytes) = [some 0, none, none, none] := by
  decide +kernel

end HstongApi.RatText
