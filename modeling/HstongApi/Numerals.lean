import HstongApi.Bytes
import Mathlib.Tactic.IntervalCases

/-!
# Decimal numerals

The notation of decimal numbers: digits, a sign, a point and an exponent. `Denotes` says which
number a text stands for, apart from any reader. The number is a whole number and a power of ten.
The notation is generous (the point may come before the sign, and there is no limit for the
exponent), so that it can bound from above what a reader of decimals accepts.

`parse` is a reader of the whole notation: it cuts off an exponent at the first `e` or `E`, takes out
the decimal point, and reads the rest as a whole number. `parse_eq_some` says that it accepts exactly
the texts of the notation and gives the number they denote. So a text denotes one number only
(`Denotes.unique`).

`places` is about the plain part of the notation, which bounds from below what a reader accepts:
digits, and perhaps a point with digits on both of its sides. The texts of whole numbers are plain.
-/

namespace HstongApi.Numeral

/-! ## Reading -/

/-- A digit of ASCII. -/
def isDigit (c : UInt8) : Bool := 48 ≤ c && c ≤ 57

/-- `e` or `E` -/
def isMark (c : UInt8) : Bool := c == 69 || c == 101

/-- The decimal point. -/
def isPoint (c : UInt8) : Bool := c == 46

/-- The text before and after the first byte that passes a test. -/
def cut (p : UInt8 → Bool) (t : Bytes) : Option (Bytes × Bytes) :=
  match t.dropWhile (fun c => !p c) with
  | [] => none
  | _ :: rest => some (t.takeWhile (fun c => !p c), rest)

/-- A number without a sign. -/
def parseNat (t : Bytes) : Option ℕ :=
  if t ≠ [] ∧ t.all isDigit = true then some (natOfText t) else none

/-- A sign and decimal digits, as `strconv.Atoi` and `big.Int.SetString` read them. -/
def parseInt : Bytes → Option ℤ
  | [] => none
  | c :: t =>
    if c = 43 then (parseNat t).map fun (n : ℕ) => (n : ℤ)
    else if c = 45 then (parseNat t).map fun (n : ℕ) => -(n : ℤ)
    else (parseNat (c :: t)).map fun (n : ℕ) => (n : ℤ)

/-- The number without its point, and the number of bytes after the point. -/
def parsePoint (t : Bytes) : Option (ℤ × ℕ) :=
  match cut isPoint t with
  | none => (parseInt t).map (·, 0)
  | some (int, frac) =>
    if frac.any isPoint then none else (parseInt (int ++ frac)).map (·, frac.length)

/-- The whole number and the power of ten of a numeral. -/
def parse (t : Bytes) : Option (ℤ × ℤ) :=
  match cut isMark t with
  | none => (parsePoint t).map fun (n, k) => (n, -(k : ℤ))
  | some (t, e) => (parseInt e).bind fun x => (parsePoint t).map fun (n, k) => (n, x - k)

/-! ## The notation -/

/-- Digits, at least one. -/
def IsDigits (t : Bytes) : Prop := t ≠ [] ∧ ∀ c ∈ t, isDigit c = true

instance (t : Bytes) : Decidable (IsDigits t) :=
  @instDecidableAnd _ _ _ (List.decidableBAll (isDigit · = true) t)

/-- The text of a whole number. -/
inductive IntText : Bytes → ℤ → Prop
  | unsigned {t} : IsDigits t → IntText t (natOfText t)
  | plus {t} : IsDigits t → IntText (43 :: t) (natOfText t)
  | minus {t} : IsDigits t → IntText (45 :: t) (-(natOfText t : ℤ))

/-- The text of a whole number with a point in it, and how many bytes come after the point.
The point may come before the sign. -/
inductive PointText : Bytes → ℤ → ℕ → Prop
  | whole {t n} : IntText t n → PointText t n 0
  | point {a b n} : IntText (a ++ b) n → PointText (a ++ 46 :: b) n b.length

/-- The text denotes the number `n * 10 ^ e`. -/
inductive Denotes : Bytes → ℤ → ℤ → Prop
  | plain {t n k} : PointText t n k → Denotes t n (-(k : ℤ))
  | scientific {t c u n k x} : PointText t n k → isMark c = true → IntText u x →
      Denotes (t ++ c :: u) n (x - k)

/-- How many digits a plain numeral without a sign has after its point. -/
def places (t : Bytes) : Option ℕ :=
  match cut isPoint t with
  | none => if IsDigits t then some 0 else none
  | some (int, frac) => if IsDigits int ∧ IsDigits frac then some frac.length else none

/-! ## The reader and the notation -/

variable {t : Bytes} {p : UInt8 → Bool}

theorem cut_eq_none : cut p t = none ↔ ∀ c ∈ t, p c = false := by
  unfold cut
  split
  · rename_i hnil
    simpa [List.dropWhile_eq_nil_iff] using hnil
  · rename_i c rest hcons
    refine iff_of_false nofun fun hall => ?_
    rw [List.dropWhile_eq_nil_iff.mpr fun c hc => by simp [hall c hc]] at hcons
    cases hcons

/-- A text is cut at the first byte that passes the test. -/
theorem cut_append {a b : Bytes} {c : UInt8} (ha : ∀ x ∈ a, p x = false) (hc : p c = true) :
    cut p (a ++ c :: b) = some (a, b) := by
  have hpass : ∀ x ∈ a, (!p x) = true := fun x hx => by simp [ha x hx]
  have hstop : ¬ (!p c) = true := by simp [hc]
  rw [cut, List.dropWhile_append_of_pos hpass,
    List.dropWhile_cons_of_neg (p := fun c => !p c) hstop, List.takeWhile_append_of_pos hpass,
    List.takeWhile_cons_of_neg (p := fun c => !p c) hstop, List.append_nil]

theorem cut_eq_some {a b : Bytes} (h : cut p t = some (a, b)) :
    ∃ c, p c = true ∧ t = a ++ c :: b ∧ ∀ x ∈ a, p x = false := by
  unfold cut at h
  split at h
  · cases h
  · rename_i c rest hcons
    obtain ⟨rfl, rfl⟩ := Prod.mk.inj (Option.some.inj h)
    refine ⟨c, ?_, ?_, fun x hx => by simpa using List.mem_takeWhile_imp hx⟩
    · have hne : t.dropWhile (fun c => !p c) ≠ [] := by
        rw [hcons]
        exact List.cons_ne_nil c rest
      have hhead := List.head_dropWhile_not (fun c => !p c) hne
      simpa [hcons] using hhead
    · rw [← hcons, List.takeWhile_append_dropWhile]

theorem parseNat_eq_some {n : ℕ} : parseNat t = some n ↔ IsDigits t ∧ natOfText t = n := by
  rw [parseNat, Option.ite_none_right_eq_some, List.all_eq_true, Option.some.injEq]
  rfl

variable {n : ℤ}

theorem parseInt_eq_some : parseInt t = some n ↔ IntText t n := by
  constructor
  · intro h
    cases t with
    | nil => cases h
    | cons c t =>
      rw [parseInt] at h
      split at h
      · rename_i hplus
        obtain ⟨m, hm, rfl⟩ := Option.map_eq_some_iff.mp h
        obtain ⟨hdigits, rfl⟩ := parseNat_eq_some.mp hm
        exact hplus ▸ .plus hdigits
      · split at h
        · rename_i hminus
          obtain ⟨m, hm, rfl⟩ := Option.map_eq_some_iff.mp h
          obtain ⟨hdigits, rfl⟩ := parseNat_eq_some.mp hm
          exact hminus ▸ .minus hdigits
        · obtain ⟨m, hm, rfl⟩ := Option.map_eq_some_iff.mp h
          obtain ⟨hdigits, rfl⟩ := parseNat_eq_some.mp hm
          exact .unsigned hdigits
  · intro h
    cases h with
    | unsigned hdigits =>
      cases t with
      | nil => exact absurd rfl hdigits.1
      | cons c t =>
        -- the first byte is a digit, so it is no sign
        have hc : isDigit c = true := hdigits.2 c List.mem_cons_self
        have hplus : c ≠ 43 := by
          rintro rfl
          cases hc
        have hminus : c ≠ 45 := by
          rintro rfl
          cases hc
        rw [parseInt, if_neg hplus, if_neg hminus, parseNat_eq_some.mpr ⟨hdigits, rfl⟩]
        rfl
    | plus hdigits =>
      rw [parseInt, if_pos rfl, parseNat_eq_some.mpr ⟨hdigits, rfl⟩]
      rfl
    | minus hdigits =>
      rw [parseInt, if_neg (by decide), if_pos rfl, parseNat_eq_some.mpr ⟨hdigits, rfl⟩]
      rfl

/-- The text of a whole number has no other bytes than digits and a sign. -/
theorem IntText.bytes (h : IntText t n) : ∀ c ∈ t, isDigit c = true ∨ c = 43 ∨ c = 45 := by
  intro c hc
  cases h with
  | unsigned hdigits => exact .inl (hdigits.2 c hc)
  | plus hdigits =>
    rcases List.mem_cons.mp hc with rfl | hc
    · exact .inr (.inl rfl)
    · exact .inl (hdigits.2 c hc)
  | minus hdigits =>
    rcases List.mem_cons.mp hc with rfl | hc
    · exact .inr (.inr rfl)
    · exact .inl (hdigits.2 c hc)

theorem not_point_of_isDigit {c : UInt8} (h : isDigit c = true ∨ c = 43 ∨ c = 45) :
    isPoint c = false := by
  rcases h with h | rfl | rfl
  · refine eq_false_of_ne_true fun hc => ?_
    rw [isPoint, beq_iff_eq] at hc
    rw [hc] at h
    cases h
  · decide
  · decide

theorem not_mark_of_isDigit {c : UInt8} (h : isDigit c = true ∨ c = 43 ∨ c = 45) :
    isMark c = false := by
  rcases h with h | rfl | rfl
  · refine eq_false_of_ne_true fun hc => ?_
    rw [isMark, Bool.or_eq_true, beq_iff_eq, beq_iff_eq] at hc
    rcases hc with rfl | rfl <;> cases h
  · decide
  · decide

theorem parsePoint_eq_some {k : ℕ} : parsePoint t = some (n, k) ↔ PointText t n k := by
  constructor
  · intro h
    unfold parsePoint at h
    split at h
    · obtain ⟨m, hm, heq⟩ := Option.map_eq_some_iff.mp h
      cases heq
      exact .whole (parseInt_eq_some.mp hm)
    · rename_i a b hcut
      obtain ⟨c, hc, rfl, -⟩ := cut_eq_some hcut
      obtain rfl : c = 46 := beq_iff_eq.mp hc
      obtain ⟨-, heq⟩ := Option.ite_none_left_eq_some.mp h
      obtain ⟨m, hm, heq⟩ := Option.map_eq_some_iff.mp heq
      cases heq
      exact .point (parseInt_eq_some.mp hm)
  · intro h
    cases h with
    | whole hint =>
      have hcut : cut isPoint t = none :=
        cut_eq_none.mpr fun c hc => not_point_of_isDigit (hint.bytes c hc)
      rw [parsePoint, hcut, parseInt_eq_some.mpr hint]
      rfl
    | @point a b _ hint =>
      have hno : ∀ c ∈ a ++ b, isPoint c = false := fun c hc => not_point_of_isDigit (hint.bytes c hc)
      have hcut : cut isPoint (a ++ 46 :: b) = some (a, b) :=
        cut_append (fun c hc => hno c (List.mem_append_left b hc)) rfl
      have hone : ¬ b.any isPoint = true := by
        rw [List.any_eq_true]
        rintro ⟨c, hc, hpoint⟩
        cases (hno c (List.mem_append_right a hc)).symm.trans hpoint
      rw [parsePoint, hcut]
      simp only [if_neg hone, parseInt_eq_some.mpr hint]
      rfl

theorem PointText.not_mark {k : ℕ} (h : PointText t n k) : ∀ c ∈ t, isMark c = false := by
  intro c hc
  cases h with
  | whole hint => exact not_mark_of_isDigit (hint.bytes c hc)
  | point hint =>
    rcases List.mem_append.mp hc with ha | hb
    · exact not_mark_of_isDigit (hint.bytes c (List.mem_append_left _ ha))
    · rcases List.mem_cons.mp hb with rfl | hb
      · decide
      · exact not_mark_of_isDigit (hint.bytes c (List.mem_append_right _ hb))

/-- **The reader accepts the notation**, and gives the number that is denoted. -/
theorem parse_eq_some {e : ℤ} : parse t = some (n, e) ↔ Denotes t n e := by
  constructor
  · intro h
    unfold parse at h
    split at h
    · obtain ⟨⟨m, k⟩, hpoint, heq⟩ := Option.map_eq_some_iff.mp h
      cases heq
      exact .plain (parsePoint_eq_some.mp hpoint)
    · rename_i t u hcut
      obtain ⟨c, hc, rfl, -⟩ := cut_eq_some hcut
      obtain ⟨x, hx, h⟩ := Option.bind_eq_some_iff.mp h
      obtain ⟨⟨m, k⟩, hpoint, heq⟩ := Option.map_eq_some_iff.mp h
      cases heq
      exact .scientific (parsePoint_eq_some.mp hpoint) hc (parseInt_eq_some.mp hx)
  · intro h
    cases h with
    | plain hpoint =>
      rw [parse, cut_eq_none.mpr hpoint.not_mark]
      simp only [parsePoint_eq_some.mpr hpoint]
      rfl
    | scientific hpoint hc hint =>
      rw [parse, cut_append hpoint.not_mark hc]
      simp only [parseInt_eq_some.mpr hint, parsePoint_eq_some.mpr hpoint]
      rfl

/-- A text denotes one number. -/
theorem Denotes.unique {e n' e' : ℤ} (h : Denotes t n e) (h' : Denotes t n' e') : n = n' ∧ e = e' :=
  Prod.mk.inj (Option.some.inj ((parse_eq_some.mpr h).symm.trans (parse_eq_some.mpr h')))

/-! ## Plain numerals -/

theorem isPoint_of_isDigits (h : IsDigits t) : ∀ c ∈ t, isPoint c = false :=
  fun c hc => not_point_of_isDigit (.inl (h.2 c hc))

theorem places_digits (h : IsDigits t) : places t = some 0 := by
  rw [places, cut_eq_none.mpr (isPoint_of_isDigits h)]
  exact if_pos h

theorem places_point {a b : Bytes} (ha : IsDigits a) (hb : IsDigits b) :
    places (a ++ 46 :: b) = some b.length := by
  rw [places, cut_append (isPoint_of_isDigits ha) rfl]
  exact if_pos ⟨ha, hb⟩

/-- What a plain numeral denotes, with and without a sign. -/
theorem pointText_of_places {k : ℕ} (h : places t = some k) :
    ∃ n : ℕ, PointText t n k ∧ PointText (45 :: t) (-(n : ℤ)) k := by
  unfold places at h
  split at h
  · obtain ⟨hdigits, hk⟩ := Option.ite_none_right_eq_some.mp h
    obtain rfl : 0 = k := Option.some.inj hk
    exact ⟨_, .whole (.unsigned hdigits), .whole (.minus hdigits)⟩
  · rename_i a b hcut
    obtain ⟨c, hc, rfl, -⟩ := cut_eq_some hcut
    obtain rfl : c = 46 := beq_iff_eq.mp hc
    obtain ⟨⟨ha, hb⟩, hk⟩ := Option.ite_none_right_eq_some.mp h
    obtain rfl : b.length = k := Option.some.inj hk
    have hdigits : IsDigits (a ++ b) := by
      refine ⟨fun hnil => ha.1 (List.append_eq_nil_iff.mp hnil).1, fun c hc => ?_⟩
      exact (List.mem_append.mp hc).elim (ha.2 c) (hb.2 c)
    exact ⟨_, .point (.unsigned hdigits), .point (a := 45 :: a) (.minus hdigits)⟩

/-! ## The text of whole numbers -/

theorem isDigits_natText (n : ℕ) : IsDigits (natText n) := by
  refine ⟨natText_ne_nil n, fun c hc => ?_⟩
  obtain ⟨hlow, hhigh⟩ := mem_natText hc
  simp [isDigit, hlow, hhigh]

theorem intText_itoa (n : ℤ) : IntText (itoa n) n := by
  unfold itoa
  split
  · rename_i hneg
    have htext := IntText.minus (isDigits_natText n.natAbs)
    have hn : -(n.natAbs : ℤ) = n := by omega
    rwa [natOfText_natText, hn] at htext
  · rename_i hnonneg
    have htext := IntText.unsigned (isDigits_natText n.natAbs)
    rw [natOfText_natText] at htext
    rwa [Int.natAbs_of_nonneg (Int.not_lt.mp hnonneg)] at htext

/-- The text of a whole number is a plain numeral, with or without a sign. -/
theorem exists_places_itoa (n : ℤ) :
    ∃ t, (itoa n = t ∨ itoa n = 45 :: t) ∧ places t = some 0 := by
  refine ⟨natText n.natAbs, ?_, places_digits (isDigits_natText _)⟩
  unfold itoa
  split
  · exact .inr rfl
  · exact .inl rfl

end HstongApi.Numeral
