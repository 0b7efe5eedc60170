import HstongApi.RatText
import HstongApi.TradingOrders

/-!
# Amounts of cash orders

`Entrust` and `ChangeEntrust` of the released package `trade`, and the checks of amounts of the
packages `algo` and `future`.

The checks of `algo` and `future` accept the plain decimals that are greater than zero
(`isPositiveDecimal_iff` and `yields_validateQuantity`). The check of `trade` asks `big.Rat`, which
reads fractions, exponents, signs, separators and other bases as well. What it accepts is a plain
decimal exactly if it is made of digits and points with a digit at both ends (`accepted_plain_iff`).
-/

namespace HstongApi

open Checked RatText

open Numeral (isDigit IsDigits)

/-! ## Digits that are not all zero -/

/-- A number is zero exactly if all its digits are. -/
theorem natOfText_pos_iff {t : Bytes} (ht : ∀ c ∈ t, isDigit c = true) :
    0 < natOfText t ↔ t.any (· != 48) = true := by
  induction t using List.reverseRecOn with
  | nil => decide
  | append_singleton t c ih =>
    have hc := Dates.isDigit_iff.mp (ht c (by simp))
    have hzero : c = 48 ↔ c.toNat - 48 = 0 := by
      rw [← UInt8.toNat_inj]
      change c.toNat = 48 ↔ _
      omega
    rw [Dates.natOfText_snoc, List.any_append, Bool.or_eq_true,
      ← ih fun d hd => ht d (List.mem_append_left _ hd), List.any_cons, List.any_nil, Bool.or_false,
      bne_iff_ne, Ne, hzero]
    omega

variable {s : Bytes}

/-- The plain decimals that are greater than zero. -/
theorem plain_pos_iff : (∃ q k, Plain s q k ∧ 0 < q) ↔
    (IsDigits s ∧ s.any (· != 48) = true) ∨
      ∃ a b, s = a ++ 46 :: b ∧ IsDigits a ∧ IsDigits b ∧ (a ++ b).any (· != 48) = true := by
  constructor
  · rintro ⟨q, k, hplain, hpos⟩
    cases hplain with
    | whole ha => exact .inl ⟨ha, (natOfText_pos_iff ha.2).mp (by exact_mod_cast hpos)⟩
    | @point a b ha hb =>
      have hnat : 0 < natOfText (a ++ b) := by
        by_contra hzero
        simp [Nat.eq_zero_of_not_pos hzero] at hpos
      refine .inr ⟨a, b, rfl, ha, hb, (natOfText_pos_iff fun c hc => ?_).mp hnat⟩
      exact (List.mem_append.mp hc).elim (ha.2 c) (hb.2 c)
  · rintro (⟨hs, hany⟩ | ⟨a, b, rfl, ha, hb, hany⟩)
    · exact ⟨_, _, .whole hs, by exact_mod_cast (natOfText_pos_iff hs.2).mpr hany⟩
    · have hnat := (natOfText_pos_iff fun c hc => (List.mem_append.mp hc).elim (ha.2 c) (hb.2 c)).mpr
        hany
      exact ⟨_, _, .point ha hb, div_pos (by exact_mod_cast hnat) (by positivity)⟩

/-! ## The package `algo` -/

variable {a : Bytes}

namespace Algo

/-- The variables of the loop of `isPositiveDecimal`. -/
structure Tally where
  intDigits : ℕ := 0
  fracDigits : ℕ := 0
  dot : Bool := false
  nonzero : Bool := false

/-- A round of the loop. -/
def Tally.step (t : Tally) (c : UInt8) : Option Tally :=
  if isDigit c then
    let counted := if t.dot then { t with fracDigits := t.fracDigits + 1 }
      else { t with intDigits := t.intDigits + 1 }
    some { counted with nonzero := t.nonzero || c != 48 }
  else if c = 46 then if t.dot then none else some { t with dot := true }
  else none

/-- `isPositiveDecimal` -/
def isPositiveDecimal (s : Bytes) : Bool :=
  if s = [] then false
  else match s.foldlM Tally.step {} with
    | none => false
    | some t => if t.intDigits = 0 ∨ t.dot = true ∧ t.fracDigits = 0 then false else t.nonzero

/-- Digits are counted on their side of the point. -/
theorem foldlM_digits (ha : ∀ c ∈ a, isDigit c = true) (t : Tally) (r : Bytes) :
    (a ++ r).foldlM Tally.step t = r.foldlM Tally.step
      { t with
        intDigits := if t.dot then t.intDigits else t.intDigits + a.length
        fracDigits := if t.dot then t.fracDigits + a.length else t.fracDigits
        nonzero := t.nonzero || a.any (· != 48) } := by
  induction a generalizing t with
  | nil => simp
  | cons c a ih =>
    obtain ⟨hc, ha⟩ := List.forall_mem_cons.mp ha
    have hstep : t.step c = some { t with
        intDigits := if t.dot then t.intDigits else t.intDigits + 1
        fracDigits := if t.dot then t.fracDigits + 1 else t.fracDigits
        nonzero := t.nonzero || c != 48 } := by
      rw [Tally.step, if_pos hc]
      cases t.dot <;> rfl
    rw [List.cons_append, List.foldlM_cons, hstep, Option.bind_eq_bind, Option.bind_some, ih ha]
    cases t.dot <;> simp [Bool.or_assoc, Nat.add_assoc, Nat.add_comm 1]

theorem step_other {c : UInt8} (hc : isDigit c = false) (t : Tally) :
    t.step c = if c = 46 ∧ t.dot = false then some { t with dot := true } else none := by
  rw [Tally.step, if_neg (by simp [hc])]
  by_cases hpoint : c = 46
  · cases hdot : t.dot <;> simp [hpoint]
  · simp [hpoint]

theorem isPositiveDecimal_digits (ha : ∀ c ∈ a, isDigit c = true) :
    isPositiveDecimal a = true ↔ a ≠ [] ∧ a.any (· != 48) = true := by
  have hloop := foldlM_digits ha {} []
  rw [List.append_nil] at hloop
  rw [isPositiveDecimal, hloop]
  simp

theorem isPositiveDecimal_point {b : Bytes} (ha : ∀ c ∈ a, isDigit c = true)
    (hb : ∀ c ∈ b, isDigit c = true) : isPositiveDecimal (a ++ 46 :: b) = true ↔
      (a ≠ [] ∧ b ≠ []) ∧ (a ++ b).any (· != 48) = true := by
  have hloop := foldlM_digits hb { intDigits := a.length, dot := true, nonzero := a.any (· != 48) } []
  rw [List.append_nil] at hloop
  rw [isPositiveDecimal, foldlM_digits ha, List.foldlM_cons, step_other (by decide)]
  simp [hloop]

/-- **What `algo` accepts**: the plain decimals that are greater than zero. -/
theorem isPositiveDecimal_iff : isPositiveDecimal s = true ↔ ∃ q k, Plain s q k ∧ 0 < q := by
  rw [plain_pos_iff]
  constructor
  · intro h
    rcases digits_or s with hs | ⟨a, c, r, ha, hc, rfl⟩
    · obtain ⟨hne, hany⟩ := (isPositiveDecimal_digits hs).mp h
      exact .inl ⟨⟨hne, hs⟩, hany⟩
    by_cases hpoint : c = 46
    · subst hpoint
      rcases digits_or r with hb | ⟨b, d, u, hb, hd, rfl⟩
      · obtain ⟨⟨hane, hbne⟩, hany⟩ := (isPositiveDecimal_point ha hb).mp h
        exact .inr ⟨a, r, rfl, ⟨hane, ha⟩, ⟨hbne, hb⟩, hany⟩
      · -- the loop ends at the second byte that is no digit
        simp [isPositiveDecimal, foldlM_digits ha, step_other hc, foldlM_digits hb,
          step_other hd] at h
    · simp [isPositiveDecimal, foldlM_digits ha, step_other hc, hpoint] at h
  · rintro (⟨hs, hany⟩ | ⟨a, b, rfl, ha, hb, hany⟩)
    · exact (isPositiveDecimal_digits hs.2).mpr ⟨hs.1, hany⟩
    · exact (isPositiveDecimal_point ha.2 hb.2).mpr ⟨⟨ha.1, hb.1⟩, hany⟩

end Algo

/-! ## The package `future` -/

namespace Future

/-- `decimalPattern`: the texts that match `^[0-9]+(\.[0-9]+)?$` -/
def decimalPattern (s : Bytes) : Bool :=
  match Numeral.cut Numeral.isPoint s with
  | none => s ≠ [] && s.all isDigit
  | some (a, b) => (a ≠ [] && a.all isDigit) && (b ≠ [] && b.all isDigit)

/-- `isZeroDecimal` -/
def isZeroDecimal (s : Bytes) : Bool := s.all fun r => r == 48 || r == 46

/-- `validateQuantity` -/
def validateQuantity (op field q : Bytes) : Checked Unit := do
  reject (¬decimalPattern q) (.new GoError.statusInvalidParam op
    (field ++ bytes " must be a non-negative decimal number"))
  reject (isZeroDecimal q) (.new GoError.statusInvalidParam op
    (field ++ bytes " must be greater than zero"))

theorem isDigits_iff : (decide (a ≠ []) && a.all isDigit) = true ↔ IsDigits a := by
  rw [Bool.and_eq_true, decide_eq_true_eq, List.all_eq_true, IsDigits]

theorem not_isPoint (ha : IsDigits a) : ∀ c ∈ a, Numeral.isPoint c = false :=
  fun c hc => Numeral.not_point_of_isDigit (.inl (ha.2 c hc))

/-- **The pattern**: digits, or digits, a point and digits. -/
theorem decimalPattern_iff : decimalPattern s = true ↔
    IsDigits s ∨ ∃ a b, s = a ++ 46 :: b ∧ IsDigits a ∧ IsDigits b := by
  constructor
  · intro h
    unfold decimalPattern at h
    split at h
    · exact .inl (isDigits_iff.mp h)
    · rename_i a b hcut
      obtain ⟨c, hc, rfl, -⟩ := Numeral.cut_eq_some hcut
      obtain rfl : c = 46 := beq_iff_eq.mp hc
      rw [Bool.and_eq_true, isDigits_iff, isDigits_iff] at h
      exact .inr ⟨a, b, rfl, h.1, h.2⟩
  · rintro (hs | ⟨a, b, rfl, ha, hb⟩)
    · rw [decimalPattern, Numeral.cut_eq_none.mpr (not_isPoint hs)]
      exact isDigits_iff.mpr hs
    · rw [decimalPattern, Numeral.cut_append (not_isPoint ha) rfl]
      exact Bool.and_eq_true_iff.mpr ⟨isDigits_iff.mpr ha, isDigits_iff.mpr hb⟩

theorem not_isZeroDecimal_iff (ha : ∀ c ∈ a, isDigit c = true) :
    ¬isZeroDecimal a = true ↔ a.any (· != 48) = true := by
  have hbyte : ∀ c ∈ a, (c == 48 || c == 46) = (c == 48) := by
    intro c hc
    rw [beq_false_of_ne (digitValue_of_isDigit (ha c hc)).1, Bool.or_false]
  rw [isZeroDecimal, List.any_eq_not_all_not, Bool.not_eq_true, Bool.not_eq_true']
  simp only [List.all_eq_false]
  exact exists_congr fun c => and_congr_right fun hc => by simp [hbyte c hc]

/-- The point is not looked at. -/
theorem isZeroDecimal_point (a b : Bytes) :
    isZeroDecimal (a ++ 46 :: b) = isZeroDecimal (a ++ b) := by
  simp [isZeroDecimal]

/-- **What `future` accepts**: the plain decimals that are greater than zero. -/
theorem yields_validateQuantity {op field q : Bytes} :
    Yields (validateQuantity op field q) () ↔ ∃ x k, Plain q x k ∧ 0 < x := by
  simp only [validateQuantity, yields_then, yields_reject, not_not, decimalPattern_iff,
    plain_pos_iff]
  have hboth : ∀ {a b : Bytes}, IsDigits a → IsDigits b → ∀ c ∈ a ++ b, isDigit c = true :=
    fun ha hb c hc => (List.mem_append.mp hc).elim (ha.2 c) (hb.2 c)
  constructor
  · rintro ⟨hs | ⟨a, b, rfl, ha, hb⟩, hzero⟩
    · exact .inl ⟨hs, (not_isZeroDecimal_iff hs.2).mp hzero⟩
    · rw [isZeroDecimal_point] at hzero
      exact .inr ⟨a, b, rfl, ha, hb, (not_isZeroDecimal_iff (hboth ha hb)).mp hzero⟩
  · rintro (⟨hs, hany⟩ | ⟨a, b, rfl, ha, hb, hany⟩)
    · exact ⟨.inl hs, (not_isZeroDecimal_iff hs.2).mpr hany⟩
    · rw [isZeroDecimal_point]
      exact ⟨.inr ⟨a, b, rfl, ha, hb⟩, (not_isZeroDecimal_iff (hboth ha hb)).mpr hany⟩

end Future

/-- **The checks agree**: the scanner of `algo` accepts the plain decimals that are greater than zero,
and so does the pattern of `future` with its test for zero. -/
theorem positiveDecimal_exact (s : Bytes) :
    (Algo.isPositiveDecimal s = true ↔ ∃ q k, Plain s q k ∧ 0 < q) ∧
      ∀ op field, Yields (Future.validateQuantity op field s) () ↔
        Algo.isPositiveDecimal s = true := by
  refine ⟨Algo.isPositiveDecimal_iff, fun op field => ?_⟩
  rw [Future.yields_validateQuantity, Algo.isPositiveDecimal_iff]

/-! ## The package `trade` -/

namespace Trade

/-- `invalid` -/
def invalid (op message : Bytes) : GoError := .new GoError.statusInvalidParam op message

/-- `opEntrust` -/
def opEntrust : Bytes := bytes "trade/TradeEntrust"

/-- `opChangeEntrust` -/
def opChangeEntrust : Bytes := bytes "trade/TradeChangeEntrust"

/-- `EntrustRequest` -/
structure EntrustRequest where
  exchangeType : Bytes
  stockCode : Bytes
  entrustAmount : Bytes
  entrustPrice : Bytes := []
  entrustBS : Bytes
  entrustType : Bytes
  clientType : ℤ := 0
  exchange : Bytes := []
  sessionType : Bytes := []
  iceBergDisplaySize : Bytes := []
  validDays : Bytes := []
  condValue : Bytes := []
  condTrackType : Bytes := []
  deriving DecidableEq

/-- `ChangeEntrustRequest` -/
structure ChangeEntrustRequest where
  exchangeType : Bytes
  stockCode : Bytes
  entrustAmount : Bytes
  entrustPrice : Bytes := []
  entrustID : Bytes
  entrustType : Bytes := []
  sessionType : Bytes := []
  validDays : Bytes := []
  condValue : Bytes := []
  condTrackType : Bytes := []
  deriving DecidableEq

/-! ### Checks -/

/-- `validExchange` -/
def validExchange (e : Bytes) : Bool := e ∈ [bytes "K", bytes "P", bytes "v", bytes "t"]

/-- `validDirection` -/
def validDirection (bs : Bytes) : Bool := bs ∈ [bytes "1", bytes "2", bytes "3", bytes "4"]

/-- `isConditional` -/
def isConditional (t : Bytes) : Bool :=
  t ∈ [bytes "31", bytes "32", bytes "33", bytes "34", bytes "35", bytes "36"]

/-- `isIceberg` -/
def isIceberg (t : Bytes) : Bool := t ∈ [bytes "8", bytes "9"]

/-- `priceOptional` -/
def priceOptional (t : Bytes) : Bool :=
  t ∈ [bytes "5", bytes "8", bytes "10"] || isConditional t

/-- `parsePositive` -/
def parsePositive (s : Bytes) : Option ℚ :=
  if s = [] then none else (setString s).filter (0 < ·)

/-- `maxValidDays` -/
def maxValidDays : ℤ := 100

/-- `validateValidDays`; a number that `Atoi` refuses for its size is out of range anyway. -/
def validateValidDays (op validDays : Bytes) : Checked Unit := do
  reject (validDays = []) (invalid op (bytes "validDays is required for a conditional order"))
  reject (∀ n, Numeral.parseInt validDays = some n → n < 1 ∨ maxValidDays < n)
    (invalid op (bytes "validDays must be an integer between 1 and 100"))

section

-- `strconv.Quote`, for `%q`; it depends on the table of the characters that can be printed
variable (quote : Bytes → Bytes)

/-- `invalidExchange` -/
def invalidExchange (op e : Bytes) : GoError :=
  invalid op (bytes "exchangeType " ++ quote e ++ bytes (" is not one of K (Hong Kong), P (US), " ++
    "v (Shenzhen Connect), t (Shanghai Connect)"))

/-- `invalidDirection` -/
def invalidDirection (op bs : Bytes) : GoError :=
  invalid op (bytes "entrustBs " ++ quote bs ++ bytes (" is not one of 1 (open long), " ++
    "2 (close long), 3 (close short), 4 (open short)"))

/-- `validateExchange` -/
def validateExchange (op e : Bytes) : Checked Unit := do
  reject (e = []) (invalid op (bytes "exchangeType is required"))
  reject (¬validExchange e) (invalidExchange quote op e)

/-- `EntrustRequest.validate` -/
def EntrustRequest.validate (r : EntrustRequest) : Checked Unit := do
  validateExchange quote opEntrust r.exchangeType
  reject (r.stockCode = []) (invalid opEntrust (bytes "stockCode is required"))
  let amount ← require (parsePositive r.entrustAmount)
    (invalid opEntrust (bytes "entrustAmount must be a decimal number greater than zero"))
  reject (r.entrustBS = []) (invalid opEntrust (bytes "entrustBs is required"))
  reject (¬validDirection r.entrustBS) (invalidDirection quote opEntrust r.entrustBS)
  reject (r.entrustType = []) (invalid opEntrust (bytes "entrustType is required"))
  reject (¬priceOptional r.entrustType ∧ r.entrustPrice = [])
    (invalid opEntrust (bytes "entrustPrice is required for this order type"))
  onlyIf (isConditional r.entrustType) do
    reject (r.condValue = [])
      (invalid opEntrust (bytes "condValue is required for a conditional order"))
    validateValidDays opEntrust r.validDays
  onlyIf (isIceberg r.entrustType) do
    let display ← require (parsePositive r.iceBergDisplaySize) (invalid opEntrust (bytes
      "iceBergDisplaySize must be a decimal number greater than zero for an iceberg order"))
    reject (amount < display)
      (invalid opEntrust (bytes "iceBergDisplaySize must not exceed entrustAmount"))

/-- `ChangeEntrustRequest.validate` -/
def ChangeEntrustRequest.validate (r : ChangeEntrustRequest) : Checked Unit := do
  validateExchange quote opChangeEntrust r.exchangeType
  reject (r.stockCode = []) (invalid opChangeEntrust (bytes "stockCode is required"))
  let _ ← require (parsePositive r.entrustAmount)
    (invalid opChangeEntrust (bytes "entrustAmount must be a decimal number greater than zero"))
  reject (r.entrustID = []) (invalid opChangeEntrust (bytes "entrustId is required"))
  onlyIf (isConditional r.entrustType) do
    reject (r.condValue = [])
      (invalid opChangeEntrust (bytes "condValue is required for a conditional order"))
    validateValidDays opChangeEntrust r.validDays

/-- `Manager.Entrust` -/
def entrust (req : EntrustRequest) : Call EntrustRequest Bytes Bytes :=
  .send opEntrust (bytes "/trade/TradeEntrust")
    (do
      req.validate quote
      return req)
    pure

/-- `Manager.ChangeEntrust` -/
def changeEntrust (req : ChangeEntrustRequest) : Call ChangeEntrustRequest Bytes Bytes :=
  .send opChangeEntrust (bytes "/trade/TradeChangeEntrust")
    (do
      req.validate quote
      return req)
    pure

end

/-! ### Amounts -/

theorem parsePositive_eq_some {q : ℚ} :
    parsePositive s = some q ↔ setString s = some q ∧ 0 < q := by
  unfold parsePositive
  split
  · rename_i hnil
    subst hnil
    exact iff_of_false nofun (fun h => nomatch h.1)
  · rw [Option.filter_eq_some_iff, decide_eq_true_eq]

/-- **A positive plain decimal**, which `algo` and `future` accept as well. -/
structure PlainAmount (s : Bytes) (q : ℚ) : Prop where
  plain : ∃ k, Plain s q k
  pos : 0 < q
  algo : Algo.isPositiveDecimal s = true
  future : ∀ op field, Yields (Future.validateQuantity op field s) ()

/-- **Of the amounts that are accepted**, the clean ones are plain, and the others are not. -/
theorem plainAmount_iff_clean {q : ℚ} (h : parsePositive s = some q) :
    PlainAmount s q ↔ Clean s := by
  obtain ⟨hread, hpos⟩ := parsePositive_eq_some.mp h
  rw [← plain_iff_clean hread]
  constructor
  · exact PlainAmount.plain
  · rintro ⟨k, hplain⟩
    exact ⟨⟨k, hplain⟩, hpos, Algo.isPositiveDecimal_iff.mpr ⟨q, k, hplain, hpos⟩,
      fun _ _ => Future.yields_validateQuantity.mpr ⟨q, k, hplain, hpos⟩⟩

/-- A text denotes at most one number. -/
theorem eq_of_plainAmount {q x : ℚ} (h : parsePositive s = some q) (hplain : PlainAmount s x) :
    x = q := by
  obtain ⟨k, hk⟩ := hplain.plain
  have hread := (parsePositive_eq_some.mp h).1
  rw [setString_plain hk, Option.ite_none_right_eq_some, Option.some.injEq] at hread
  exact hread.2

/-- **The amounts of an order are plain**, and it does not show more than there is. -/
def EntrustRequest.PlainAmounts (r : EntrustRequest) : Prop :=
  ∃ amount, PlainAmount r.entrustAmount amount ∧
    (isIceberg r.entrustType = true →
      ∃ display, PlainAmount r.iceBergDisplaySize display ∧ display ≤ amount)

/-- The numbers of an order that is accepted. -/
theorem amounts_of_validate {quote : Bytes → Bytes} {r : EntrustRequest}
    (h : Yields (r.validate quote) ()) :
    ∃ amount, parsePositive r.entrustAmount = some amount ∧
      (isIceberg r.entrustType = true →
        ∃ display, parsePositive r.iceBergDisplaySize = some display ∧ display ≤ amount) := by
  simp only [EntrustRequest.validate, yields_then] at h
  obtain ⟨-, -, h⟩ := h
  obtain ⟨amount, hamount, h⟩ := yields_bind.mp h
  simp only [yields_then, yields_onlyIf] at h
  obtain ⟨-, -, -, -, -, hiceberg⟩ := h
  refine ⟨amount, yields_require.mp hamount, fun htype => ?_⟩
  obtain ⟨display, hdisplay, hle⟩ := yields_bind.mp (hiceberg htype)
  exact ⟨display, yields_require.mp hdisplay, not_lt.mp (yields_reject.mp hle)⟩

theorem amount_of_change {quote : Bytes → Bytes} {r : ChangeEntrustRequest}
    (h : Yields (r.validate quote) ()) : ∃ amount, parsePositive r.entrustAmount = some amount := by
  simp only [ChangeEntrustRequest.validate, yields_then] at h
  obtain ⟨-, -, h⟩ := h
  obtain ⟨amount, hamount, -⟩ := yields_bind.mp h
  exact ⟨amount, yields_require.mp hamount⟩

/-- **When the amounts of an accepted order are plain**: exactly if they are made of digits and
points, with a digit at both ends. Of such texts the released cash orders accept those that the
other two packages accept, up to a million digits after the point. -/
theorem accepted_plain_iff (quote : Bytes → Bytes) :
    (∀ r : EntrustRequest, Yields (r.validate quote) () →
      (r.PlainAmounts ↔ Clean r.entrustAmount ∧
        (isIceberg r.entrustType = true → Clean r.iceBergDisplaySize))) ∧
    (∀ r : ChangeEntrustRequest, Yields (r.validate quote) () →
      ((∃ amount, PlainAmount r.entrustAmount amount) ↔ Clean r.entrustAmount)) ∧
    ∀ s : Bytes,
      ((∃ q, parsePositive s = some q) ∧ Clean s ↔ ∃ q k, Plain s q k ∧ 0 < q ∧ k ≤ 1000000) ∧
      (Algo.isPositiveDecimal s = true ↔ ∃ q k, Plain s q k ∧ 0 < q) ∧
      ∀ op field, Yields (Future.validateQuantity op field s) () ↔ ∃ q k, Plain s q k ∧ 0 < q := by
  refine ⟨fun r hr => ?_, fun r hr => ?_, fun s => ⟨?_, Algo.isPositiveDecimal_iff, fun _ _ =>
    Future.yields_validateQuantity⟩⟩
  · obtain ⟨amount, hamount, hiceberg⟩ := amounts_of_validate hr
    constructor
    · rintro ⟨x, hx, hdisplay⟩
      obtain rfl := eq_of_plainAmount hamount hx
      refine ⟨(plainAmount_iff_clean hamount).mp hx, fun htype => ?_⟩
      obtain ⟨y, hy, -⟩ := hdisplay htype
      obtain ⟨display, hread, -⟩ := hiceberg htype
      obtain rfl := eq_of_plainAmount hread hy
      exact (plainAmount_iff_clean hread).mp hy
    · rintro ⟨hclean, hdisplay⟩
      refine ⟨amount, (plainAmount_iff_clean hamount).mpr hclean, fun htype => ?_⟩
      obtain ⟨display, hread, hle⟩ := hiceberg htype
      exact ⟨display, (plainAmount_iff_clean hread).mpr (hdisplay htype), hle⟩
  · obtain ⟨amount, hamount⟩ := amount_of_change hr
    rw [← plainAmount_iff_clean hamount]
    refine ⟨?_, fun h => ⟨amount, h⟩⟩
    rintro ⟨x, hx⟩
    exact eq_of_plainAmount hamount hx ▸ hx
  · constructor
    · rintro ⟨⟨q, hq⟩, hclean⟩
      obtain ⟨hread, hpos⟩ := parsePositive_eq_some.mp hq
      obtain ⟨k, hplain⟩ := (plain_iff_clean hread).mpr hclean
      rw [setString_plain hplain, Option.ite_none_right_eq_some] at hread
      exact ⟨q, k, hplain, hpos, hread.1.resolve_left hpos.ne'⟩
    · rintro ⟨q, k, hplain, hpos, hk⟩
      have hread : setString s = some q := by rw [setString_plain hplain, if_pos (.inr hk)]
      exact ⟨⟨q, parsePositive_eq_some.mpr ⟨hread, hpos⟩⟩, hplain.clean⟩

/-- An order for half a share, written as a fraction. -/
def halfOrder : EntrustRequest where
  exchangeType := bytes "K"
  stockCode := bytes "00700.HK"
  entrustAmount := bytes "1/2"
  entrustPrice := bytes "500"
  entrustBS := bytes "1"
  entrustType := bytes "3"

/-- A change of an order to the amount `1e3`. -/
def thousandChange : ChangeEntrustRequest where
  exchangeType := bytes "K"
  stockCode := bytes "00700.HK"
  entrustAmount := bytes "1e3"
  entrustID := bytes "1"

/-- Both are sent, though their amounts are not plain and the other packages refuse them. -/
theorem fraction_is_sent :
    (entrust id halfOrder).Sends halfOrder ∧ ¬halfOrder.PlainAmounts ∧
    Algo.isPositiveDecimal halfOrder.entrustAmount = false ∧
    (changeEntrust id thousandChange).Sends thousandChange ∧
    (¬∃ amount, PlainAmount thousandChange.entrustAmount amount) ∧
    Algo.isPositiveDecimal thousandChange.entrustAmount = false := by
  have hhalf : Algo.isPositiveDecimal halfOrder.entrustAmount = false := by decide +kernel
  have hthousand : Algo.isPositiveDecimal thousandChange.entrustAmount = false := by decide +kernel
  refine ⟨?_, ?_, hhalf, ?_, ?_, hthousand⟩
  · rw [entrust, Call.sends_send]
    decide +kernel
  · rintro ⟨amount, hamount, -⟩
    cases hhalf.symm.trans hamount.algo
  · rw [changeEntrust, Call.sends_send]
    decide +kernel
  · rintro ⟨amount, hamount⟩
    cases hthousand.symm.trans hamount.algo

end Trade

end HstongApi
