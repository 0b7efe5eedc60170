import HstongApi.TradingOrders

/-!
# Prices on their grid

Two pieces of code put a price on a grid. `Price.Round` rounds a price down to its own tick: it
divides by the tick, takes the floor and multiplies. `validatePriceForHK` accepts the price of a
stock if it is on the grid of its band.

The quotient in `Price.Round` has sixteen digits after the point. It is rounded before the floor is
taken, so a price that is less than `5 * 10 ^ -17` ticks below a multiple of the tick goes up to that
multiple (`Price.roundsDown_iff`). A price that is just so far below goes up if the decimal package
rounds that quotient up; which way it rounds is not known here.

The check of a stock is exact: it accepts the prices on the grid of their band, and those above the
highest band, for which there is no grid (`TradingService.stockPrices_exact`).

The tick of a futures product is written from its number of decimal places. What is written is a plain
numeral, and whoever reads it reads that power of ten, so the prices on the grid are those with no more
decimal places (`futuresTick_exact`). How many places the decimal package reads is a parameter.
-/

namespace HstongApi

open DecimalPackage

open Numeral (fractionDigits places)

/-! ## Rounding down -/

/-- The multiples of a tick up to a price. -/
def multiplesUpTo (tick price : ℚ) : Set ℚ := {x | (∃ k : ℤ, x = k * tick) ∧ x ≤ price}

theorem isGreatest_multiple_iff {tick price : ℚ} (htick : 0 < tick) {k : ℤ} :
    IsGreatest (multiplesUpTo tick price) (k * tick) ↔ k = ⌊price / tick⌋ := by
  have hle : ∀ m : ℤ, (m : ℚ) * tick ≤ price ↔ m ≤ ⌊price / tick⌋ := by
    intro m
    rw [Int.le_floor, le_div_iff₀ htick]
  constructor
  · rintro ⟨⟨-, hk⟩, hgreatest⟩
    apply le_antisymm ((hle k).mp hk)
    have hfloor := hgreatest ⟨⟨⌊price / tick⌋, rfl⟩, (hle _).mpr le_rfl⟩
    exact_mod_cast le_of_mul_le_mul_right hfloor htick
  · rintro rfl
    refine ⟨⟨⟨_, rfl⟩, (hle _).mpr le_rfl⟩, ?_⟩
    rintro _ ⟨⟨m, rfl⟩, hm⟩
    have hm' : (m : ℚ) ≤ ⌊price / tick⌋ := by exact_mod_cast (hle m).mp hm
    gcongr

/-- The precision of a quotient: half of its last digit. -/
def halfDigit : ℚ := 1 / (2 * 10 ^ 16)

/-- A number of sixteen digits that is next to another number. -/
structure IsRounded (x q : ℚ) : Prop where
  /-- sixteen digits -/
  digits : ∃ m : ℤ, q * 10 ^ 16 = m
  /-- no other such number is nearer -/
  near : |q - x| ≤ halfDigit

/-- Between a whole number and a number of sixteen digits there is at least one digit. -/
theorem IsRounded.le_of_lt {x q : ℚ} (h : IsRounded x q) {k : ℤ} (hlt : (k : ℚ) - 2 * halfDigit < q) :
    (k : ℚ) ≤ q := by
  obtain ⟨m, hm⟩ := h.digits
  have hlt : ((k * 10 ^ 16 - 1 : ℤ) : ℚ) < m := by
    rw [← hm]
    norm_num [halfDigit] at hlt ⊢
    linarith
  have hle : ((k * 10 ^ 16 : ℤ) : ℚ) ≤ m := by exact_mod_cast Int.le_of_sub_one_lt (by exact_mod_cast hlt)
  rw [← hm] at hle
  push_cast at hle
  linarith

/-- **The floor of a rounded quotient** is that of the exact one unless the exact one is just below a
whole number. -/
theorem IsRounded.floor_eq_iff {x q : ℚ} (h : IsRounded x q) : ⌊q⌋ = ⌊x⌋ ↔
    Int.fract x < 1 - halfDigit ∨ Int.fract x = 1 - halfDigit ∧ q < x := by
  obtain ⟨hlow, hhigh⟩ := abs_le.mp h.near
  have hx : (⌊x⌋ : ℚ) + Int.fract x = x := Int.floor_add_fract x
  have hpos : (0 : ℚ) < halfDigit := by norm_num [halfDigit]
  have hfract := Int.fract_nonneg x
  have hbelow : (⌊x⌋ : ℚ) ≤ q := h.le_of_lt (by linarith)
  rw [Int.floor_eq_iff, and_iff_right hbelow]
  rcases lt_trichotomy (Int.fract x) (1 - halfDigit) with hlt | heq | hgt
  · exact iff_of_true (by linarith) (.inl hlt)
  · rw [heq, or_iff_right (lt_irrefl _), and_iff_right rfl]
    constructor
    · intro hq
      by_contra hle
      -- a quotient that is not below the exact one is the next whole number
      have := h.le_of_lt (k := ⌊x⌋ + 1) (by push_cast; linarith)
      push_cast at this
      linarith
    · intro hq
      linarith
  · refine iff_of_false (not_lt.mpr ?_) ?_
    · exact_mod_cast h.le_of_lt (k := ⌊x⌋ + 1) (by push_cast; linarith)
    · rintro (hlt | ⟨heq, -⟩)
      · exact lt_asymm hgt hlt
      · exact hgt.ne' heq

section

variable [DecimalPackage]

/-- `Price.Round` -/
def Price.round (p : Price) : Except Panic Price :=
  if isZero p.tick then .ok p
  else do
    let quotient ← div p.dec p.tick
    let dec ← mul (floor quotient) p.tick
    return ⟨dec, p.tick⟩

/-- **Rounding down**: the rounded price is the greatest multiple of the tick that is not above the
price, and rounding it again does not change the number. -/
def Price.RoundsDown (p : Price) : Prop :=
  ∃ q, p.round = .ok q ∧ IsGreatest (multiplesUpTo p.tick.toRat p.dec.toRat) q.dec.toRat ∧
    ∃ q', q.round = .ok q' ∧ q'.dec.toRat = q.dec.toRat ∧ q'.tick = p.tick

variable [ExactArithmetic] [RoundedDivision]

/-- **What `Price.Round` computes** for a positive tick: the floor of the rounded quotient, in ticks. -/
theorem Price.round_spec (p : Price) (htick : 0 < p.tick.toRat) :
    ∃ quotient dec, div p.dec p.tick = .ok quotient ∧
      IsRounded (p.dec.toRat / p.tick.toRat) quotient.toRat ∧
      p.round = .ok ⟨dec, p.tick⟩ ∧ dec.toRat = ⌊quotient.toRat⌋ * p.tick.toRat := by
  obtain ⟨quotient, hdiv, hdigits, hnear⟩ := RoundedDivision.exists_div p.dec p.tick htick.ne'
  obtain ⟨dec, hmul, hrat⟩ := ExactArithmetic.exists_mul (floor quotient) p.tick
  have hzero : ¬isZero p.tick = true := mt (ExactArithmetic.isZero_iff _).mp htick.ne'
  refine ⟨quotient, dec, hdiv, ⟨hdigits, hnear⟩, ?_, ?_⟩
  · rw [Price.round, if_neg hzero, hdiv]
    simp only [bind, Except.bind, hmul]
    rfl
  · rw [hrat, ExactArithmetic.toRat_floor]

/-- A multiple of the tick is rounded to itself. -/
theorem Price.round_multiple {dec tick : Decimal} (htick : 0 < tick.toRat) {k : ℤ}
    (hdec : dec.toRat = k * tick.toRat) :
    ∃ dec', Price.round ⟨dec, tick⟩ = .ok ⟨dec', tick⟩ ∧ dec'.toRat = dec.toRat := by
  obtain ⟨quotient, dec', -, hrounded, hround, hrat⟩ := Price.round_spec ⟨dec, tick⟩ htick
  dsimp only at hrounded hrat
  rw [hdec, mul_div_cancel_right₀ _ htick.ne'] at hrounded
  have hfloor : ⌊quotient.toRat⌋ = k := by
    rw [hrounded.floor_eq_iff.mpr (.inl ?_), Int.floor_intCast]
    norm_num [Int.fract_intCast, halfDigit]
  exact ⟨dec', hround, by rw [hrat, hfloor, hdec]⟩

/-- **When a price is rounded down**: when it is not just below a multiple of the tick. For a price
that is half of the last digit below, the decimal package decides by the way it rounds. -/
theorem Price.roundsDown_iff (p : Price) (htick : 0 < p.tick.toRat) :
    p.RoundsDown ↔ Int.fract (p.dec.toRat / p.tick.toRat) < 1 - 1 / (2 * 10 ^ 16) ∨
      Int.fract (p.dec.toRat / p.tick.toRat) = 1 - 1 / (2 * 10 ^ 16) ∧
        ∃ quotient, div p.dec p.tick = .ok quotient ∧
          quotient.toRat < p.dec.toRat / p.tick.toRat := by
  obtain ⟨quotient, dec, hdiv, hrounded, hround, hrat⟩ := Price.round_spec p htick
  have hquotient : (∃ q, div p.dec p.tick = .ok q ∧ q.toRat < p.dec.toRat / p.tick.toRat) ↔
      quotient.toRat < p.dec.toRat / p.tick.toRat := by
    simp [hdiv]
  change _ ↔ Int.fract (p.dec.toRat / p.tick.toRat) < 1 - halfDigit ∨
    Int.fract (p.dec.toRat / p.tick.toRat) = 1 - halfDigit ∧ _
  rw [hquotient, ← hrounded.floor_eq_iff, ← isGreatest_multiple_iff htick, ← hrat]
  constructor
  · rintro ⟨q, hq, hgreatest, -⟩
    cases hround.symm.trans hq
    exact hgreatest
  · intro hgreatest
    obtain ⟨dec', hagain, hsame⟩ := Price.round_multiple htick hrat
    exact ⟨_, hround, hgreatest, _, hagain, hsame, rfl⟩

end

section

attribute [local instance] ScaledInt.scaledInts

/-- A tenth of a price is rounded down to a tick of one. -/
theorem Price.roundsDown_tenth : Price.RoundsDown ⟨⟨1, -1⟩, ⟨1, 0⟩⟩ := by
  have htick : 0 < ScaledInt.toRat ⟨1, 0⟩ := by norm_num [ScaledInt.toRat]
  refine (Price.roundsDown_iff ⟨⟨1, -1⟩, ⟨1, 0⟩⟩ htick).mpr (.inl ?_)
  have hfract : Int.fract ((1 : ℚ) / 10) = 1 / 10 := by
    rw [Int.fract_eq_self]
    norm_num
  change Int.fract (ScaledInt.toRat ⟨1, -1⟩ / ScaledInt.toRat ⟨1, 0⟩) < _
  norm_num [ScaledInt.toRat, hfract]

/-- A price that is raised: seventeen nines after the point, with a tick of one. -/
theorem Price.round_raises :
    ScaledInt.toRat ⟨1, 0⟩ = 1 ∧ ScaledInt.toRat ⟨99999999999999999, -17⟩ < 1 ∧
      Price.round ⟨⟨99999999999999999, -17⟩, ⟨1, 0⟩⟩ = .ok ⟨⟨1, 0⟩, ⟨1, 0⟩⟩ := by
  refine ⟨by norm_num [ScaledInt.toRat], by norm_num [ScaledInt.toRat], by decide +kernel⟩

end

/-! ## Stocks of Hong Kong -/

/-- What is found for a smaller number in a list of bands is not greater, if the bands grow. -/
theorem find?_mono {spreads : List (ℚ × ℚ)} (h : spreads.Pairwise fun b b' => b.2 ≤ b'.2) {x y : ℚ}
    (hxy : x ≤ y) {b' : ℚ × ℚ} (hy : spreads.find? (fun b => y ≤ b.1) = some b') :
    ∃ b, spreads.find? (fun b => x ≤ b.1) = some b ∧ b.2 ≤ b'.2 := by
  induction spreads with
  | nil => cases hy
  | cons b spreads ih =>
    obtain ⟨hfirst, hrest⟩ := List.pairwise_cons.mp h
    by_cases hx : x ≤ b.1
    · refine ⟨b, List.find?_cons_of_pos (decide_eq_true hx), ?_⟩
      rcases List.mem_cons.mp (List.mem_of_find?_eq_some hy) with rfl | hmem
      · exact le_rfl
      · exact hfirst b' hmem
    · have hy' : ¬y ≤ b.1 := fun hle => hx (hxy.trans hle)
      rw [List.find?_cons_of_neg (by simpa using hy')] at hy
      obtain ⟨c, hc, hle⟩ := ih hrest hy
      exact ⟨c, by rwa [List.find?_cons_of_neg (by simpa using hx)], hle⟩

/-- The tick of a stock does not decrease with the price. -/
theorem hkTick_mono {x y tick' : ℚ} (hxy : x ≤ y) (hy : hkTick dataTypeHKStock y = some tick') :
    ∃ tick, hkTick dataTypeHKStock x = some tick ∧ tick ≤ tick' := by
  rw [hkTick, if_pos rfl] at hy ⊢
  obtain ⟨b', hb', rfl⟩ := Option.map_eq_some_iff.mp hy
  have hgrow : hkSpreads.Pairwise fun b b' => b.2 ≤ b'.2 := by
    unfold hkSpreads
    decide +kernel
  obtain ⟨b, hb, hle⟩ := find?_mono hgrow hxy hb'
  exact ⟨b.2, by rw [hb]; rfl, hle⟩

/-- There is a tick only up to the highest band. -/
theorem le_of_hkTick {price tick : ℚ} (h : hkTick dataTypeHKStock price = some tick) :
    price ≤ 9995 := by
  rw [hkTick, if_pos rfl] at h
  obtain ⟨b, hb, -⟩ := Option.map_eq_some_iff.mp h
  have hupper : ∀ b ∈ hkSpreads, b.1 ≤ 9995 := by
    unfold hkSpreads
    decide +kernel
  have hprice : price ≤ b.1 := by simpa using List.find?_some hb
  exact hprice.trans (hupper b (List.mem_of_find?_eq_some hb))

/-- The price of a stock is above the highest band, or it is on the grid of its band. -/
def OnStockGrid (price : ℚ) : Prop :=
  9995 < price ∨
    0 ≤ price ∧ ∃ tick, hkTick dataTypeHKStock price = some tick ∧ ∃ k : ℤ, price = k * tick

/-- A quotient without a denominator is a whole number of times. -/
theorem exists_mul_of_den_eq_one {x y : ℚ} (hy : 0 < y) (h : (x / y).den = 1) :
    ∃ k : ℤ, x = k * y := by
  refine ⟨(x / y).num, ?_⟩
  rw [Rat.coe_int_num_of_den_eq_one h, div_mul_cancel₀ _ hy.ne']

/-- Members of a list have a property if those that stand for them have one. -/
theorem forall_mem_of_forall₂ {α β : Type} {R : α → β → Prop} {S : α → Prop} {T : β → Prop}
    (hst : ∀ a b, R a b → T b → S a) {l : List α} {l' : List β} (h : List.Forall₂ R l l')
    (hall : ∀ b ∈ l', T b) : ∀ a ∈ l, S a := by
  induction h with
  | nil => exact nofun
  | cons hab _ ih =>
    obtain ⟨hb, hall⟩ := List.forall_mem_cons.mp hall
    exact List.forall_mem_cons.mpr ⟨hst _ _ hab hb, ih hall⟩

/-- Neighbours in a list are related if those that stand for them are. -/
theorem isChain_of_forall₂ {α β : Type} {R : α → β → Prop} {S : α → α → Prop} {T : β → β → Prop}
    (hst : ∀ a a' b b', R a b → R a' b' → T b b' → S a a') {l : List α} {l' : List β}
    (h : List.Forall₂ R l l') (hchain : l'.IsChain T) : l.IsChain S := by
  induction h with
  | nil => exact .nil
  | cons hab hrest ih =>
    cases hrest with
    | nil => exact .singleton _
    | cons hcd hrest =>
      obtain ⟨hT, hchain⟩ := List.isChain_cons_cons.mp hchain
      exact List.isChain_cons_cons.mpr ⟨hst _ _ _ _ hab hcd hT, ih hchain⟩

section

variable [DecimalPackage] [LawfulReading] [ExactArithmetic]

/-- The text that the code finds for a price is that of its tick. -/
theorem exists_tick_of_text {p : Price} {text : Bytes} (h : hkStockTickAtPrice p = some text) :
    ∃ tick, hkTick dataTypeHKStock p.dec.toRat = some tick ∧ TickText text tick := by
  have hspec := hkStockTickAtPrice_spec p
  rw [h] at hspec
  generalize hkTick dataTypeHKStock p.dec.toRat = number at hspec ⊢
  cases hspec with
  | some hrel => exact ⟨_, rfl, hrel⟩

/-- It finds a text if there is a tick. -/
theorem exists_text_of_tick {p : Price} {tick : ℚ}
    (h : hkTick dataTypeHKStock p.dec.toRat = some tick) :
    ∃ text, hkStockTickAtPrice p = some text ∧ TickText text tick := by
  have hspec := hkStockTickAtPrice_spec p
  rw [h] at hspec
  generalize hkStockTickAtPrice p = text at hspec ⊢
  cases hspec with
  | some hrel => exact ⟨_, rfl, hrel⟩

/-- The upper bound of a band is on the grid of a tick, its own or that of another band. -/
theorem validateOn_upper {band band' : HkPriceBand} {spread spread' : ℚ × ℚ} (h : IsBand band spread)
    (h' : IsBand band' spread') (hnonneg : 0 ≤ spread.1) (hwhole : (spread.1 / spread'.2).den = 1) :
    Price.validateOn ⟨band.upper, zero⟩ band'.tick = .ok none := by
  obtain ⟨hpos, grid, hgrid, hrat⟩ := h'.2
  rw [← hrat] at hpos
  rw [Price.validateOn_iff hgrid hpos, h.1, hrat]
  exact ⟨hnonneg, exists_mul_of_den_eq_one (hrat ▸ hpos) hwhole⟩

namespace TradingService

open Checked

/-- The check accepts the price for a stock of Hong Kong. -/
def AcceptsStockPrice (p : Price) (sym : Symbol) : Prop :=
  Yields (validatePriceForHK p TickSchedule.resolver sym) ()

/-- The check of a price above the highest band, and of one in a band. -/
theorem acceptsStockPrice_iff (p : Price) {sym : Symbol}
    (hmarket : sym.market = .hk ∨ sym.market = .none) (hdtype : sym.dataType = dataTypeHKStock) :
    AcceptsStockPrice p sym ↔ OnStockGrid p.dec.toRat := by
  have hschedule : TickSchedule.scheduleForPrice sym p = hkStockTickAtPrice p := by
    unfold TickSchedule.scheduleForPrice
    rw [if_neg (fun h => hmarket.elim h.1 h.2), if_pos hdtype]
  simp only [AcceptsStockPrice, validatePriceForHK, resolveTickForPrice, TickSchedule.resolver,
    hschedule]
  cases htext : hkStockTickAtPrice p with
  | none =>
    refine iff_of_true rfl (.inl (not_le.mp ?_))
    intro hle
    obtain ⟨tick, htick⟩ := hkTick_isSome hle dataTypeHKStock
    obtain ⟨text, hsome, -⟩ := exists_text_of_tick htick
    cases htext.symm.trans hsome
  | some text =>
    obtain ⟨tick, htick, hpos, grid, hgrid, rfl⟩ := exists_tick_of_text htext
    have hbelow : ¬9995 < p.dec.toRat := not_lt.mpr (le_of_hkTick htick)
    simp only [OnStockGrid, yields_refuse, Price.validateOn_iff hgrid hpos, htick, hbelow, false_or,
      Option.some.injEq, exists_eq_left']

/-- **The check of stock prices is exact** for a price: it accepts the prices on the grid, the tick
does not decrease up to any higher price, and the upper bound of every band is on the grids of its own
band and of the next. -/
structure StockPricesExact (p : Price) : Prop where
  /-- the check accepts exactly the prices on the grid -/
  accepts : ∀ sym : Symbol, sym.market = .hk ∨ sym.market = .none →
    sym.dataType = dataTypeHKStock → (AcceptsStockPrice p sym ↔ OnStockGrid p.dec.toRat)
  /-- a higher price that has a tick has no smaller one -/
  monotone : ∀ (higher : Price) (text' : Bytes), p.dec.toRat ≤ higher.dec.toRat →
    hkStockTickAtPrice higher = some text' → ∃ text tick tick', hkStockTickAtPrice p = some text ∧
      TickText text tick ∧ TickText text' tick' ∧ tick ≤ tick'
  /-- the upper bound of a band is on its grid -/
  own : ∀ band ∈ hkStockPriceBands, Price.validateOn ⟨band.upper, zero⟩ band.tick = .ok none
  /-- and on the grid of the next band -/
  next : hkStockPriceBands.IsChain fun band next =>
    Price.validateOn ⟨band.upper, zero⟩ next.tick = .ok none

/-- **The check is exact** for every price. -/
theorem stockPrices_exact (p : Price) : StockPricesExact p where
  accepts _ hmarket hdtype := acceptsStockPrice_iff p hmarket hdtype
  monotone higher text' hle htext' := by
    obtain ⟨tick', htick', htick'text⟩ := exists_tick_of_text htext'
    obtain ⟨tick, htick, hmono⟩ := hkTick_mono hle htick'
    obtain ⟨text, htext, htickText⟩ := exists_text_of_tick htick
    exact ⟨text, tick, tick', htext, htickText, htick'text, hmono⟩
  own := by
    have hwhole : ∀ spread ∈ hkSpreads, 0 ≤ spread.1 ∧ (spread.1 / spread.2).den = 1 := by
      unfold hkSpreads
      decide +kernel
    refine forall_mem_of_forall₂ ?_ isBand_hkStockPriceBands hwhole
    rintro band spread h ⟨hnonneg, hden⟩
    exact validateOn_upper h h hnonneg hden
  next := by
    have hchain : hkSpreads.IsChain fun b b' => 0 ≤ b.1 ∧ (b.1 / b'.2).den = 1 := by
      unfold hkSpreads
      decide +kernel
    refine isChain_of_forall₂ ?_ isBand_hkStockPriceBands hchain
    rintro band band' spread spread' h h' ⟨hnonneg, hden⟩
    exact validateOn_upper h h' hnonneg hden

end TradingService

end

section

attribute [local instance] ScaledInt.scaledInts

/-- The price 350.4 of a stock is accepted: its tick is 0.2. -/
theorem TradingService.stockPrices_exact_fifths :
    TradingService.AcceptsStockPrice ⟨⟨3504, -1⟩, ⟨0, 0⟩⟩ ⟨.hk, [], dataTypeHKStock, [], []⟩ := by
  have hgrid : OnStockGrid (ScaledInt.toRat ⟨3504, -1⟩) := by
    have hrat : ScaledInt.toRat ⟨3504, -1⟩ = 1752 / 5 := by norm_num [ScaledInt.toRat]
    rw [hrat]
    exact .inr ⟨by norm_num, 1 / 5, by decide +kernel, 1752, by norm_num⟩
  exact ((TradingService.stockPrices_exact _).accepts _ (.inl rfl) rfl).mpr hgrid

end

/-! ## Futures -/

/-- `futuresZeroTick` -/
def futuresZeroTick : Bytes := bytes "0"

/-- `futuresTickString` -/
def futuresTickString (decInPrice : ℤ) : Bytes :=
  if decInPrice < 0 then futuresZeroTick
  else if decInPrice = 0 then bytes "1"
  else bytes "0." ++ List.replicate (decInPrice - 1).toNat 48 ++ [49]

/-- **The tick of a futures product**: a one, as many places after the point as the power says. -/
theorem denotes_futuresTickString (n : ℕ) :
    places (futuresTickString n) = some n ∧ Numeral.Denotes (futuresTickString n) 1 (-(n : ℤ)) := by
  rw [futuresTickString, if_neg (by omega)]
  split
  · rename_i hzero
    obtain rfl : n = 0 := by omega
    have hone : bytes "1" = itoa 1 := by decide +kernel
    rw [hone]
    exact ⟨by decide +kernel, .plain (.whole (Numeral.intText_itoa 1))⟩
  · rename_i hpos
    obtain ⟨m, rfl⟩ : ∃ m, n = m + 1 := ⟨n - 1, by omega⟩
    -- the digits are zeros and a one
    have hdigits : ∀ c ∈ List.replicate m (48 : UInt8) ++ [49], Numeral.isDigit c = true := by
      intro c hc
      rw [List.mem_append, List.mem_replicate, List.mem_singleton] at hc
      rcases hc with ⟨-, rfl⟩ | rfl <;> decide
    have hplaces := Numeral.places_point (a := [48]) (b := List.replicate m 48 ++ [49]) (by decide)
      ⟨by simp, hdigits⟩
    have hall : Numeral.IsDigits ([48] ++ (List.replicate m 48 ++ [49])) :=
      ⟨List.cons_ne_nil _ _, List.forall_mem_cons.mpr ⟨by decide, hdigits⟩⟩
    have hdenotes := Numeral.PointText.point (.unsigned hall)
    have hnat : natOfText ([48] ++ (List.replicate m 48 ++ [49])) = 1 := by
      rw [Numeral.natOfText_append, Numeral.natOfText_append, Numeral.natOfText_zeros]
      simp [natOfText]
    have hpoint : bytes "0." = [48, 46] := by decide +kernel
    have hzeros : ((m + 1 : ℕ) - 1 : ℤ).toNat = m := by omega
    rw [List.length_append, List.length_replicate, List.length_singleton] at hplaces hdenotes
    rw [hnat] at hdenotes
    rw [hpoint, hzeros]
    exact ⟨hplaces, .plain hdenotes⟩

/-- **The ticks of futures are exact.** The text of a power is accepted as long as the decimal package
accepts so many places. If it is accepted, it is read as that power of ten, different powers have
different ticks, and the multiples of the tick are the prices with so many digits after the point. The
check of a price is about this, and about its sign. -/
theorem futuresTick_exact [DecimalPackage] [LawfulReading] [PlainRendering] [ExactArithmetic]
    {limit : ℕ} (hreads : ReadsPlaces limit) :
    (∀ n ≤ limit, ∃ tick, newFromString (futuresTickString n) = some tick) ∧
    ∀ (n : ℕ) (tick : Decimal), newFromString (futuresTickString n) = some tick →
      tick.toRat = 10 ^ (-(n : ℤ)) ∧
      (∀ (m : ℕ) (tick' : Decimal), newFromString (futuresTickString m) = some tick' →
        tick'.toRat = tick.toRat → m = n) ∧
      ∀ p : Price, ((∃ k : ℤ, p.dec.toRat = k * tick.toRat) ↔ fractionDigits (string p.dec) ≤ n) ∧
        (p.validateOn (futuresTickString n) = .ok none ↔
          0 ≤ p.dec.toRat ∧ fractionDigits (string p.dec) ≤ n) := by
  have hrat : ∀ {n : ℕ} {tick : Decimal}, newFromString (futuresTickString n) = some tick →
      tick.toRat = 10 ^ (-(n : ℤ)) := by
    intro n tick htick
    rw [toRat_of_denotes htick (denotes_futuresTickString n).2, Int.cast_one, one_mul]
  constructor
  · intro n hn
    exact readable_iff.mp (hreads _ n (denotes_futuresTickString n).1 hn).1
  · intro n tick htick
    refine ⟨hrat htick, fun m tick' htick' heq => ?_, fun p => ?_⟩
    · rw [hrat htick, hrat htick'] at heq
      have hpow := zpow_right_injective₀ (by norm_num : (0 : ℚ) < 10) (by norm_num) heq
      simpa using hpow
    · have hmultiple : (∃ k : ℤ, p.dec.toRat = k * tick.toRat) ↔
          fractionDigits (string p.dec) ≤ n := by
        rw [PlainRendering.string_eq, Numeral.fractionDigits_le_iff, hrat htick]
        rfl
      have hpos : 0 < tick.toRat := by
        rw [hrat htick]
        exact Numeral.pow_ten_pos _
      exact ⟨hmultiple, by rw [Price.validateOn_iff htick hpos, hmultiple]⟩

section

attribute [local instance] ScaledInt.scaledInts

/-- A tick of two places. -/
theorem futuresTick_exact_two : futuresTickString 2 = bytes "0.01" ∧ ∃ tick,
    newFromString (futuresTickString (2 : ℕ)) = some tick ∧ tick.toRat = 10 ^ (-2 : ℤ) := by
  obtain ⟨hread, hexact⟩ := futuresTick_exact LawfulReading.reads
  obtain ⟨tick, htick⟩ := hread 2 (by decide)
  exact ⟨by decide +kernel, tick, htick, (hexact 2 tick htick).1⟩

end

end HstongApi
