import HstongApi.Requests
import Mathlib.Tactic.NormNum

/-!
# Lots and ticks

The quantity of an order is a multiple of a lot, and its price is a multiple of a tick. A resolver
answers the two numbers for an instrument, and some resolvers answer the tick for an instrument and
a price. The default is the table of Hong Kong: fixed lots and ticks for each type of instrument,
and for stocks a tick that grows with the price, in bands.

`hkLot` and `hkTick` are that table as numbers. The checks below are about decimals and texts, and
they are shown to say what the table says: `validateLot_iff` and `validateOn_iff` for any lot and
tick, and `scheduleFor_default` and `scheduleForPrice_default` for the default.

The checks ask the decimal package for a remainder and for comparisons, and they read the ticks from
text. That these are exact is assumed (`ExactArithmetic`, `LawfulReading`); the bounds and ticks of
the table are plain numerals with at most four digits after the point.
-/

namespace HstongApi

open DecimalPackage

section

variable [DecimalPackage]

/-! ## Checks -/

/-- `Quantity.ValidateInteger`, with the text of the error. -/
def Quantity.validateInteger (q : Quantity) : Option Bytes :=
  if isInteger q.dec then none
  else some (bytes "domain: Quantity: " ++ string q.dec ++ bytes " is not an integer")

/-- `Quantity.ValidateLot` -/
def Quantity.validateLot (q : Quantity) (lot : ℕ) : Except Panic (Option Bytes) :=
  if lot = 0 then .ok none
  else if 9223372036854775807 < lot then
    .ok (some (bytes "domain: Quantity: lot " ++ natText lot ++ bytes " is out of range"))
  else (mod q.dec (newFromInt lot)).map fun remainder =>
    if isZero remainder then none
    else some (bytes "domain: Quantity: " ++ string q.dec ++ bytes " is not a multiple of lot " ++
      natText lot)

/-- `Price.ValidateOn`; the error about a tick that is not a decimal is without its reason. -/
def Price.validateOn (p : Price) (tick : Bytes) : Except Panic (Option Bytes) :=
  if isNegative p.dec then .ok (some (bytes "domain: Price: negative price " ++ string p.dec))
  else if tick = [] then .ok none
  else match newFromString tick with
    | none => .ok (some (bytes "domain: Price: invalid tick " ++ tick))
    | some grid =>
      if isZero grid || isNegative grid then .ok none
      else (mod p.dec grid).map fun remainder =>
        if isZero remainder then none
        else some (bytes "domain: Price: " ++ string p.dec ++ bytes " is not a multiple of tick " ++
          string grid)

/-- The remainder decides. -/
theorem map_mod_eq_none [ExactArithmetic] {d d2 : Decimal} (h : d2.toRat ≠ 0) {text : Bytes} :
    (mod d d2).map (fun r => if isZero r then none else some text) = .ok none ↔
      ∃ k : ℤ, d.toRat = k * d2.toRat := by
  obtain ⟨r, hr, hzero⟩ := isZero_mod (d := d) h
  rw [← hzero, hr]
  simp only [Except.map, Except.ok.injEq]
  split <;> simp_all

/-- **The lot check** is about multiples. -/
theorem Quantity.validateLot_iff [ExactArithmetic] {q : Quantity} {lot : ℕ} (hlot : 0 < lot)
    (hmax : lot ≤ 9223372036854775807) :
    q.validateLot lot = .ok none ↔ ∃ k : ℤ, q.dec.toRat = k * lot := by
  have hrat : (newFromInt (lot : ℤ)).toRat = lot := by
    rw [ExactArithmetic.toRat_newFromInt, Int.cast_natCast]
  have hne : (newFromInt (lot : ℤ)).toRat ≠ 0 := by
    rw [hrat]
    exact_mod_cast hlot.ne'
  rw [validateLot, if_neg hlot.ne', if_neg (not_lt.mpr hmax), map_mod_eq_none hne, hrat]

/-- **The tick check** is about the sign and about multiples. -/
theorem Price.validateOn_iff [LawfulReading] [ExactArithmetic] {p : Price} {tick : Bytes}
    {grid : Decimal} (htick : newFromString tick = some grid) (hpos : 0 < grid.toRat) :
    p.validateOn tick = .ok none ↔ 0 ≤ p.dec.toRat ∧ ∃ k : ℤ, p.dec.toRat = k * grid.toRat := by
  have hne : tick ≠ [] := by
    rintro rfl
    exact not_readable rfl (readable_iff.mpr ⟨grid, htick⟩)
  have hgrid : ¬(isZero grid || isNegative grid) = true := by
    rw [Bool.or_eq_true, ExactArithmetic.isZero_iff, ExactArithmetic.isNegative_iff]
    exact fun h => h.elim hpos.ne' (not_lt.mpr hpos.le)
  unfold validateOn
  by_cases hneg : isNegative p.dec = true
  · rw [if_pos hneg]
    rw [ExactArithmetic.isNegative_iff] at hneg
    exact iff_of_false (by rintro ⟨⟩) fun h => absurd h.1 (not_le.mpr hneg)
  · rw [if_neg hneg, if_neg hne, htick]
    rw [ExactArithmetic.isNegative_iff, not_lt] at hneg
    simp only [if_neg hgrid]
    rw [map_mod_eq_none hpos.ne', and_iff_right hneg]

/-! ## Resolvers -/

/-- A `TickScheduleResolver`; one that is also a `PricedTickScheduleResolver` has the second
method. -/
structure TickScheduleResolver where
  /-- the lot and the tick, if it has an opinion -/
  scheduleFor : Symbol → Option (ℕ × Bytes)
  scheduleForPrice : Option (Symbol → Price → Option Bytes) := none

/-- `DataTypeHKStock` -/
def dataTypeHKStock : ℤ := 10000

/-- `DataTypeHKETF` -/
def dataTypeHKETF : ℤ := 10002

/-- `DataTypeHKWarrant` -/
def dataTypeHKWarrant : ℤ := 10003

/-- `DataTypeHKCBBC` -/
def dataTypeHKCBBC : ℤ := 10004

/-- `DataTypeHKBond` -/
def dataTypeHKBond : ℤ := 10005

/-- What is read of a `domain.TickSchedule`. -/
structure TickSchedule where
  /-- quantities are multiples of it -/
  lot : ℕ := 0
  /-- prices are multiples of it; empty for an instrument without a schedule -/
  tickSize : Bytes := []

/-- `DefaultHKTickSchedule` -/
def defaultHKTickSchedule (dtype : ℤ) : TickSchedule :=
  if dtype = dataTypeHKStock then ⟨100, bytes "0.001"⟩
  else if dtype = dataTypeHKETF then ⟨100, bytes "0.001"⟩
  else if dtype = dataTypeHKWarrant ∨ dtype = dataTypeHKCBBC then ⟨1, bytes "0.001"⟩
  else if dtype = dataTypeHKBond then ⟨1, bytes "0.0001"⟩
  else {}

/-- `hkPriceBand` -/
structure HkPriceBand where
  /-- the highest price of the band -/
  upper : Decimal
  /-- the tick of all prices of the band -/
  tick : Bytes

/-- `decimal.RequireFromString`. It panics for a text that is not read; here it is called before
the program starts and for plain numerals only, which are read (`isBand_hkStockPriceBands`). -/
def requireFromString (value : Bytes) : Decimal := (newFromString value).getD zero

/-- `hkStockPriceBands` -/
def hkStockPriceBands : List HkPriceBand :=
  [⟨requireFromString (bytes "0.25"), bytes "0.001"⟩,
    ⟨requireFromString (bytes "10"), bytes "0.005"⟩,
    ⟨requireFromString (bytes "20"), bytes "0.010"⟩,
    ⟨requireFromString (bytes "50"), bytes "0.020"⟩,
    ⟨requireFromString (bytes "100"), bytes "0.050"⟩,
    ⟨requireFromString (bytes "200"), bytes "0.100"⟩,
    ⟨requireFromString (bytes "500"), bytes "0.200"⟩,
    ⟨requireFromString (bytes "1000"), bytes "0.500"⟩,
    ⟨requireFromString (bytes "2000"), bytes "1.000"⟩,
    ⟨requireFromString (bytes "5000"), bytes "2.000"⟩,
    ⟨requireFromString (bytes "9995"), bytes "5.000"⟩]

/-- `hkStockTickAtPrice` -/
def hkStockTickAtPrice (price : Price) : Option Bytes :=
  (hkStockPriceBands.find? fun band => lessThanOrEqual price.dec band.upper).map (·.tick)

/-- `TickSchedule.ScheduleFor` -/
def TickSchedule.scheduleFor (sym : Symbol) : Option (ℕ × Bytes) :=
  if sym.market ≠ .hk ∧ sym.market ≠ .none then none
  else
    let schedule := defaultHKTickSchedule sym.dataType
    if schedule.tickSize = [] then none else some (schedule.lot, schedule.tickSize)

/-- `TickSchedule.ScheduleForPrice` -/
def TickSchedule.scheduleForPrice (sym : Symbol) (price : Price) : Option Bytes :=
  if sym.market ≠ .hk ∧ sym.market ≠ .none then none
  else if sym.dataType = dataTypeHKStock then hkStockTickAtPrice price
  else (scheduleFor sym).map (·.2)

/-- The default: the zero value of `domain.TickSchedule`. -/
def TickSchedule.resolver : TickScheduleResolver := ⟨scheduleFor, some scheduleForPrice⟩

end

/-! ## The table of Hong Kong -/

/-- The bands of the prices of stocks: the upper bound and the tick. -/
def hkSpreads : List (ℚ × ℚ) :=
  [(1 / 4, 1 / 1000), (10, 1 / 200), (20, 1 / 100), (50, 1 / 50), (100, 1 / 20), (200, 1 / 10),
    (500, 1 / 5), (1000, 1 / 2), (2000, 1), (5000, 2), (9995, 5)]

/-- The types of instruments that the table covers. -/
def hkDataTypes : List ℤ :=
  [dataTypeHKStock, dataTypeHKETF, dataTypeHKWarrant, dataTypeHKCBBC, dataTypeHKBond]

/-- The lot of a type of instrument. -/
def hkLot (dtype : ℤ) : ℕ := if dtype = dataTypeHKStock ∨ dtype = dataTypeHKETF then 100 else 1

/-- The tick of a type of instrument at a price, if there is one. -/
def hkTick (dtype : ℤ) (price : ℚ) : Option ℚ :=
  if dtype = dataTypeHKStock then (hkSpreads.find? fun band => price ≤ band.1).map (·.2)
  else if dtype = dataTypeHKBond then some (1 / 10000)
  else some (1 / 1000)

/-! ## The default is the table -/

/-- The tick of a stock is a number of thousandths. -/
theorem hkTick_stock {price tick : ℚ} (h : hkTick dataTypeHKStock price = some tick) :
    ∃ n : ℕ, tick = n * (1 / 1000) := by
  have hall : ∀ spread ∈ hkSpreads, ∃ n : ℕ, spread.2 = n * (1 / 1000) := by
    simp only [hkSpreads, List.forall_mem_cons]
    refine ⟨⟨1, ?_⟩, ⟨5, ?_⟩, ⟨10, ?_⟩, ⟨20, ?_⟩, ⟨50, ?_⟩, ⟨100, ?_⟩, ⟨200, ?_⟩, ⟨500, ?_⟩,
      ⟨1000, ?_⟩, ⟨2000, ?_⟩, ⟨5000, ?_⟩, nofun⟩
    all_goals norm_num
  rw [hkTick, if_pos rfl] at h
  obtain ⟨spread, hfound, rfl⟩ := Option.map_eq_some_iff.mp h
  exact hall spread (List.mem_of_find?_eq_some hfound)

theorem hkTick_nonneg {dtype : ℤ} {price tick : ℚ} (h : hkTick dtype price = some tick) :
    0 ≤ tick := by
  by_cases hstock : dtype = dataTypeHKStock
  · obtain ⟨n, rfl⟩ := hkTick_stock (hstock ▸ h)
    positivity
  · unfold hkTick at h
    rw [if_neg hstock] at h
    split at h
    all_goals
      cases h
      norm_num

/-- The tick of a stock is a multiple of the tick of every other instrument. -/
theorem hkTick_of_stock {dtype : ℤ} {price tick tick' : ℚ}
    (h : hkTick dataTypeHKStock price = some tick) (h' : hkTick dtype price = some tick') :
    ∃ n : ℕ, tick = n * tick' := by
  by_cases hstock : dtype = dataTypeHKStock
  · rw [hstock, h] at h'
    exact ⟨1, by rw [Option.some.inj h', Nat.cast_one, one_mul]⟩
  · obtain ⟨n, rfl⟩ := hkTick_stock h
    unfold hkTick at h'
    rw [if_neg hstock] at h'
    split at h'
    · cases h'
      refine ⟨n * 10, ?_⟩
      push_cast
      ring
    · exact ⟨n, by rw [← Option.some.inj h']⟩

/-- The lot of a stock is a multiple of the lot of every other instrument. -/
theorem hkLot_stock (dtype : ℤ) : ∃ n : ℕ, hkLot dataTypeHKStock = n * hkLot dtype := by
  have hstock : hkLot dataTypeHKStock = 100 := rfl
  rw [hstock, hkLot]
  split
  · exact ⟨1, rfl⟩
  · exact ⟨100, rfl⟩

/-- There is a tick up to the highest band. -/
theorem hkTick_isSome {price : ℚ} (h : price ≤ 9995) (dtype : ℤ) :
    ∃ tick, hkTick dtype price = some tick := by
  rw [← Option.isSome_iff_exists]
  unfold hkTick
  split
  · rw [Option.isSome_map, List.find?_isSome]
    exact ⟨(9995, 5), by simp [hkSpreads], decide_eq_true h⟩
  · split <;> rfl

/-- What is found in two lists is related, if the test does not tell related members apart. -/
theorem rel_find? {α β γ δ : Type} {R : α → β → Prop} {S : γ → δ → Prop} {p : α → Bool}
    {q : β → Bool} {f : α → γ} {g : β → δ} (hpq : ∀ a b, R a b → p a = q b)
    (hfg : ∀ a b, R a b → S (f a) (g b)) {l : List α} {l' : List β} (h : List.Forall₂ R l l') :
    Option.Rel S ((l.find? p).map f) ((l'.find? q).map g) := by
  induction h with
  | nil => exact .none
  | @cons a b l l' hab _ ih =>
    rw [List.find?_cons, List.find?_cons, hpq a b hab]
    split
    · exact .some (hfg a b hab)
    · exact ih

section

variable [DecimalPackage]

/-- The text of a tick. -/
def TickText (tick : Bytes) (number : ℚ) : Prop :=
  0 < number ∧ ∃ grid, newFromString tick = some grid ∧ grid.toRat = number

/-- A band of the source and a band of the table. -/
def IsBand (band : HkPriceBand) (spread : ℚ × ℚ) : Prop :=
  band.upper.toRat = spread.1 ∧ TickText band.tick spread.2

variable [LawfulReading]

theorem tickText_of_plain {tick : Bytes} {number : ℚ} (h : plainNumber tick = some number)
    (hpos : 0 < number) : TickText tick number :=
  ⟨hpos, exists_read h⟩

theorem isBand_of_plain {upper tick : Bytes} {bound number : ℚ}
    (hupper : plainNumber upper = some bound) (htick : plainNumber tick = some number)
    (hpos : 0 < number) : IsBand ⟨requireFromString upper, tick⟩ (bound, number) := by
  obtain ⟨d, hd, hrat⟩ := exists_read hupper
  refine ⟨?_, tickText_of_plain htick hpos⟩
  rw [requireFromString, hd]
  exact hrat

/-- **The bands of the source are those of the table**; all their texts are read. -/
theorem isBand_hkStockPriceBands : List.Forall₂ IsBand hkStockPriceBands hkSpreads := by
  unfold hkStockPriceBands hkSpreads
  repeat refine .cons (isBand_of_plain (by decide +kernel) (by decide +kernel) (by decide +kernel)) ?_
  exact .nil

/-- **Stocks** have the tick of their band. -/
theorem hkStockTickAtPrice_spec [ExactArithmetic] (price : Price) :
    Option.Rel TickText (hkStockTickAtPrice price) (hkTick dataTypeHKStock price.dec.toRat) := by
  rw [hkStockTickAtPrice, hkTick, if_pos rfl]
  refine rel_find? (fun band spread h => ?_) (fun band spread h => h.2) isBand_hkStockPriceBands
  rw [Bool.eq_iff_iff, decide_eq_true_iff, ExactArithmetic.lessThanOrEqual_iff, h.1]

/-- **The lots of the default.** -/
theorem scheduleFor_default {sym : Symbol} (hmarket : sym.market = .hk)
    (hdtype : sym.dataType ∈ hkDataTypes) :
    ∃ tick, TickSchedule.scheduleFor sym = some (hkLot sym.dataType, tick) ∧
      (sym.dataType ≠ dataTypeHKStock → ∀ price, ∃ number,
        hkTick sym.dataType price = some number ∧ TickText tick number) := by
  have hthousandth : TickText (bytes "0.001") (1 / 1000) :=
    tickText_of_plain (by decide +kernel) (by norm_num)
  have htenth : TickText (bytes "0.0001") (1 / 10000) :=
    tickText_of_plain (by decide +kernel) (by norm_num)
  simp only [hkDataTypes, List.mem_cons, List.not_mem_nil, or_false] at hdtype
  unfold TickSchedule.scheduleFor
  rcases hdtype with h | h | h | h | h <;> rw [hmarket, h]
  · exact ⟨bytes "0.001", by decide +kernel, fun hne => absurd rfl hne⟩
  · exact ⟨bytes "0.001", by decide +kernel, fun _ _ => ⟨_, rfl, hthousandth⟩⟩
  · exact ⟨bytes "0.001", by decide +kernel, fun _ _ => ⟨_, rfl, hthousandth⟩⟩
  · exact ⟨bytes "0.001", by decide +kernel, fun _ _ => ⟨_, rfl, hthousandth⟩⟩
  · exact ⟨bytes "0.0001", by decide +kernel, fun _ _ => ⟨_, rfl, htenth⟩⟩

/-- **The ticks of the default.** -/
theorem scheduleForPrice_default [ExactArithmetic] {sym : Symbol} (hmarket : sym.market = .hk)
    (hdtype : sym.dataType ∈ hkDataTypes) (price : Price) :
    Option.Rel TickText (TickSchedule.scheduleForPrice sym price)
      (hkTick sym.dataType price.dec.toRat) := by
  obtain ⟨tick, hschedule, htick⟩ := scheduleFor_default hmarket hdtype
  unfold TickSchedule.scheduleForPrice
  rw [if_neg (fun h => h.1 hmarket)]
  by_cases hstock : sym.dataType = dataTypeHKStock
  · rw [if_pos hstock, hstock]
    exact hkStockTickAtPrice_spec price
  · obtain ⟨number, hnumber, htext⟩ := htick hstock price.dec.toRat
    rw [if_neg hstock, hschedule, hnumber]
    exact .some htext

end

end HstongApi
