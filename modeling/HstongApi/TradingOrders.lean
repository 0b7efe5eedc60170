import HstongApi.TickSchedules

/-!
# Orders

`TradingService.Entrust` and `ChangeEntrust`: the checks that an order for Hong Kong has to pass, and
the requests that are sent. The clock is a parameter: the number of nanoseconds since midnight of
some day in UTC.

An order is `WellFormed` if its quantity is a positive multiple of the lot, and its price, where the
type of order has one, is positive and a multiple of the tick. The checks are about multiples, and
they reject a negative price; no check is about a quantity that is zero or negative, or a price that
is zero. So what is sent is well formed exactly if those numbers are positive
(`sent_wellFormed_iff`).

The numbers of an order are those of a decimal package that reads plain numerals and computes exactly;
nothing else is assumed about it. Lots and ticks are those of the default schedule.
-/

namespace HstongApi

open Checked DecimalPackage

section

variable [DecimalPackage]

/-! ## Orders -/

/-- `domain.Order` -/
structure Order where
  /-- the instrument -/
  symbol : Symbol := {}
  /-- a `types.EntrustBS` -/
  side : Bytes := []
  /-- a `types.EntrustType` -/
  orderType : Bytes := []
  quantity : Quantity := {}
  price : Price := {}
  /-- how long the order stays, such as `DAY` -/
  timeInForce : Bytes := []
  /-- the session of the day for which it is meant -/
  sessionType : Bytes := []
  /-- the part of an iceberg order that is shown -/
  icebergQty : Quantity := {}
  /-- for a conditional order, the days for which it waits -/
  validDays : ℤ := 0
  /-- for a conditional order, the value it waits for -/
  condValue : Bytes := []
  /-- for a conditional order, how the value is tracked -/
  condTrackType : Bytes := []
  clientType : ℤ := 0
  exchange : Bytes := []
  deriving DecidableEq

namespace TradingService

/-- `opEntrust` -/
def opEntrust : Bytes := bytes "trade/TradeEntrust"

/-- `opChangeEntrust` -/
def opChangeEntrust : Bytes := bytes "trade/TradeChangeEntrust"

/-- `errs.New(types.StatusInvalidParam, op, message)` -/
def invalidParam (op message : Bytes) : GoError := .new GoError.statusInvalidParam op message

/-! ## Checks -/

/-- `validateQuantityForHK` -/
def validateQuantityForHK (qty : Quantity) (schedule : TickScheduleResolver) (sym : Symbol) :
    Checked Unit :=
  match schedule.scheduleFor sym with
  | none => pure ()
  | some (lot, _) => do
    refuse opEntrust (.ok qty.validateInteger)
    refuse opEntrust (qty.validateLot lot)

/-- `resolveTickForPrice` -/
def resolveTickForPrice (price : Price) (schedule : TickScheduleResolver) (sym : Symbol) :
    Option Bytes :=
  match schedule.scheduleForPrice with
  | some scheduleForPrice => scheduleForPrice sym price
  | none => (schedule.scheduleFor sym).map (·.2)

/-- `validatePriceForHK` -/
def validatePriceForHK (price : Price) (schedule : TickScheduleResolver) (sym : Symbol) :
    Checked Unit :=
  match resolveTickForPrice price schedule sym with
  | none => pure ()
  | some tick => refuse opEntrust (price.validateOn tick)

/-- Two decimal digits. -/
def twoDigits (n : ℕ) : Bytes := [UInt8.ofNat (48 + n / 10), UInt8.ofNat (48 + n % 10)]

/-- `now.In(hkZone).Format("15:04")`: the zone is eight hours ahead. -/
def hkClock (now : ℤ) : Bytes :=
  let minute := ((now + 28800000000000) / 60000000000 % 1440).toNat
  twoDigits (minute / 60) ++ 58 :: twoDigits (minute % 60)

/-- `validateSessionWindow`, with the windows of `hkSessionWindows`. -/
def validateSessionWindow (now : ℤ) (market : Market) (sessionType : Bytes) : Checked Unit :=
  if market ≠ .hk then pure ()
  else if sessionType = [] then pure ()
  else if sessionType = bytes "0" then pure ()
  else if sessionType = bytes "1" then
    reject (hkClock now < bytes "09:00" ∨ bytes "09:30" < hkClock now) (invalidParam opEntrust
      (bytes "order time is outside pre-market session window (09:00-09:30)"))
  else if sessionType = bytes "2" then
    reject (hkClock now < bytes "09:30" ∨ bytes "12:00" < hkClock now) (invalidParam opEntrust
      (bytes "order time is outside regular trading session window (09:30-12:00, 12:00-16:00)"))
  else if sessionType = bytes "3" then
    reject (hkClock now < bytes "12:00" ∨ bytes "16:00" < hkClock now) (invalidParam opEntrust
      (bytes "order time is outside after-hours session window (12:00-16:00)"))
  else pure ()

/-- `knownHKOrderTypes` -/
def knownHKOrderTypes : List Bytes :=
  [bytes "0", bytes "1", bytes "2", bytes "3", bytes "4", bytes "6", bytes "7", bytes "31",
    bytes "33", bytes "35"]

/-- `validateOrderTypeEligibility` -/
def validateOrderTypeEligibility (orderType : Bytes) (market : Market) : Checked Unit :=
  reject (market = .hk ∧ orderType ∉ knownHKOrderTypes) (invalidParam opEntrust
    (bytes "order type " ++ orderType ++ bytes " is not eligible for HK market"))

/-- `validTIFs` -/
def validTIFs : List Bytes := [[], bytes "DAY", bytes "IOC", bytes "FOK", bytes "GTD"]

/-- `validateTimeInForce` -/
def validateTimeInForce (tif : Bytes) : Checked Unit :=
  reject (tif ∉ validTIFs) (invalidParam opEntrust
    (bytes "time-in-force " ++ tif ++ bytes " is not valid"))

/-- The sides of an order: buy, sell, close short, open short. -/
def entrustSides : List Bytes := [bytes "1", bytes "2", bytes "3", bytes "4"]

/-- `validateShortSellingFlag` -/
def validateShortSellingFlag (side : Bytes) (dtype : ℤ) : Checked Unit :=
  reject ((dtype = dataTypeHKStock ∨ dtype = dataTypeHKETF) ∧ side ∉ entrustSides)
    (invalidParam opEntrust (bytes "side " ++ side ++ bytes " is not valid for HK stocks/ETFs"))

/-- `isPriceOptional` -/
def isPriceOptional (t : Bytes) : Bool :=
  [bytes "5", bytes "8", bytes "10", bytes "31", bytes "32", bytes "33", bytes "34", bytes "35",
    bytes "36"].contains t

/-- `isConditionalOrder` -/
def isConditionalOrder (t : Bytes) : Bool :=
  [bytes "31", bytes "32", bytes "33", bytes "34", bytes "35", bytes "36"].contains t

/-- `maxValidDays` -/
def maxValidDays : ℤ := 100

/-- `validateOrderForHK` -/
def validateOrderForHK (now : ℤ) (order : Order) (schedule : TickScheduleResolver) :
    Checked Unit :=
  onlyIf (order.symbol.market = .hk) do
    validateQuantityForHK order.quantity schedule order.symbol
    onlyIf (isPriceOptional order.orderType = false) do
      validatePriceForHK order.price schedule order.symbol
    validateSessionWindow now order.symbol.market order.sessionType
    validateOrderTypeEligibility order.orderType order.symbol.market
    validateTimeInForce order.timeInForce
    validateShortSellingFlag order.side order.symbol.dataType
    onlyIf (isConditionalOrder order.orderType = true) do
      reject (order.validDays < 1 ∨ maxValidDays < order.validDays) (invalidParam opEntrust
        (bytes "validDays must be between 1 and " ++ itoa maxValidDays ++
          bytes " for conditional orders"))
      reject (order.condValue = []) (invalidParam opEntrust
        (bytes "condValue is required for conditional orders"))

/-! ## Requests -/

/-- `entrustWireRequest` -/
structure EntrustWireRequest where
  exchangeType : Bytes
  stockCode : Bytes
  entrustAmount : Bytes
  entrustPrice : Bytes
  entrustBS : Bytes
  entrustType : Bytes
  clientType : ℤ
  exchange : Bytes := []
  sessionType : Bytes
  iceBergDisplaySize : Bytes
  validDays : Bytes
  condValue : Bytes
  condTrackType : Bytes
  deriving DecidableEq

/-- What is read of an `entrustWireResponse`. -/
structure EntrustWireResponse where
  entrustID : Bytes

/-- `domain.OrderResult` -/
structure OrderResult where
  entrustID : Bytes
  orderID : Bytes := []
  status : Bytes

/-- `changeEntrustWireRequest` -/
structure ChangeEntrustWireRequest where
  exchangeType : Bytes
  stockCode : Bytes := []
  entrustAmount : Bytes
  entrustPrice : Bytes
  entrustID : Bytes
  entrustType : Bytes := []
  sessionType : Bytes := []
  validDays : Bytes := []
  condValue : Bytes := []
  condTrackType : Bytes := []
  deriving DecidableEq

/-- `ExchangeHK` -/
def exchangeHK : Bytes := bytes "K"

/-- `ExchangeUS` -/
def exchangeUS : Bytes := bytes "P"

/-- The market of a request; only two of the markets have one. -/
def exchangeTypeOf : Market → Bytes
  | .hk => exchangeHK
  | .us => exchangeUS
  | _ => []

/-- The request for an order. -/
def entrustRequest (order : Order) : EntrustWireRequest where
  exchangeType := exchangeTypeOf order.symbol.market
  stockCode := order.symbol.code
  entrustAmount := string order.quantity.dec
  entrustPrice := string order.price.dec
  entrustBS := order.side
  entrustType := order.orderType
  clientType := order.clientType
  sessionType := order.sessionType
  iceBergDisplaySize := string order.icebergQty.dec
  validDays := itoa order.validDays
  condValue := order.condValue
  condTrackType := order.condTrackType

/-- The request for a change. -/
def changeEntrustRequest (entrustID : Bytes) (newPrice : Price) (newQty : Quantity) :
    ChangeEntrustWireRequest where
  exchangeType := exchangeHK
  entrustAmount := string newQty.dec
  entrustPrice := string newPrice.dec
  entrustID := entrustID

end TradingService

/-- `TradingService`, apart from its client. -/
structure TradingService where
  schedule : Option TickScheduleResolver := none

namespace TradingService

/-- `tickSchedule` -/
def tickSchedule (s : TradingService) : TickScheduleResolver :=
  s.schedule.getD TickSchedule.resolver

/-- `accountID.IsZero()` -/
def requireAccount (op accountID : Bytes) : Checked Unit :=
  reject (accountID = []) (invalidParam op (bytes "accountID must not be empty"))

/-- `Entrust` -/
def entrust (s : TradingService) (now : ℤ) (accountID : Bytes) (order : Order) :
    Call EntrustWireRequest EntrustWireResponse OrderResult :=
  .send opEntrust (bytes "/trade/TradeEntrust")
    (do
      requireAccount opEntrust accountID
      validateOrderForHK now order s.tickSchedule
      pure (entrustRequest order))
    fun out => pure { entrustID := out.entrustID, status := bytes "1" }

/-- The instrument that `ChangeEntrust` takes every order to be about. -/
def changeEntrustSymbol : Symbol := { market := .hk, dataType := dataTypeHKStock }

/-- `ChangeEntrust`; the text of the reply is not read. -/
def changeEntrust (s : TradingService) (accountID entrustID : Bytes) (newPrice : Price)
    (newQty : Quantity) : Call ChangeEntrustWireRequest Unit Unit :=
  .send opChangeEntrust (bytes "/trade/TradeChangeEntrust")
    (do
      requireAccount opChangeEntrust accountID
      reject (entrustID = []) (invalidParam opChangeEntrust (bytes "entrustID must not be empty"))
      validatePriceForHK newPrice s.tickSchedule changeEntrustSymbol
      validateQuantityForHK newQty s.tickSchedule changeEntrustSymbol
      pure (changeEntrustRequest entrustID newPrice newQty))
    fun _ => pure ()

/-! ## What the checks say -/

section

variable [LawfulReading] [ExactArithmetic]

theorem yields_quantity {qty : Quantity} {sym : Symbol} (hmarket : sym.market = .hk)
    (hdtype : sym.dataType ∈ hkDataTypes)
    (h : Yields (validateQuantityForHK qty TickSchedule.resolver sym) ()) :
    ∃ k : ℤ, qty.dec.toRat = k * hkLot sym.dataType := by
  obtain ⟨tick, hschedule, -⟩ := scheduleFor_default hmarket hdtype
  have hlot : 0 < hkLot sym.dataType ∧ hkLot sym.dataType ≤ 9223372036854775807 := by
    unfold hkLot
    split <;> decide
  simp only [validateQuantityForHK, TickSchedule.resolver, hschedule, yields_then,
    yields_refuse] at h
  exact (Quantity.validateLot_iff hlot.1 hlot.2).mp h.2

theorem yields_price {price : Price} {sym : Symbol} (hmarket : sym.market = .hk)
    (hdtype : sym.dataType ∈ hkDataTypes)
    (h : Yields (validatePriceForHK price TickSchedule.resolver sym) ()) {tick : ℚ}
    (htick : hkTick sym.dataType price.dec.toRat = some tick) :
    ∃ k : ℤ, price.dec.toRat = k * tick := by
  have hrel := scheduleForPrice_default hmarket hdtype price
  rw [htick] at hrel
  simp only [validatePriceForHK, resolveTickForPrice, TickSchedule.resolver] at h
  cases hschedule : TickSchedule.scheduleForPrice sym price with
  | none =>
    rw [hschedule] at hrel
    cases hrel
  | some text =>
    rw [hschedule] at hrel h
    obtain ⟨hpos, grid, hgrid, rfl⟩ : TickText text tick := by
      cases hrel with
      | some hrel => exact hrel
    exact ((Price.validateOn_iff hgrid hpos).mp (yields_refuse.mp h)).2

end

end TradingService

end

namespace TradingService

/-! ## Well-formed orders -/

/-- **An order for Hong Kong is well formed.** -/
structure WellFormed (dtype : ℤ) (priced : Prop) (quantity price : ℚ) : Prop where
  quantity : ∃ k : ℕ, 0 < k ∧ quantity = k * hkLot dtype
  price : priced → 0 < price ∧
    (price ≤ 9995 → ∃ tick, hkTick dtype price = some tick ∧ ∃ k : ℕ, price = k * tick)

theorem exists_nat_mul {x y : ℚ} (hx : 0 < x) (hy : 0 ≤ y) (h : ∃ k : ℤ, x = k * y) :
    ∃ k : ℕ, 0 < k ∧ x = k * y := by
  obtain ⟨k, rfl⟩ := h
  have hk : 0 < k := by
    exact_mod_cast pos_of_mul_pos_left hx hy
  obtain ⟨n, rfl⟩ := Int.eq_ofNat_of_zero_le hk.le
  exact ⟨n, Int.natCast_pos.mp hk, rfl⟩

/-- For numbers that pass the checks, being well formed is a matter of their signs. -/
theorem wellFormed_iff {dtype : ℤ} {priced : Prop} {quantity price : ℚ}
    (hquantity : ∃ k : ℤ, quantity = k * hkLot dtype)
    (hprice : priced → price ≤ 9995 → ∀ tick, hkTick dtype price = some tick →
      ∃ k : ℤ, price = k * tick) :
    WellFormed dtype priced quantity price ↔ 0 < quantity ∧ (priced → 0 < price) := by
  refine ⟨fun h => ⟨?_, fun hpriced => (h.price hpriced).1⟩, fun ⟨hq, hp⟩ => ⟨?_, ?_⟩⟩
  · obtain ⟨k, hk, heq⟩ := h.quantity
    have hlot : 0 < hkLot dtype := by
      unfold hkLot
      split <;> decide
    rw [heq]
    exact mul_pos (Nat.cast_pos.mpr hk) (Nat.cast_pos.mpr hlot)
  · exact exists_nat_mul hq (Nat.cast_nonneg _) hquantity
  · refine fun hpriced => ⟨hp hpriced, fun hle => ?_⟩
    obtain ⟨tick, htick⟩ := hkTick_isSome hle dtype
    obtain ⟨k, -, hk⟩ := exists_nat_mul (hp hpriced) (hkTick_nonneg htick)
      (hprice hpriced hle tick htick)
    exact ⟨tick, htick, k, hk⟩

/-- **When what is sent is well formed.** Take an order for an instrument of Hong Kong that `Entrust`
sends with the default schedule, or a change that `ChangeEntrust` sends for an order of any such
instrument and any type. It is well formed if and only if its quantity is positive and its price, where
the type of order has one, is positive. -/
theorem sent_wellFormed_iff [DecimalPackage] [LawfulReading] [ExactArithmetic] (accountID : Bytes) :
    (∀ (now : ℤ) (order : Order) (req : EntrustWireRequest),
      order.symbol.market = .hk → order.symbol.dataType ∈ hkDataTypes →
      (({} : TradingService).entrust now accountID order).Sends req →
      (WellFormed order.symbol.dataType (isPriceOptional order.orderType = false)
          order.quantity.dec.toRat order.price.dec.toRat ↔
        0 < order.quantity.dec.toRat ∧
          (isPriceOptional order.orderType = false → 0 < order.price.dec.toRat))) ∧
    ∀ (entrustID : Bytes) (newPrice : Price) (newQty : Quantity) (req : ChangeEntrustWireRequest),
      (({} : TradingService).changeEntrust accountID entrustID newPrice newQty).Sends req →
      ∀ dtype ∈ hkDataTypes, ∀ orderType : Bytes,
        (WellFormed dtype (isPriceOptional orderType = false) newQty.dec.toRat newPrice.dec.toRat ↔
          0 < newQty.dec.toRat ∧ (isPriceOptional orderType = false → 0 < newPrice.dec.toRat)) := by
  refine ⟨fun now order req hmarket hdtype hsends => ?_,
    fun entrustID newPrice newQty req hsends dtype hdtype orderType => ?_⟩
  · have hchecks := Call.sends_send.mp hsends
    simp only [validateOrderForHK, yields_then, yields_onlyIf] at hchecks
    obtain ⟨hquantity, hprice, -⟩ := hchecks.2.1 hmarket
    exact wellFormed_iff (yields_quantity hmarket hdtype hquantity)
      fun hpriced _ tick htick => yields_price hmarket hdtype (hprice hpriced) htick
  · have hchecks := Call.sends_send.mp hsends
    simp only [yields_then] at hchecks
    obtain ⟨-, -, hprice, hquantity, -⟩ := hchecks
    have hstock : changeEntrustSymbol.dataType ∈ hkDataTypes := List.mem_cons_self
    obtain ⟨k, hk⟩ := yields_quantity rfl hstock hquantity
    refine wellFormed_iff ?_ fun _ hle tick htick => ?_
    · obtain ⟨m, hm⟩ := hkLot_stock dtype
      refine ⟨k * m, ?_⟩
      rw [hk, show hkLot changeEntrustSymbol.dataType = m * hkLot dtype from hm]
      push_cast
      ring
    · obtain ⟨stockTick, hstockTick⟩ := hkTick_isSome hle dataTypeHKStock
      obtain ⟨l, hl⟩ := yields_price rfl hstock hprice hstockTick
      obtain ⟨n, rfl⟩ := hkTick_of_stock hstockTick htick
      refine ⟨l * n, ?_⟩
      rw [hl]
      push_cast
      ring

/-- A limit order for a stock. -/
def limitOrder [DecimalPackage] (quantity price : Decimal) : Order where
  symbol := { market := .hk, code := bytes "00700", dataType := dataTypeHKStock }
  side := bytes "1"
  orderType := bytes "3"
  quantity := ⟨quantity⟩
  price := ⟨price, zero⟩

section

attribute [local instance] ScaledInt.scaledInts

/-- An order for less than nothing at no price is sent, and so is a change to it. -/
theorem negative_order_sent :
    (∃ req, (({} : TradingService).entrust 0 (bytes "A")
        (limitOrder ⟨-100, 0⟩ ⟨0, 0⟩)).Sends req) ∧
      (∃ req, (({} : TradingService).changeEntrust (bytes "A") (bytes "1") {}
        ⟨⟨-100, 0⟩⟩).Sends req) ∧
      ¬WellFormed dataTypeHKStock (isPriceOptional (bytes "3") = false)
        (ScaledInt.toRat ⟨-100, 0⟩) (ScaledInt.toRat ⟨0, 0⟩) := by
  refine ⟨⟨entrustRequest (limitOrder ⟨-100, 0⟩ ⟨0, 0⟩), Call.sends_send.mpr (by decide +kernel)⟩,
    ⟨changeEntrustRequest (bytes "1") {} ⟨⟨-100, 0⟩⟩, Call.sends_send.mpr (by decide +kernel)⟩, ?_⟩
  intro h
  obtain ⟨k, hk, heq⟩ := h.quantity
  rw [ScaledInt.toRat_whole] at heq
  have hnonneg : (0 : ℚ) ≤ k * hkLot dataTypeHKStock := by positivity
  rw [← heq] at hnonneg
  norm_num at hnonneg

/-- One hundred shares at a price on the grid. -/
theorem sent_wellFormed_hundred :
    (∃ req, (({} : TradingService).entrust 0 (bytes "A")
        (limitOrder ⟨100, 0⟩ ⟨3504, -1⟩)).Sends req) ∧
      WellFormed dataTypeHKStock (isPriceOptional (bytes "3") = false)
        (ScaledInt.toRat ⟨100, 0⟩) (ScaledInt.toRat ⟨3504, -1⟩) := by
  have hsends : (({} : TradingService).entrust 0 (bytes "A")
      (limitOrder ⟨100, 0⟩ ⟨3504, -1⟩)).Sends
        (entrustRequest (limitOrder ⟨100, 0⟩ ⟨3504, -1⟩)) :=
    Call.sends_send.mpr (by decide +kernel)
  refine ⟨⟨_, hsends⟩, ((sent_wellFormed_iff (bytes "A")).1 0
    (limitOrder ⟨100, 0⟩ ⟨3504, -1⟩) _ rfl List.mem_cons_self hsends).mpr ?_⟩
  change 0 < ScaledInt.toRat ⟨100, 0⟩ ∧ (_ → 0 < ScaledInt.toRat ⟨3504, -1⟩)
  norm_num [ScaledInt.toRat]

end

end TradingService

end HstongApi
