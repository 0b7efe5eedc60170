import HstongApi.DomainJson
import HstongApi.PushEvents
import HstongApi.TradingLists

/-!
# Reads that do not crash

The nine reads of the `MarketService`, with the conversion of what the Gateway replies. A reply is what
`encoding/json` makes of it: an element of a list may be null, a text may be empty, and a number in a
`float64` is finite.

The conversions of quotes, candles, points and ticks look for null. Those of the levels of the order
book and of the broker queues do not, so they panic exactly if there is one. The rows of orders and
fills are read with constructors that panic on an empty text, which the market reads replace by
`"0"`. `reads_safe_iff` says for every read exactly which replies it survives.

A text that should be a number is empty or read by the decimal package (`IsAmount`); the text of a
finite `float64` is always read. So what is left are nulls and empty texts, and the conditions are
about these only.
-/

namespace HstongApi

open Checked DecimalPackage

open PushEvents (IsAmount returns_mustNewQuantity_itoa)

section

variable [DecimalPackage]

/-- `MustNewRate` -/
def mustNewRate (value : Bytes) : Except Panic Rate := do
  let dec ← mustDecimal (.rate value) value
  return ⟨dec⟩

/-- `MustNewTick` -/
def mustNewTick (value : Bytes) : Except Panic Tick := do
  let dec ← mustDecimal (.tickSize value) value
  return ⟨dec⟩

theorem returns_mustNewRate (value : Bytes) :
    Returns (mustNewRate value) ↔ Readable value := by
  rw [mustNewRate, returns_map, returns_mustDecimal]

theorem returns_mustNewTick (value : Bytes) :
    Returns (mustNewTick value) ↔ Readable value := by
  rw [mustNewTick, returns_map, returns_mustDecimal]

end

namespace MarketService

/-! ## Replies -/

/-- A number that was read from JSON into a `float64`. -/
abbrev JsonFloat : Type := { x : Double // x.Finite }

/-! The type that a reply is decoded into and the type of the result have the same fields, with other
types `π` for prices, `κ` for quantities, `μ` for amounts of money and `ρ` for rates. -/

/-- The fields of a quote: those of `dto.BasicQot` that are read, and `domain.Quote` without the symbol,
which is not set. -/
structure QuoteOf (π κ μ ρ : Type) where
  /-- the instrument is not traded -/
  isSuspended : Bool
  /-- the first price of the day -/
  openPrice : π
  /-- the highest price of the day -/
  highPrice : π
  /-- the lowest price of the day -/
  lowPrice : π
  /-- the price of the last trade -/
  lastPrice : π
  /-- the last price of the day before -/
  lastClosePrice : π
  /-- the step of the prices -/
  priceSpread : π
  /-- how much was traded -/
  volume : κ
  /-- for how much it was traded -/
  turnover : μ
  /-- the part of all shares that was traded -/
  turnoverRate : ρ
  /-- how far the price has moved -/
  amplitude : ρ
  /-- the state of the security -/
  secStatus : ℤ
  /-- since when it is listed -/
  listTime : Bytes
  /-- how many make a lot -/
  lotSize : ℤ
  /-- the time of the last trade -/
  tradeTime : Bytes
  /-- the time of the market -/
  marketTime : Bytes
  /-- the state of the stock, as a text -/
  stockStatus : Bytes
  /-- the volume, as a text -/
  volumeStr : Bytes
  /-- the session -/
  mktTmType : ℤ

/-- The fields of `dto.OrderBook` that are read, and of `domain.OrderBookLevel`. -/
structure LevelOf (π κ : Type) where
  /-- the place of the level, counted from the best price -/
  level : ℤ
  /-- the price of the level -/
  price : π
  /-- how much is offered or wanted at this price -/
  volume : κ

/-- The fields of `dto.KLine` and `domain.KLine`. -/
structure KLineOf (π κ μ : Type) where
  /-- the day -/
  date : Bytes
  /-- the highest price -/
  highPrice : π
  /-- the first price -/
  openPrice : π
  /-- the lowest price -/
  lowPrice : π
  /-- the last price -/
  closePrice : π
  /-- the last price of the candle before -/
  lastClosePrice : π
  /-- how much was traded -/
  volume : κ
  /-- for how much it was traded -/
  turnover : μ
  /-- the time, as a number -/
  timestamp : ℤ
  /-- the time, as a text -/
  time : Bytes

/-- The fields of `dto.TimeShare` and `domain.TimeSharePoint`. -/
structure PointOf (π κ μ : Type) where
  /-- the minute -/
  time : Bytes
  /-- the price -/
  price : π
  /-- the last price of the day before -/
  lastClosePrice : π
  /-- the average of the prices so far -/
  avgPrice : π
  /-- how much was traded -/
  volume : κ
  /-- for how much it was traded -/
  turnover : μ

/-- The fields of `dto.Ticker` and `domain.TickerTick`. -/
structure TickOf (π κ μ : Type) where
  /-- the time of the trade, as a text -/
  time : Bytes
  /-- who has started the trade -/
  side : ℤ
  /-- the price of the trade -/
  price : π
  /-- how much was traded -/
  volume : κ
  /-- for how much it was traded -/
  turnover : μ
  /-- the kind of trade -/
  type : ℤ
  /-- the time of the trade, as a number -/
  timestamp : ℤ
  /-- the session -/
  mktTmType : ℤ

/-- `domain.BrokerQueueEntry`, and `dto.Broker` with the same fields -/
structure BrokerQueueEntry where
  /-- the level of the order book -/
  level : ℤ
  /-- the number of the broker -/
  item : Bytes
  /-- the kind of entry -/
  type : ℤ
  /-- the name of the broker -/
  name : Bytes

namespace Dto

/-- `dto.BasicQot` -/
abbrev BasicQot : Type := QuoteOf JsonFloat ℤ JsonFloat JsonFloat

/-- `dto.OrderBook` -/
abbrev OrderBook : Type := LevelOf JsonFloat ℤ

/-- `dto.KLine` -/
abbrev KLine : Type := KLineOf JsonFloat ℤ JsonFloat

/-- `dto.TimeShare` -/
abbrev TimeShare : Type := PointOf JsonFloat ℤ JsonFloat

/-- `dto.Ticker` -/
abbrev Ticker : Type := TickOf JsonFloat ℤ JsonFloat

/-- `dto.Broker` -/
abbrev Broker : Type := BrokerQueueEntry

end Dto

/-- `orderBookWireResponse` -/
structure OrderBookWireResponse where
  /-- the instrument that was asked for, if the Gateway says it -/
  security : Option Security := none
  /-- the levels of those who sell -/
  orderBookAskList : List (Option Dto.OrderBook) := []
  /-- the levels of those who buy -/
  orderBookBidList : List (Option Dto.OrderBook) := []
  /-- a `json.Number` -/
  tickSize : Bytes := []

/-- `brokerWireResponse` -/
structure BrokerWireResponse where
  /-- the instrument that was asked for, if the Gateway says it -/
  security : Option Security := none
  /-- the queue of those who sell -/
  brokerAskList : List (Option Dto.Broker) := []
  /-- the queue of those who buy -/
  brokerBidList : List (Option Dto.Broker) := []

/-- `KLResponse`, `TimeShareResponse` and `TickerResponse`. -/
structure SeriesResponse (α : Type) where
  /-- the instrument that was asked for, if the Gateway says it -/
  security : Option Security := none
  /-- candles, points or ticks -/
  series : List (Option α) := []

/-- `klineWireResponse`, `timeShareWireResponse` and `tickerWireResponse` have the same fields. -/
abbrev SeriesWireResponse : Type → Type := SeriesResponse

/-! ## Results -/

section

variable [DecimalPackage]

/-- `domain.Quote` -/
abbrev Quote : Type := QuoteOf Price Quantity Money Rate

/-- `domain.OrderBookLevel` -/
abbrev OrderBookLevel : Type := LevelOf Price Quantity

/-- `domain.KLine` -/
abbrev KLine : Type := KLineOf Price Quantity Money

/-- `domain.TimeSharePoint` -/
abbrev TimeSharePoint : Type := PointOf Price Quantity Money

/-- `domain.TickerTick` -/
abbrev TickerTick : Type := TickOf Price Quantity Money

/-- `OrderBookResponse` -/
structure OrderBookResponse where
  /-- the instrument that was asked for, if the Gateway says it -/
  security : Option Security
  /-- the levels of those who sell -/
  ask : List OrderBookLevel
  /-- the levels of those who buy -/
  bid : List OrderBookLevel
  /-- the step of the prices -/
  tickSize : Tick

end

/-- `BrokerResponse` -/
structure BrokerResponse where
  /-- the instrument that was asked for, if the Gateway says it -/
  security : Option Security
  /-- the queue of those who sell -/
  ask : List BrokerQueueEntry
  /-- the queue of those who buy -/
  bid : List BrokerQueueEntry

/-! ## Conversion -/

/-- `decimalOrZero` -/
def decimalOrZero (s : Bytes) : Bytes := if s = [] then bytes "0" else s

/-- `securityOrNil`; the two types of an instrument have the same fields. -/
def securityOrNil : Option Security → Option Security
  | none => none
  | some sec => some { dataType := sec.dataType, code := sec.code }

/-- `convertBrokerEntries`. There is no test for nil. -/
def convertBrokerEntries (entries : List (Option Dto.Broker)) :
    Except Panic (List BrokerQueueEntry) :=
  entries.mapM fun
    | none => .error .nilDereference
    | some e => return { level := e.level, item := e.item, type := e.type, name := e.name }

section

variable [DecimalPackage] [FloatText]

/-- `floatToString` -/
def floatToString (f : JsonFloat) : Bytes := formatFloat f.val

/-- `convertToQuote` -/
def convertToQuote : Option Dto.BasicQot → Except Panic (Option Quote)
  | none => return none
  | some q => do
    let openPrice ← mustNewPrice (floatToString q.openPrice) (bytes "0")
    let highPrice ← mustNewPrice (floatToString q.highPrice) (bytes "0")
    let lowPrice ← mustNewPrice (floatToString q.lowPrice) (bytes "0")
    let lastPrice ← mustNewPrice (floatToString q.lastPrice) (bytes "0")
    let lastClosePrice ← mustNewPrice (floatToString q.lastClosePrice) (bytes "0")
    let priceSpread ← mustNewPrice (floatToString q.priceSpread) (bytes "0")
    let volume ← mustNewQuantity (itoa q.volume)
    let turnover ← mustNewHKD (floatToString q.turnover)
    let turnoverRate ← mustNewRate (floatToString q.turnoverRate)
    let amplitude ← mustNewRate (floatToString q.amplitude)
    return some {
      isSuspended := q.isSuspended
      openPrice, highPrice, lowPrice, lastPrice, lastClosePrice, priceSpread
      volume, turnover, turnoverRate, amplitude
      secStatus := q.secStatus
      listTime := q.listTime
      lotSize := q.lotSize
      tradeTime := q.tradeTime
      marketTime := q.marketTime
      stockStatus := q.stockStatus
      volumeStr := q.volumeStr
      mktTmType := q.mktTmType }

/-- `convertOrderBookLevels`. There is no test for nil. -/
def convertOrderBookLevels (levels : List (Option Dto.OrderBook)) :
    Except Panic (List OrderBookLevel) :=
  levels.mapM fun
    | none => .error .nilDereference
    | some l => do
      let price ← mustNewPrice (floatToString l.price) (bytes "0")
      let volume ← mustNewQuantity (itoa l.volume)
      return { level := l.level, price, volume }

/-- `convertToKLine` -/
def convertToKLine : Option Dto.KLine → Except Panic (Option KLine)
  | none => return none
  | some k => do
    let highPrice ← mustNewPrice (floatToString k.highPrice) (bytes "0")
    let openPrice ← mustNewPrice (floatToString k.openPrice) (bytes "0")
    let lowPrice ← mustNewPrice (floatToString k.lowPrice) (bytes "0")
    let closePrice ← mustNewPrice (floatToString k.closePrice) (bytes "0")
    let lastClosePrice ← mustNewPrice (floatToString k.lastClosePrice) (bytes "0")
    let volume ← mustNewQuantity (itoa k.volume)
    let turnover ← mustNewHKD (floatToString k.turnover)
    return some {
      date := k.date
      highPrice, openPrice, lowPrice, closePrice, lastClosePrice, volume, turnover
      timestamp := k.timestamp
      time := k.time }

/-- `convertToTimeSharePoint` -/
def convertToTimeSharePoint : Option Dto.TimeShare → Except Panic (Option TimeSharePoint)
  | none => return none
  | some ts => do
    let price ← mustNewPrice (floatToString ts.price) (bytes "0")
    let lastClosePrice ← mustNewPrice (floatToString ts.lastClosePrice) (bytes "0")
    let avgPrice ← mustNewPrice (floatToString ts.avgPrice) (bytes "0")
    let volume ← mustNewQuantity (itoa ts.volume)
    let turnover ← mustNewHKD (floatToString ts.turnover)
    return some { time := ts.time, price, lastClosePrice, avgPrice, volume, turnover }

/-- `convertToTickerTick` -/
def convertToTickerTick : Option Dto.Ticker → Except Panic (Option TickerTick)
  | none => return none
  | some t => do
    let price ← mustNewPrice (floatToString t.price) (bytes "0")
    let volume ← mustNewQuantity (itoa t.volume)
    let turnover ← mustNewHKD (floatToString t.turnover)
    return some {
      time := t.time
      side := t.side
      price, volume, turnover
      type := t.type
      timestamp := t.timestamp
      mktTmType := t.mktTmType }

/-! ### When a conversion returns -/

variable [LawfulReading]

attribute [local simp] returns_mustNewQuantity_itoa

@[simp] theorem returns_floatPrice (f : JsonFloat) :
    Returns (mustNewPrice (floatToString f) (bytes "0")) :=
  (returns_untickedPrice _).mpr ((readable_formatFloat _).mpr f.property)

@[simp] theorem returns_floatHKD (f : JsonFloat) : Returns (mustNewHKD (floatToString f)) :=
  (returns_mustNewHKD _).mpr ((readable_formatFloat _).mpr f.property)

@[simp] theorem returns_floatRate (f : JsonFloat) : Returns (mustNewRate (floatToString f)) :=
  (returns_mustNewRate _).mpr ((readable_formatFloat _).mpr f.property)

theorem returns_convertToQuote (q : Option Dto.BasicQot) : Returns (convertToQuote q) := by
  cases q with
  | none => exact returns_pure none
  | some q =>
    repeat refine .bind (by simp) fun _ => ?_
    exact returns_pure _

theorem returns_convertToKLine (k : Option Dto.KLine) : Returns (convertToKLine k) := by
  cases k with
  | none => exact returns_pure none
  | some k =>
    repeat refine .bind (by simp) fun _ => ?_
    exact returns_pure _

theorem returns_convertToTimeSharePoint (ts : Option Dto.TimeShare) :
    Returns (convertToTimeSharePoint ts) := by
  cases ts with
  | none => exact returns_pure none
  | some ts =>
    repeat refine .bind (by simp) fun _ => ?_
    exact returns_pure _

theorem returns_convertToTickerTick (t : Option Dto.Ticker) : Returns (convertToTickerTick t) := by
  cases t with
  | none => exact returns_pure none
  | some t =>
    repeat refine .bind (by simp) fun _ => ?_
    exact returns_pure _

/-- **The levels are read** exactly if none of them is null. -/
theorem returns_convertOrderBookLevels (levels : List (Option Dto.OrderBook)) :
    Returns (convertOrderBookLevels levels) ↔ none ∉ levels := by
  rw [convertOrderBookLevels, returns_mapM]
  refine ⟨fun h hnone => not_returns_error _ (h none hnone), fun hnone l hl => ?_⟩
  cases l with
  | none => exact absurd hl hnone
  | some l =>
    repeat refine .bind (by simp) fun _ => ?_
    exact returns_pure _

end

/-- **The queue is read** exactly if none of its entries is null. -/
theorem returns_convertBrokerEntries (entries : List (Option Dto.Broker)) :
    Returns (convertBrokerEntries entries) ↔ none ∉ entries := by
  rw [convertBrokerEntries, returns_mapM]
  refine ⟨fun h hnone => not_returns_error _ (h none hnone), fun hnone e he => ?_⟩
  cases e with
  | none => exact absurd he hnone
  | some e => exact returns_pure _

/-- An absent number is zero. -/
theorem readable_decimalOrZero [DecimalPackage] [LawfulReading] {s : Bytes} (h : IsAmount s) :
    Readable (decimalOrZero s) := by
  unfold decimalOrZero
  split
  · exact readable_zero
  · rename_i hne
    exact h.resolve_left hne

/-! ## Requests -/

/-! The caller names instruments by pointers, which may be nil. The request to the Gateway has the same
fields, with the instruments that the pointers lead to. So `ι` is the type of a pointer or that of an
instrument. -/

/-- The fields of `BasicQotRequest` and `basicQotRequest`. -/
structure QuoteRequestOf (ι : Type) where
  /-- the instruments -/
  security : List ι
  /-- whether delayed quotes will do -/
  needDelayFlag : Bytes := []
  /-- the session -/
  mktTmType : ℤ := 0

/-- The fields of `OrderBookRequest` and `orderBookRequest`. -/
structure BookRequestOf (ι : Type) where
  /-- the instrument -/
  security : ι
  /-- the session -/
  mktTmType : ℤ := 0
  /-- which of the order books of the instrument -/
  depthBookType : ℤ := 0

/-- The fields of `KLRequest` and `klRequest`. -/
structure KLRequestOf (ι : Type) where
  /-- the instrument -/
  security : ι
  /-- the day where the candles start -/
  startDate : ℤ := 0
  /-- whether they go back or forth from there -/
  direction : ℤ := 0
  /-- how the prices are adjusted -/
  exRightFlag : ℤ := 0
  /-- how long a candle is -/
  cycType : ℤ := 0
  /-- how many candles -/
  limit : ℤ := 0

/-- The fields of `TimeShareRequest` and `timeShareRequest`. -/
structure PointsRequestOf (ι : Type) where
  /-- the instrument -/
  security : ι
  /-- the session -/
  mktTmType : ℤ := 0

/-- The fields of `TickerRequest` and `tickerRequest`. -/
structure TicksRequestOf (ι : Type) where
  /-- the instrument -/
  security : ι
  /-- how many ticks -/
  limit : ℤ := 0
  /-- the session -/
  mktTmType : ℤ := 0

/-- The field of `BrokerRequest` and `brokerRequest`. -/
structure BrokerRequestOf (ι : Type) where
  /-- the instrument -/
  security : ι

/-- `BasicQotRequest` -/
abbrev BasicQotRequest : Type := QuoteRequestOf (Option Security)

/-- `basicQotRequest` -/
abbrev BasicQotWireRequest : Type := QuoteRequestOf Security

/-- `OrderBookRequest` -/
abbrev OrderBookRequest : Type := BookRequestOf (Option Security)

/-- `orderBookRequest` -/
abbrev OrderBookWireRequest : Type := BookRequestOf Security

/-- `KLRequest` -/
abbrev KLRequest : Type := KLRequestOf (Option Security)

/-- `klRequest` -/
abbrev KLWireRequest : Type := KLRequestOf Security

/-- `TimeShareRequest` -/
abbrev TimeShareRequest : Type := PointsRequestOf (Option Security)

/-- `timeShareRequest` -/
abbrev TimeShareWireRequest : Type := PointsRequestOf Security

/-- `TickerRequest` -/
abbrev TickerRequest : Type := TicksRequestOf (Option Security)

/-- `tickerRequest` -/
abbrev TickerWireRequest : Type := TicksRequestOf Security

/-- `BrokerRequest` -/
abbrev BrokerRequest : Type := BrokerRequestOf (Option Security)

/-- `brokerRequest` -/
abbrev BrokerWireRequest : Type := BrokerRequestOf Security

/-- `UsOptionChainCodeRequest`, and `usOptionChainCodeRequest` with the same fields -/
structure UsOptionChainCodeRequest where
  /-- the code of the share -/
  securityCode : Bytes
  /-- when the options expire -/
  expireDate : Bytes := []
  /-- in or out of the money -/
  flagInOut : ℤ := 0
  /-- calls or puts -/
  optionType : Bytes := []

/-- `UsOptionChainExpireDateRequest`, and `usOptionChainExpireDateRequest` with the same field -/
structure UsOptionChainExpireDateRequest where
  /-- the code of the share -/
  securityCode : Bytes

/-- `MaxTickerLimit` -/
def maxTickerLimit : ℤ := 100

/-- `validateSecurityList`, with the instruments that the pointers lead to -/
def validateSecurityList (op : Bytes) (secs : List (Option Security)) : Checked (List Security) := do
  reject (secs = [])
    (.new GoError.statusInvalidParam op (bytes "security list must not be empty"))
  secs.zipIdx.mapM fun (s, i) => require s (.new GoError.statusInvalidParam op
    (bytes "security[" ++ itoa i ++ bytes "] must not be nil"))

/-- `validateSecurity`, with the instrument that the pointer leads to -/
def validateSecurity (op : Bytes) (s : Option Security) : Checked Security :=
  require s (.new GoError.statusInvalidParam op (bytes "security must not be nil"))

/-- `validateSecurityCode` -/
def validateSecurityCode (op code : Bytes) : Checked Unit :=
  reject (code = [])
    (.new GoError.statusInvalidParam op (bytes "securityCode must not be empty"))

theorem total_validateSecurityList (op : Bytes) (secs : List (Option Security)) :
    Total (validateSecurityList op secs) :=
  total_bind (total_reject _ _) fun _ => total_mapM (fun _ => total_require _ _) _

/-! ## Methods -/

section

variable [DecimalPackage] [FloatText]

/-- `BasicQot` -/
def basicQot (req : BasicQotRequest) :
    Call BasicQotWireRequest (List (Option Dto.BasicQot)) (List (Option Quote)) :=
  .send (bytes "market.BasicQot") (bytes "/hq/BasicQot")
    (do
      let security ← validateSecurityList (bytes "market.BasicQot") req.security
      return { security, needDelayFlag := req.needDelayFlag, mktTmType := req.mktTmType })
    fun wireResp => .lift (wireResp.mapM convertToQuote)

/-- `OrderBook` -/
def orderBook (req : OrderBookRequest) :
    Call OrderBookWireRequest OrderBookWireResponse OrderBookResponse :=
  .send (bytes "market.OrderBook") (bytes "/hq/OrderBook")
    (do
      let security ← validateSecurity (bytes "market.OrderBook") req.security
      return { security, mktTmType := req.mktTmType, depthBookType := req.depthBookType })
    fun wireResp => .lift do
      let ask ← convertOrderBookLevels wireResp.orderBookAskList
      let bid ← convertOrderBookLevels wireResp.orderBookBidList
      let tickSize ← mustNewTick (decimalOrZero wireResp.tickSize)
      return { security := securityOrNil wireResp.security, ask, bid, tickSize }

/-- `KL` -/
def kl (req : KLRequest) :
    Call KLWireRequest (SeriesWireResponse Dto.KLine) (SeriesResponse KLine) :=
  .send (bytes "market.KL") (bytes "/hq/KL")
    (do
      let security ← validateSecurity (bytes "market.KL") req.security
      return {
        security
        startDate := req.startDate
        direction := req.direction
        exRightFlag := req.exRightFlag
        cycType := req.cycType
        limit := req.limit })
    fun wireResp => .lift do
      let series ← wireResp.series.mapM convertToKLine
      return { security := securityOrNil wireResp.security, series }

/-- `TimeShare` -/
def timeShare (req : TimeShareRequest) :
    Call TimeShareWireRequest (SeriesWireResponse Dto.TimeShare) (SeriesResponse TimeSharePoint) :=
  .send (bytes "market.TimeShare") (bytes "/hq/TimeShare")
    (do
      let security ← validateSecurity (bytes "market.TimeShare") req.security
      return { security, mktTmType := req.mktTmType })
    fun wireResp => .lift do
      let series ← wireResp.series.mapM convertToTimeSharePoint
      return { security := securityOrNil wireResp.security, series }

/-- `Ticker` -/
def ticker (req : TickerRequest) :
    Call TickerWireRequest (SeriesWireResponse Dto.Ticker) (SeriesResponse TickerTick) :=
  .send (bytes "market.Ticker") (bytes "/hq/Ticker")
    (do
      let security ← validateSecurity (bytes "market.Ticker") req.security
      reject (req.limit < 1 ∨ maxTickerLimit < req.limit)
        (.new GoError.statusInvalidParam (bytes "market.Ticker")
          (bytes "ticker limit " ++ itoa req.limit ++ bytes " out of range 1.." ++
            itoa maxTickerLimit))
      return { security, limit := req.limit, mktTmType := req.mktTmType })
    fun wireResp => .lift do
      let series ← wireResp.series.mapM convertToTickerTick
      return { security := securityOrNil wireResp.security, series }

end

/-- `Broker` -/
def broker (req : BrokerRequest) : Call BrokerWireRequest BrokerWireResponse BrokerResponse :=
  .send (bytes "market.Broker") (bytes "/hq/Broker")
    (do
      let security ← validateSecurity (bytes "market.Broker") req.security
      return { security })
    fun wireResp => .lift do
      let ask ← convertBrokerEntries wireResp.brokerAskList
      let bid ← convertBrokerEntries wireResp.brokerBidList
      return { security := securityOrNil wireResp.security, ask, bid }

/-- `UsOptionChainCode` -/
def usOptionChainCode (req : UsOptionChainCodeRequest) :
    Call UsOptionChainCodeRequest (List Bytes) (List Bytes) :=
  .send (bytes "market.UsOptionChainCode") (bytes "/hq/UsOptionChainCode")
    (do
      validateSecurityCode (bytes "market.UsOptionChainCode") req.securityCode
      return req)
    fun optionCode => pure optionCode

/-- `UsOptionChainExpireDate` -/
def usOptionChainExpireDate (req : UsOptionChainExpireDateRequest) :
    Call UsOptionChainExpireDateRequest (List Bytes) (List Bytes) :=
  .send (bytes "market.UsOptionChainExpireDate") (bytes "/hq/UsOptionChainExpireDate")
    (do
      validateSecurityCode (bytes "market.UsOptionChainExpireDate") req.securityCode
      return req)
    fun expireDate => pure expireDate

/-- `UsOverNightTradeCodes`; the request has no fields. -/
def usOverNightTradeCodes : Call Unit (List Bytes) (List Bytes) :=
  .send (bytes "market.UsOverNightTradeCodes") (bytes "/hq/UsOverNightTradeCodes") (pure ())
    fun securityCodes => pure securityCodes

/-! ## Safety -/

/-- A series comes back if each of its elements can be converted. -/
theorem safe_series {ρ δ α : Type} {op route : Bytes} {check : Checked ρ} (hcheck : Total check)
    {convert : Option δ → Except Panic (Option α)} (hconvert : ∀ x, Returns (convert x)) :
    (Call.send op route check fun wireResp : SeriesWireResponse δ => .lift do
      let series ← wireResp.series.mapM convert
      return ({ security := securityOrNil wireResp.security, series } : SeriesResponse α)).Safe := by
  refine Call.safe_send hcheck fun out => ?_
  rw [total_lift, returns_map, returns_mapM]
  exact fun x _ => hconvert x

section

variable [DecimalPackage] [LawfulReading] [FloatText]

/-- **The reads that always come back**: they look for null and read no text as a number. -/
theorem safe_reads (quotes : BasicQotRequest) (candles : KLRequest) (points : TimeShareRequest)
    (ticks : TickerRequest) (codes : UsOptionChainCodeRequest)
    (dates : UsOptionChainExpireDateRequest) :
    (basicQot quotes).Safe ∧ (kl candles).Safe ∧ (timeShare points).Safe ∧ (ticker ticks).Safe ∧
      (usOptionChainCode codes).Safe ∧ (usOptionChainExpireDate dates).Safe ∧
      usOverNightTradeCodes.Safe := by
  refine ⟨?_, ?_, ?_, ?_, ?_, ?_, ?_⟩
  · refine Call.safe_send (total_bind (total_validateSecurityList _ _) fun _ => total_pure _) ?_
    exact fun out => total_lift.mpr ((returns_mapM out).mpr fun q _ => returns_convertToQuote q)
  · exact safe_series (total_bind (total_require _ _) fun _ => total_pure _) returns_convertToKLine
  · exact safe_series (total_bind (total_require _ _) fun _ => total_pure _)
      returns_convertToTimeSharePoint
  · exact safe_series (total_bind (total_require _ _) fun _ =>
      total_bind (total_reject _ _) fun _ => total_pure _) returns_convertToTickerTick
  · exact Call.safe_send (total_bind (total_reject _ _) fun _ => total_pure _) total_pure
  · exact Call.safe_send (total_bind (total_reject _ _) fun _ => total_pure _) total_pure
  · exact Call.safe_send (total_pure ()) total_pure

/-- **The order book** comes back exactly if there is no null among its levels. -/
theorem safeIff_orderBook (req : OrderBookRequest) :
    (orderBook req).SafeIff (fun out => IsAmount out.tickSize)
      fun out => none ∉ out.orderBookAskList ∧ none ∉ out.orderBookBidList := by
  refine Call.safeIff_send (total_bind (total_require _ _) fun _ => total_pure _) fun out htick => ?_
  have htickSize : Returns (mustNewTick (decimalOrZero out.tickSize)) :=
    (returns_mustNewTick _).mpr (readable_decimalOrZero htick)
  rw [total_lift, returns_bind_and fun _ => returns_bind_and fun _ => returns_map _,
    returns_convertOrderBookLevels, returns_convertOrderBookLevels, and_iff_left htickSize]

end

/-- **The broker queues** come back exactly if there is no null among their entries. -/
theorem safeIff_broker (req : BrokerRequest) :
    (broker req).SafeIff (fun _ => True)
      fun out => none ∉ out.brokerAskList ∧ none ∉ out.brokerBidList := by
  refine Call.safeIff_send (total_bind (total_require _ _) fun _ => total_pure _) fun out _ => ?_
  rw [total_lift, returns_bind_and fun _ => returns_map _, returns_convertBrokerEntries,
    returns_convertBrokerEntries]

end MarketService

/-! ## Rows of orders and fills -/

namespace TradingService

section

variable [DecimalPackage]

/-- The numbers of the rows are absent, empty or decimals. -/
def Typed (numbers : EntrustWire → List Bytes) (rows : List EntrustWire) : Prop :=
  ∀ row ∈ rows, ∀ t ∈ numbers row, IsAmount t

/-- The numbers of the rows are there. A null among the rows is a row without any. -/
def Filled (numbers : EntrustWire → List Bytes) (rows : List EntrustWire) : Prop :=
  ∀ row ∈ rows, ∀ t ∈ numbers row, t ≠ []

/-- The empty text is not read. -/
theorem readable_iff_ne_nil [LawfulReading] {t : Bytes} (h : IsAmount t) :
    Readable t ↔ t ≠ [] := by
  constructor
  · rintro hread rfl
    exact not_readable rfl hread
  · exact fun hne => h.resolve_left hne

/-- **A list of orders or fills** comes back exactly if no number of a row is missing. -/
theorem safeIff_orderList [LawfulReading] {α : Type} {op route accountID : Bytes} {req : OrderListWireRequest}
    {fromWire : EntrustWire → Except Panic α} {numbers : EntrustWire → List Bytes}
    (hnumbers : ∀ row, Returns (fromWire row) ↔ ∀ t ∈ numbers row, Readable t) :
    (orderList op route accountID req fromWire).SafeIff (Typed numbers) (Filled numbers) := by
  refine Call.safeIff_send (total_bind (total_reject _ _) fun _ => total_pure _) fun out htyped => ?_
  refine total_lift.trans ((returns_mapM out).trans ?_)
  simp only [hnumbers]
  exact forall₂_congr fun row hrow => forall₂_congr fun t ht =>
    readable_iff_ne_nil (htyped row hrow t ht)

end

end TradingService

/-! ## All reads -/

open MarketService TradingService in
/-- **Which replies a read survives.** Quotes, candles, points, ticks, option codes, dates and
overnight codes come back whatever the Gateway replies. The order book and the broker queues come
back exactly if there is no null in their lists. The lists of orders and fills come back exactly if
no number of a row or of its fees is missing. -/
theorem reads_safe_iff [DecimalPackage] [LawfulReading] [FloatText] (quotes : BasicQotRequest) (book : OrderBookRequest)
    (candles : KLRequest) (points : TimeShareRequest) (ticks : TickerRequest)
    (queues : BrokerRequest) (codes : UsOptionChainCodeRequest)
    (dates : UsOptionChainExpireDateRequest) (accountID : Bytes) (real : EntrustFilter)
    (deliver : DeliverFilter) (history : HistoryFilter) :
    ((basicQot quotes).Safe ∧ (kl candles).Safe ∧ (timeShare points).Safe ∧ (ticker ticks).Safe ∧
      (usOptionChainCode codes).Safe ∧ (usOptionChainExpireDate dates).Safe ∧
      usOverNightTradeCodes.Safe) ∧
    ((orderBook book).SafeIff (fun out => IsAmount out.tickSize)
      fun out => none ∉ out.orderBookAskList ∧ none ∉ out.orderBookBidList) ∧
    ((broker queues).SafeIff (fun _ => True)
      fun out => none ∉ out.brokerAskList ∧ none ∉ out.brokerBidList) ∧
    (realEntrustList accountID real).SafeIff (Typed EntrustWire.entrustNumbers)
      (Filled EntrustWire.entrustNumbers) ∧
    (historyEntrustList accountID history).SafeIff (Typed EntrustWire.entrustNumbers)
      (Filled EntrustWire.entrustNumbers) ∧
    (realDeliverList accountID deliver).SafeIff (Typed EntrustWire.fillNumbers)
      (Filled EntrustWire.fillNumbers) ∧
    (historyDeliverList accountID history).SafeIff (Typed EntrustWire.fillNumbers)
      (Filled EntrustWire.fillNumbers) :=
  ⟨safe_reads quotes candles points ticks codes dates, safeIff_orderBook book,
    safeIff_broker queues,
    safeIff_orderList (returns_entrustFromWire · _), safeIff_orderList (returns_entrustFromWire · _),
    safeIff_orderList (returns_fillFromWire · _), safeIff_orderList (returns_fillFromWire · _)⟩

section

attribute [local instance] ScaledInt.scaledInts exactTexts

open MarketService in
/-- An order book with one level and the tick `0.01`. -/
def smallBook : OrderBookWireResponse where
  orderBookAskList := [some ⟨0, ⟨⟨0⟩, by decide⟩, 0⟩]
  tickSize := bytes "0.01"

open MarketService in
/-- It comes back. -/
theorem reads_safe_smallBook : Returns ((orderBook { security := some ⟨0, []⟩ }).run
    fun _ => .ok smallBook) := by
  have hbook := (reads_safe_iff { security := [] } { security := some ⟨0, []⟩ } { security := none }
    { security := none } { security := none } { security := none } { securityCode := [] }
    { securityCode := [] } [] {} {} {}).2.1
  refine (hbook _ ?_).mpr ?_
  · rintro out ⟨req, -, hout⟩
    cases hout
    exact .inr (by decide +kernel)
  · rintro out ⟨req, -, hout⟩
    cases hout
    exact ⟨by simp [smallBook], by simp [smallBook]⟩

open MarketService TradingService in
/-- A queue `[null]` and a row `{}` are replies that decode; the one ends in a nil dereference and the
other in the panic of a price. -/
theorem reads_panic :
    (broker { security := some { dataType := 0, code := [] } }).run
        (fun _ => .ok { brokerAskList := [none] }) = .error .nilDereference ∧
      Typed EntrustWire.entrustNumbers [{}] ∧
      (realEntrustList (bytes "A") {}).run (fun _ => .ok [{}]) = .error (.price []) := by
  refine ⟨rfl, ?_, ?_⟩
  · intro row hrow t ht
    rw [List.mem_singleton.mp hrow] at ht
    have htexts : ({} : EntrustWire).entrustNumbers = List.replicate 4 [] := rfl
    exact .inl (List.eq_of_mem_replicate (htexts ▸ ht))
  · rw [realEntrustList, run_orderList (by decide +kernel)]
    rfl

end

end HstongApi
