import HstongApi.Domain
import HstongApi.Doubles
import HstongApi.PushKeys

/-!
# Push messages and their events

The messages of the push stream, as protobuf decodes them, and the events of the domain
package that the push package makes of them. The five decoders hand the numbers of a message
to constructors that panic on bad text. For each decoder there is a condition on the numbers
of its message, and a theorem that it returns exactly under that condition:

* a double must be finite, since `NaN` and the infinities are written as text that is no number;
* a text of a trade delivery must be empty or a text that the decimal package reads;
* whole numbers, instrument codes and lists may be what they want.

The decoders themselves need nothing of the decimal package. That they return exactly under their
condition is for a package with a lawful reader.

Fields that no decoder reads are left out. The integers of a message are in `ℤ`; there is no
arithmetic on them.
-/

namespace HstongApi

open DecimalPackage

namespace PushEvents

/-! ## Messages -/

/-- `dto.BasicQot` -/
structure BasicQot where
  /-- the first price of the day -/
  openPrice : Double
  highPrice : Double
  lowPrice : Double
  lastPrice : Double
  /-- the last price of the day before -/
  lastClosePrice : Double
  volume : ℤ
  turnover : Double
  deriving DecidableEq

/-- `hqnotify.BasicQotNotify` -/
structure BasicQotNotify where
  /-- the instrument; a message may come without one -/
  security : Option Security
  basicQot : Option BasicQot
  deriving DecidableEq

/-- `dto.Ticker` -/
structure Ticker where
  side : ℤ
  price : Double
  volume : ℤ
  turnover : Double
  deriving DecidableEq

/-- `hqnotify.TickerNotify` -/
structure TickerNotify where
  security : Option Security
  ticker : Option Ticker
  deriving DecidableEq

/-- `dto.OrderBook` -/
structure OrderBook where
  level : ℤ
  price : Double
  volume : ℤ
  deriving DecidableEq

/-- `hqnotify.OrderBookFullNotify` -/
structure OrderBookFullNotify where
  security : Option Security
  /-- zero for the buyers -/
  side : ℤ
  orderBookList : List OrderBook
  deriving DecidableEq

/-- `dto.Broker` -/
structure Broker where
  level : ℤ
  item : Bytes
  type : ℤ
  name : Bytes
  deriving DecidableEq

/-- `hqnotify.BrokerNotify` -/
structure BrokerNotify where
  security : Option Security
  side : ℤ
  brokerList : List Broker
  deriving DecidableEq

/-- `tradenotify.TradeStockDeliverNotify` -/
structure TradeStockDeliverNotify where
  stockCode : Bytes := []
  /-- the side of the order -/
  entrustBs : Bytes := []
  /-- the price of the fill -/
  businessPrice : Bytes := []
  /-- the quantity of the fill -/
  businessAmount : Bytes := []
  entrustStatus : Bytes := []
  clientId : Bytes := []
  /-- the number of the order -/
  entrustNo : Bytes := []
  /-- the turnover of all fills of the order -/
  sumBusinessBalance : Bytes := []
  /-- the number of the fill -/
  matchNo : Bytes := []
  deriving DecidableEq

/-! ## Events -/

section

variable [DecimalPackage]

/-- `domain.QuoteEvent` -/
structure QuoteEvent where
  symbol : Symbol
  lastPrice : Price := {}
  openPrice : Price := {}
  highPrice : Price := {}
  lowPrice : Price := {}
  closePrice : Price := {}
  volume : Quantity := {}
  turnover : Money := {}
  bidPrice : Price := {}
  askPrice : Price := {}
  bidQty : Quantity := {}
  askQty : Quantity := {}
  timestamp : Bytes
  deriving DecidableEq

/-- `domain.TickerEvent` -/
structure TickerEvent where
  symbol : Symbol
  price : Price := {}
  volume : Quantity := {}
  turnover : Money := {}
  timestamp : Bytes
  side : Bytes := []
  deriving DecidableEq

/-- `domain.OrderBookLevel` -/
structure OrderBookLevel where
  level : ℤ
  price : Price
  quantity : Quantity
  deriving DecidableEq

/-- `domain.OrderBookEvent` -/
structure OrderBookEvent where
  symbol : Symbol
  bids : List OrderBookLevel := []
  asks : List OrderBookLevel := []
  depth : ℕ := 0
  timestamp : Bytes
  deriving DecidableEq

/-- `domain.BrokerLevel` -/
structure BrokerLevel where
  level : ℤ
  item : Bytes
  type : ℤ
  name : Bytes
  deriving DecidableEq

/-- `domain.BrokerEvent` -/
structure BrokerEvent where
  symbol : Symbol
  buyers : List BrokerLevel := []
  sellers : List BrokerLevel := []
  timestamp : Bytes
  deriving DecidableEq

/-- `domain.TradeEvent` -/
structure TradeEvent where
  symbol : Symbol
  orderID : Bytes
  entrustID : Bytes
  price : Price
  quantity : Quantity
  turnover : Money
  side : Bytes
  timestamp : Bytes
  counterID : Bytes
  orderStatus : Bytes
  deriving DecidableEq

/-- `domain.SystemEvent` -/
structure SystemEvent where
  code : Bytes
  message : Bytes
  level : Bytes
  deriving DecidableEq

/-- `domain.PushEvent` -/
inductive Event
  | quote (event : QuoteEvent)
  | ticker (event : TickerEvent)
  | orderBook (event : OrderBookEvent)
  | broker (event : BrokerEvent)
  | trade (event : TradeEvent)
  | system (event : SystemEvent)
  deriving DecidableEq

end

/-! ## Parts of an event -/

/-- `wireTick` -/
def wireTick : Bytes := bytes "0"

/-- `pushDecimal` -/
def pushDecimal (s : Bytes) : Bytes := if s = [] then bytes "0" else s

/-- `pushSymbol` -/
def pushSymbol (code : Bytes) (dataType : ℤ) : Except Panic Symbol :=
  let market := marketFromCode code
  if market = .none then
    .ok { market := market, code := code, dataType := dataType, fullCode := code }
  -- the index `len(code)-len(market)-1` must not be negative
  else if market.text.length + 1 ≤ code.length then
    let bare := code.take (code.length - market.text.length - 1)
    .ok { market := market, code := code, dataType := dataType,
          fullCode := bare ++ bytes "." ++ market.text }
  else .error .sliceBounds

/-- `pushSymbolFromSecurity` -/
def pushSymbolFromSecurity : Option Security → Except Panic Symbol
  | none => .ok {}
  | some sec => pushSymbol sec.code sec.dataType

/-- `entrustBSFromInt32` -/
def entrustBSFromInt32 (side : ℤ) : Bytes :=
  if side = 1 then bytes "1"
  else if side = 2 then bytes "2"
  else if side = 3 then bytes "3"
  else if side = 4 then bytes "4"
  else itoa side

/-- A symbol is made of every code. -/
theorem returns_pushSymbol (code : Bytes) (dataType : ℤ) : Returns (pushSymbol code dataType) := by
  simp only [pushSymbol]
  split
  · exact ⟨_, rfl⟩
  · rename_i hmarket
    rw [if_pos (marketFromCode_length hmarket)]
    exact ⟨_, rfl⟩

theorem returns_pushSymbolFromSecurity (sec : Option Security) :
    Returns (pushSymbolFromSecurity sec) := by
  cases sec with
  | none => exact ⟨_, rfl⟩
  | some sec => exact returns_pushSymbol sec.code sec.dataType

section

variable [DecimalPackage]

/-- The text of a trade delivery that is empty or read as a decimal. -/
def IsAmount (s : Bytes) : Prop := s = [] ∨ Readable s

instance (s : Bytes) : Decidable (IsAmount s) := inferInstanceAs (Decidable (_ ∨ _))

theorem readable_wireTick [LawfulReading] : Readable wireTick :=
  (LawfulReading.reads wireTick 0 (by decide +kernel) (by decide)).1

theorem readable_pushDecimal [LawfulReading] (s : Bytes) :
    Readable (pushDecimal s) ↔ IsAmount s := by
  unfold pushDecimal IsAmount
  split
  · rename_i hnil
    exact iff_of_true readable_wireTick (.inl hnil)
  · rename_i hne
    exact (or_iff_right hne).symm

end

/-! ## Decoders -/

section

variable [DecimalPackage] [FloatText]

/-- `domain.MustNewPrice(strconv.FormatFloat(x, 'f', -1, 64), wireTick)` -/
def floatPrice (x : Double) : Except Panic Price := mustNewPrice (formatFloat x) wireTick

/-- `domain.MustNewMoney(strconv.FormatFloat(x, 'f', -1, 64), "HKD", 3)` -/
def floatMoney (x : Double) : Except Panic Money := mustNewMoney (formatFloat x) (bytes "HKD") 3

/-- `decodeBasicQotEvent` -/
def decodeBasicQotEvent (notify : BasicQotNotify) (notifyTime : ℕ) : Except Panic QuoteEvent := do
  let symbol ← pushSymbolFromSecurity notify.security
  match notify.basicQot with
  | none => return { symbol := symbol, timestamp := natText notifyTime }
  | some q =>
    let lastPrice ← floatPrice q.lastPrice
    let openPrice ← floatPrice q.openPrice
    let highPrice ← floatPrice q.highPrice
    let lowPrice ← floatPrice q.lowPrice
    let closePrice ← floatPrice q.lastClosePrice
    let volume ← mustNewQuantity (itoa q.volume)
    let turnover ← floatMoney q.turnover
    return { symbol := symbol, lastPrice := lastPrice, openPrice := openPrice,
             highPrice := highPrice, lowPrice := lowPrice, closePrice := closePrice,
             volume := volume, turnover := turnover, timestamp := natText notifyTime }

/-- `decodeTickerEvent` -/
def decodeTickerEvent (notify : TickerNotify) (notifyTime : ℕ) : Except Panic TickerEvent := do
  let symbol ← pushSymbolFromSecurity notify.security
  match notify.ticker with
  | none => return { symbol := symbol, timestamp := natText notifyTime }
  | some t =>
    let price ← floatPrice t.price
    let volume ← mustNewQuantity (itoa t.volume)
    let turnover ← floatMoney t.turnover
    return { symbol := symbol, price := price, volume := volume, turnover := turnover,
             timestamp := natText notifyTime, side := entrustBSFromInt32 t.side }

/-- The body of the loop of `decodeOrderBookEvent`. -/
def addLevel (side : ℤ) (event : OrderBookEvent) (ob : OrderBook) : Except Panic OrderBookEvent := do
  let price ← floatPrice ob.price
  let quantity ← mustNewQuantity (itoa ob.volume)
  let level : OrderBookLevel := ⟨ob.level, price, quantity⟩
  return if side = 0 then { event with bids := event.bids ++ [level] }
    else { event with asks := event.asks ++ [level] }

/-- `decodeOrderBookEvent` -/
def decodeOrderBookEvent (notify : OrderBookFullNotify) (notifyTime : ℕ) :
    Except Panic OrderBookEvent := do
  let symbol ← pushSymbolFromSecurity notify.security
  let event ← notify.orderBookList.foldlM (addLevel notify.side)
    { symbol := symbol, timestamp := natText notifyTime }
  return { event with depth := event.bids.length + event.asks.length }

/-- The body of the loop of `decodeBrokerEvent`. -/
def addBroker (side : ℤ) (event : BrokerEvent) (b : Broker) : BrokerEvent :=
  let bl : BrokerLevel := ⟨b.level, b.item, b.type, b.name⟩
  if side = 0 then { event with buyers := event.buyers ++ [bl] }
  else { event with sellers := event.sellers ++ [bl] }

/-- `decodeBrokerEvent` -/
def decodeBrokerEvent (notify : BrokerNotify) (notifyTime : ℕ) : Except Panic BrokerEvent := do
  let symbol ← pushSymbolFromSecurity notify.security
  return notify.brokerList.foldl (addBroker notify.side)
    { symbol := symbol, timestamp := natText notifyTime }

/-- `decodeTradeEvent` -/
def decodeTradeEvent (notify : TradeStockDeliverNotify) (notifyTime : ℕ) :
    Except Panic TradeEvent := do
  let symbol ← pushSymbol notify.stockCode 0
  let price ← mustNewPrice (pushDecimal notify.businessPrice) wireTick
  let quantity ← mustNewQuantity (pushDecimal notify.businessAmount)
  let turnover ← mustNewMoney (pushDecimal notify.sumBusinessBalance) (bytes "HKD") 3
  return { symbol := symbol, price := price, quantity := quantity, turnover := turnover,
           orderID := notify.clientId, entrustID := notify.entrustNo,
           counterID := notify.matchNo, timestamp := natText notifyTime,
           side := notify.entrustBs, orderStatus := notify.entrustStatus }

end

/-! ## When the decoders return -/

/-- The doubles of a quote are finite. -/
def BasicQotNotify.Numeric (notify : BasicQotNotify) : Prop :=
  ∀ q ∈ notify.basicQot, q.lastPrice.Finite ∧ q.openPrice.Finite ∧ q.highPrice.Finite ∧
    q.lowPrice.Finite ∧ q.lastClosePrice.Finite ∧ q.turnover.Finite

/-- The doubles of a tick are finite. -/
def TickerNotify.Numeric (notify : TickerNotify) : Prop :=
  ∀ t ∈ notify.ticker, t.price.Finite ∧ t.turnover.Finite

/-- The prices of all levels are finite. -/
def OrderBookFullNotify.Numeric (notify : OrderBookFullNotify) : Prop :=
  ∀ ob ∈ notify.orderBookList, ob.price.Finite

/-- The three amounts of a delivery are empty or can be read. -/
def TradeStockDeliverNotify.Numeric [DecimalPackage] (notify : TradeStockDeliverNotify) : Prop :=
  IsAmount notify.businessPrice ∧ IsAmount notify.businessAmount ∧
    IsAmount notify.sumBusinessBalance

/-- The text of a whole number is always read. -/
theorem returns_mustNewQuantity_itoa [DecimalPackage] [LawfulReading] (n : ℤ) :
    Returns (mustNewQuantity (itoa n)) :=
  (returns_mustNewQuantity _).mpr (readable_itoa n)

/-- What follows the symbol decides. -/
theorem returns_after {α β : Type} {x : Except Panic α} (hx : Returns x) {f : α → Except Panic β}
    {p : Prop} (h : ∀ a, Returns (f a) ↔ p) : Returns (x >>= f) ↔ p := by
  rw [returns_bind_and h, and_iff_right hx]

section

variable [DecimalPackage] [LawfulReading] [FloatText]

theorem returns_floatPrice (x : Double) : Returns (floatPrice x) ↔ x.Finite := by
  rw [floatPrice, returns_mustNewPrice, readable_formatFloat, and_iff_left readable_wireTick]

theorem returns_floatMoney (x : Double) : Returns (floatMoney x) ↔ x.Finite := by
  rw [floatMoney, returns_mustNewMoney, readable_formatFloat]

theorem returns_decodeBasicQotEvent (notify : BasicQotNotify) (notifyTime : ℕ) :
    Returns (decodeBasicQotEvent notify notifyTime) ↔ notify.Numeric := by
  refine returns_after (returns_pushSymbolFromSecurity _) fun symbol => ?_
  unfold BasicQotNotify.Numeric
  cases notify.basicQot with
  | none => exact iff_of_true (returns_pure _) nofun
  | some q =>
    simp only [Option.mem_some_iff, forall_eq']
    refine (returns_bind_and fun lastPrice => returns_bind_and fun openPrice =>
      returns_bind_and fun highPrice => returns_bind_and fun lowPrice =>
      returns_bind_and fun closePrice => returns_after (returns_mustNewQuantity_itoa _)
      fun volume => returns_map _).trans ?_
    simp only [returns_floatPrice, returns_floatMoney]

theorem returns_decodeTickerEvent (notify : TickerNotify) (notifyTime : ℕ) :
    Returns (decodeTickerEvent notify notifyTime) ↔ notify.Numeric := by
  refine returns_after (returns_pushSymbolFromSecurity _) fun symbol => ?_
  unfold TickerNotify.Numeric
  cases notify.ticker with
  | none => exact iff_of_true (returns_pure _) nofun
  | some t =>
    simp only [Option.mem_some_iff, forall_eq']
    refine (returns_bind_and fun price => returns_after (returns_mustNewQuantity_itoa _)
      fun volume => returns_map _).trans ?_
    rw [returns_floatPrice, returns_floatMoney]

theorem returns_addLevel (side : ℤ) (event : OrderBookEvent) (ob : OrderBook) :
    Returns (addLevel side event ob) ↔ ob.price.Finite := by
  refine Iff.trans (returns_bind_and fun price => returns_map _) ?_
  rw [returns_floatPrice, and_iff_left (returns_mustNewQuantity_itoa _)]

theorem returns_decodeOrderBookEvent (notify : OrderBookFullNotify) (notifyTime : ℕ) :
    Returns (decodeOrderBookEvent notify notifyTime) ↔ notify.Numeric := by
  refine returns_after (returns_pushSymbolFromSecurity _) fun symbol => ?_
  exact (returns_map _).trans (returns_foldlM (returns_addLevel notify.side) _ _)

omit [DecimalPackage] [LawfulReading] [FloatText] in
theorem returns_decodeBrokerEvent (notify : BrokerNotify) (notifyTime : ℕ) :
    Returns (decodeBrokerEvent notify notifyTime) :=
  (returns_map _).mpr (returns_pushSymbolFromSecurity _)

omit [FloatText] in
theorem returns_decodeTradeEvent (notify : TradeStockDeliverNotify) (notifyTime : ℕ) :
    Returns (decodeTradeEvent notify notifyTime) ↔ notify.Numeric := by
  refine returns_after (returns_pushSymbol _ _) fun symbol => ?_
  refine (returns_bind_and fun price => returns_bind_and fun quantity => returns_map _).trans ?_
  rw [returns_mustNewPrice, returns_mustNewQuantity, returns_mustNewMoney,
    and_iff_left readable_wireTick, readable_pushDecimal, readable_pushDecimal,
    readable_pushDecimal]
  rfl

end

end PushEvents

end HstongApi
