import HstongApi.TradingOrders

/-!
# Lists of orders and fills

`RealEntrustList`, `RealDeliverList`, `HistoryEntrustList` and `HistoryDeliverList` of the
`TradingService`, with the conversion of the rows that the Gateway sends.

The Gateway keeps a list of rows and hands it out in pages. A request says where the page starts, by
a cursor, and how many rows it may have; every row has the cursor of the row after it. The four
methods ask for the first page and return what is on it. So they are complete exactly if the Gateway
has the whole list on its first page and every number on it can be read
(`orderLists_complete_iff`).

Which texts are numbers is up to the decimal package: the condition asks its reader. Besides the texts
of a row the reader is only asked for the tick `0`, which a lawful one accepts.
-/

namespace HstongApi

open Checked DecimalPackage

/-! ## Rows -/

/-- The `domain.FareWire` of a row; `fare7` and `fare8` are not read. -/
structure FareWire where
  /-- commission -/
  fare0 : Bytes := []
  /-- stamp duty -/
  fare1 : Bytes := []
  /-- trading fee -/
  fare2 : Bytes := []
  /-- transaction levy -/
  fare3 : Bytes := []
  /-- regulatory fee of options -/
  fare4 : Bytes := []
  /-- clearing fee of options -/
  fare5 : Bytes := []
  /-- platform fee -/
  fare6 : Bytes := []
  /-- levy of the audit regulator -/
  fare9 : Bytes := []
  /-- settlement fee -/
  fareX : Bytes := []
  /-- the sum -/
  fareT : Bytes := []

/-- The fields of a `domain.EntrustWire` that are read, and the cursor. -/
structure EntrustWire where
  stockCode : Bytes := []
  businessPrice : Bytes := []
  entrustBS : Bytes := []
  entrustPrice : Bytes := []
  businessBalance : Bytes := []
  entrustAmount : Bytes := []
  businessAmount : Bytes := []
  date : Bytes := []
  businessTime : Bytes := []
  entrustTime : Bytes := []
  queryParamStr : Bytes := []
  statusDesc : Bytes := []
  status : Bytes := []
  entrustID : Bytes := []
  canBeCanceled : ℤ := 0
  entrustType : Bytes := []
  opponentSeat : Bytes := []
  remarkType : Bytes := []
  remark : Bytes := []
  fareVo : Option FareWire := none
  canBeUpdated : ℤ := 0

section

variable [DecimalPackage]

/-- `domain.Fare` -/
structure Fare where
  commission : Money
  stampDuty : Money
  tradingFee : Money
  transactionLevy : Money
  optionRegFee : Money
  optionClearingFee : Money
  platformFee : Money
  afrcLevy : Money
  settlementFee : Money
  total : Money

/-- `domain.Entrust` -/
structure Entrust where
  symbol : Symbol
  entrustID : Bytes
  orderID : Bytes
  side : Bytes
  orderType : Bytes
  price : Price
  quantity : Quantity
  filledQty : Quantity
  avgPrice : Price
  status : Bytes
  statusDesc : Bytes
  canCancel : Bool
  canModify : Bool
  date : Bytes
  time : Bytes
  exchangeType : Bytes
  remarkType : Bytes
  remark : Bytes
  opponentSeat : Bytes
  fare : Option Fare

/-- `domain.Fill` -/
structure Fill where
  symbol : Symbol
  entrustID : Bytes
  orderID : Bytes
  side : Bytes
  price : Price
  quantity : Quantity
  filledQty : Quantity
  turnover : Money
  status : Bytes
  statusDesc : Bytes
  date : Bytes
  time : Bytes
  exchangeType : Bytes
  counterID : Bytes
  fare : Option Fare

/-! ## Conversion -/

/-- `MarketFromExchange` -/
def marketFromExchange (exchange : Bytes) : Market :=
  if exchange = TradingService.exchangeHK then .hk
  else if exchange = TradingService.exchangeUS then .us
  else if exchange = bytes "v" then .shenzhenConnect
  else if exchange = bytes "t" then .shanghaiConnect
  else .none

/-- `NewSymbol` -/
def newSymbol (market : Market) (code : Bytes) (dtype : ℤ) : Symbol where
  market := market
  code := code
  dataType := dtype
  fullCode := if market ≠ .none then code ++ bytes "." ++ market.text else code

/-- `MustNewMoney(value, "HKD", 3)` -/
def mustNewHKD (value : Bytes) : Except Panic Money := mustNewMoney value (bytes "HKD") 3

/-- `FareFromWire` -/
def fareFromWire : Option FareWire → Except Panic (Option Fare)
  | none => return none
  | some f => do
    let commission ← mustNewHKD f.fare0
    let stampDuty ← mustNewHKD f.fare1
    let tradingFee ← mustNewHKD f.fare2
    let transactionLevy ← mustNewHKD f.fare3
    let optionRegFee ← mustNewHKD f.fare4
    let optionClearingFee ← mustNewHKD f.fare5
    let platformFee ← mustNewHKD f.fare6
    let afrcLevy ← mustNewHKD f.fare9
    let settlementFee ← mustNewHKD f.fareX
    let total ← mustNewHKD f.fareT
    return some ⟨commission, stampDuty, tradingFee, transactionLevy, optionRegFee,
      optionClearingFee, platformFee, afrcLevy, settlementFee, total⟩

/-- `EntrustFromWire` -/
def entrustFromWire (v : EntrustWire) (exchangeType : Bytes) : Except Panic Entrust := do
  let price ← mustNewPrice v.entrustPrice (bytes "0")
  let quantity ← mustNewQuantity v.entrustAmount
  let filledQty ← mustNewQuantity v.businessAmount
  let avgPrice ← mustNewPrice v.businessPrice (bytes "0")
  let fare ← fareFromWire v.fareVo
  return {
    symbol := newSymbol (marketFromExchange exchangeType) v.stockCode 0
    entrustID := v.entrustID
    orderID := v.entrustID
    side := v.entrustBS
    orderType := v.entrustType
    price, quantity, filledQty, avgPrice
    status := v.status
    statusDesc := v.statusDesc
    canCancel := v.canBeCanceled = 1
    canModify := v.canBeUpdated = 1
    date := v.date
    time := v.entrustTime
    exchangeType
    remarkType := v.remarkType
    remark := v.remark
    opponentSeat := v.opponentSeat
    fare }

/-- `FillFromWire` -/
def fillFromWire (v : EntrustWire) (exchangeType : Bytes) : Except Panic Fill := do
  let price ← mustNewPrice v.businessPrice (bytes "0")
  let quantity ← mustNewQuantity v.entrustAmount
  let filledQty ← mustNewQuantity v.businessAmount
  let turnover ← mustNewHKD v.businessBalance
  let fare ← fareFromWire v.fareVo
  return {
    symbol := newSymbol (marketFromExchange exchangeType) v.stockCode 0
    entrustID := v.entrustID
    orderID := v.entrustID
    side := v.entrustBS
    price, quantity, filledQty, turnover
    status := v.status
    statusDesc := v.statusDesc
    date := v.date
    time := v.businessTime
    exchangeType
    counterID := v.opponentSeat
    fare }

/-- The texts of a fare that are read as numbers. -/
def FareWire.numbers (f : FareWire) : List Bytes :=
  [f.fare0, f.fare1, f.fare2, f.fare3, f.fare4, f.fare5, f.fare6, f.fare9, f.fareX, f.fareT]

/-- The texts that `EntrustFromWire` reads as numbers. -/
def EntrustWire.entrustNumbers (v : EntrustWire) : List Bytes :=
  [v.entrustPrice, v.entrustAmount, v.businessAmount, v.businessPrice] ++
    (v.fareVo.map FareWire.numbers).getD []

/-- The texts that `FillFromWire` reads as numbers. -/
def EntrustWire.fillNumbers (v : EntrustWire) : List Bytes :=
  [v.businessPrice, v.entrustAmount, v.businessAmount, v.businessBalance] ++
    (v.fareVo.map FareWire.numbers).getD []

theorem returns_mustNewHKD (value : Bytes) : Returns (mustNewHKD value) ↔ Readable value :=
  returns_mustNewMoney _ _ _

/-- The tick of every price. -/
theorem readable_zero [LawfulReading] : Readable (bytes "0") :=
  (LawfulReading.reads (bytes "0") 0 (by decide +kernel) (by decide)).1

theorem returns_untickedPrice [LawfulReading] (value : Bytes) :
    Returns (mustNewPrice value (bytes "0")) ↔ Readable value := by
  rw [returns_mustNewPrice, and_iff_left readable_zero]

theorem returns_fareFromWire (f : Option FareWire) :
    Returns (fareFromWire f) ↔ ∀ t ∈ (f.map FareWire.numbers).getD [], Readable t := by
  cases f with
  | none => exact iff_of_true (returns_pure none) nofun
  | some f =>
    refine (returns_bind_and fun _ => returns_bind_and fun _ => returns_bind_and fun _ =>
      returns_bind_and fun _ => returns_bind_and fun _ => returns_bind_and fun _ =>
      returns_bind_and fun _ => returns_bind_and fun _ => returns_bind_and fun _ =>
      returns_map _).trans ?_
    simp only [returns_mustNewHKD, Option.map_some, Option.getD_some, FareWire.numbers,
      List.forall_mem_cons, List.not_mem_nil, false_implies, implies_true, and_true]

/-- **A row is an order** exactly if its numbers can be read. -/
theorem returns_entrustFromWire [LawfulReading] (v : EntrustWire) (exchangeType : Bytes) :
    Returns (entrustFromWire v exchangeType) ↔ ∀ t ∈ v.entrustNumbers, Readable t := by
  refine (returns_bind_and fun _ => returns_bind_and fun _ => returns_bind_and fun _ =>
    returns_bind_and fun _ => returns_map _).trans ?_
  simp only [returns_untickedPrice, returns_mustNewQuantity, returns_fareFromWire,
    EntrustWire.entrustNumbers, List.cons_append, List.nil_append, List.forall_mem_cons]

/-- **A row is a fill** exactly if its numbers can be read. -/
theorem returns_fillFromWire [LawfulReading] (v : EntrustWire) (exchangeType : Bytes) :
    Returns (fillFromWire v exchangeType) ↔ ∀ t ∈ v.fillNumbers, Readable t := by
  refine (returns_bind_and fun _ => returns_bind_and fun _ => returns_bind_and fun _ =>
    returns_bind_and fun _ => returns_map _).trans ?_
  simp only [returns_untickedPrice, returns_mustNewQuantity, returns_mustNewHKD,
    returns_fareFromWire, EntrustWire.fillNumbers, List.cons_append, List.nil_append,
    List.forall_mem_cons]

end

/-! ## Methods -/

/-- `EntrustFilter` -/
structure EntrustFilter where
  exchangeType : Bytes := []
  entrustIDs : List Bytes := []

/-- `DeliverFilter` -/
structure DeliverFilter where
  exchangeType : Bytes := []

/-- The fields of a `HistoryFilter` that are read for orders and fills. -/
structure HistoryFilter where
  exchangeType : Bytes := []
  startDate : Bytes := []
  endDate : Bytes := []

namespace TradingService

/-- `defaultPageSize` -/
def defaultPageSize : ℕ := 50

/-- The four requests for a list. Only `realEntrustListWireRequest` has identifiers, and an empty
list of them is not sent; only the requests for the past have a first and a last date. -/
structure OrderListWireRequest where
  exchangeType : Bytes
  queryCount : ℕ := defaultPageSize
  queryParamStr : Bytes := []
  entrustIDs : List Bytes := []
  dates : Option (Bytes × Bytes) := none

/-- The four methods, up to what they send and how they read a row. -/
def orderList {α : Type} (op route accountID : Bytes) (req : OrderListWireRequest)
    (fromWire : EntrustWire → Except Panic α) :
    Call OrderListWireRequest (List EntrustWire) (List α) :=
  .send op route
    (do
      requireAccount op accountID
      pure req)
    fun data => ExceptT.mk (Except.ok <$> data.mapM fromWire)

/-- The request of `RealEntrustList`. -/
def realEntrustListRequest (filter : EntrustFilter) : OrderListWireRequest where
  exchangeType := filter.exchangeType
  entrustIDs := filter.entrustIDs

/-- The request of `RealDeliverList`. -/
def realDeliverListRequest (filter : DeliverFilter) : OrderListWireRequest where
  exchangeType := filter.exchangeType

/-- The request of `HistoryEntrustList` and of `HistoryDeliverList`. -/
def historyListRequest (filter : HistoryFilter) : OrderListWireRequest where
  exchangeType := filter.exchangeType
  dates := some (filter.startDate, filter.endDate)

section

variable [DecimalPackage]

/-- `RealEntrustList` -/
def realEntrustList (accountID : Bytes) (filter : EntrustFilter) :
    Call OrderListWireRequest (List EntrustWire) (List Entrust) :=
  orderList (bytes "trade/TradeQueryRealEntrustList") (bytes "/trade/TradeQueryRealEntrustList")
    accountID (realEntrustListRequest filter) (entrustFromWire · filter.exchangeType)

/-- `RealDeliverList` -/
def realDeliverList (accountID : Bytes) (filter : DeliverFilter) :
    Call OrderListWireRequest (List EntrustWire) (List Fill) :=
  orderList (bytes "trade/TradeQueryRealDeliverList") (bytes "/trade/TradeQueryRealDeliverList")
    accountID (realDeliverListRequest filter) (fillFromWire · filter.exchangeType)

/-- `HistoryEntrustList` -/
def historyEntrustList (accountID : Bytes) (filter : HistoryFilter) :
    Call OrderListWireRequest (List EntrustWire) (List Entrust) :=
  orderList (bytes "trade/TradeQueryHistoryEntrustList")
    (bytes "/trade/TradeQueryHistoryEntrustList")
    accountID (historyListRequest filter) (entrustFromWire · filter.exchangeType)

/-- `HistoryDeliverList` -/
def historyDeliverList (accountID : Bytes) (filter : HistoryFilter) :
    Call OrderListWireRequest (List EntrustWire) (List Fill) :=
  orderList (bytes "trade/TradeQueryHistoryDeliverList")
    (bytes "/trade/TradeQueryHistoryDeliverList")
    accountID (historyListRequest filter) (fillFromWire · filter.exchangeType)

end

/-! ## Pages -/

/-- **A Gateway that pages a list of rows by cursor.** -/
structure OrderGateway where
  /-- the whole list -/
  rows : List EntrustWire
  /-- where the page of a cursor starts -/
  position : Bytes → Option ℕ
  position_first : position [] = some 0
  position_next : ∀ i row, rows[i]? = some row → position row.queryParamStr = some (i + 1)
  /-- how many rows are on a page from a position on, if a number of rows is asked for -/
  size : ℕ → ℕ → ℕ
  size_le : ∀ i n, size i n ≤ n
  size_pos : ∀ i n, 0 < n → 0 < size i n
  /-- the requests that it fails to answer -/
  failure : OrderListWireRequest → Option GoError

namespace OrderGateway

/-- The page for a request. -/
def page (g : OrderGateway) (req : OrderListWireRequest) : List EntrustWire :=
  match g.position req.queryParamStr with
  | none => []
  | some i => (g.rows.drop i).take (g.size i req.queryCount)

/-- What the Gateway replies. -/
def answer (g : OrderGateway) (req : OrderListWireRequest) : Except GoError (List EntrustWire) :=
  match g.failure req with
  | some err => .error err
  | none => .ok (g.page req)

theorem page_first (g : OrderGateway) {req : OrderListWireRequest} (h : req.queryParamStr = []) :
    g.page req = g.rows.take (g.size 0 req.queryCount) := by
  rw [page, h, g.position_first]
  rfl

end OrderGateway

variable {α : Type}

/-- **Every row once and in order, or an error.** -/
def Complete (rows : List EntrustWire) (fromWire : EntrustWire → Except Panic α)
    (result : Except Panic (Except GoError (List α))) : Prop :=
  (∃ err, result = .ok (.error err)) ∨
    ∃ l, result = .ok (.ok l) ∧ List.Forall₂ (fun row a => fromWire row = .ok a) rows l

/-- The list is on the first page and its numbers can be read, or there is an error anyway. -/
def OnOnePage [DecimalPackage] (g : OrderGateway) (accountID : Bytes) (req : OrderListWireRequest)
    (numbers : EntrustWire → List Bytes) : Prop :=
  accountID = [] ∨ g.failure req ≠ none ∨
    g.rows.length ≤ g.size 0 defaultPageSize ∧
      ∀ row ∈ g.rows, ∀ t ∈ numbers row, Readable t

section

variable {op route accountID : Bytes} {req : OrderListWireRequest}
  {fromWire : EntrustWire → Except Panic α} {g : OrderGateway}

/-- With an account, the result is made of the reply. -/
theorem run_orderList (haccount : accountID ≠ [])
    (gateway : OrderListWireRequest → Except GoError (List EntrustWire)) :
    (orderList op route accountID req fromWire).run gateway =
      match gateway req with
      | .error err => .ok (.error err)
      | .ok data => Except.ok <$> data.mapM fromWire := by
  have hchecks : Yields (do requireAccount op accountID; pure req) req := by
    simp only [requireAccount, yields_then, yields_reject, yields_pure, and_true]
    exact haccount
  rw [orderList, Call.send, hchecks]
  simp only [Call.run]
  cases gateway req with
  | error err => rfl
  | ok data => rfl

/-- **One page** is the list if and only if the list is not longer. -/
theorem complete_take_iff {rows : List EntrustWire} (n : ℕ) :
    Complete rows fromWire (Except.ok <$> (rows.take n).mapM fromWire) ↔
      rows.length ≤ n ∧ ∀ row ∈ rows, Returns (fromWire row) := by
  constructor
  · intro h
    cases hpage : (rows.take n).mapM fromWire with
    | error panic =>
      rw [hpage] at h
      obtain ⟨err, herr⟩ | ⟨l, hl, -⟩ := h
      · cases herr
      · cases hl
    | ok r =>
      rw [hpage] at h
      obtain ⟨err, herr⟩ | ⟨l, hl, hrows⟩ := h
      · cases herr
      · obtain rfl : r = l := Except.ok.inj (Except.ok.inj hl)
        have hlength : (rows.take n).length = rows.length :=
          (forall₂_of_mapM hpage).length_eq.trans hrows.length_eq.symm
        have hle : rows.length ≤ n := by
          rw [List.length_take] at hlength
          omega
        rw [List.take_of_length_le hle] at hpage
        exact ⟨hle, (returns_mapM rows).mp ⟨r, hpage⟩⟩
  · rintro ⟨hlength, hreturns⟩
    rw [List.take_of_length_le hlength]
    obtain ⟨l, hl⟩ := (returns_mapM rows).mpr hreturns
    rw [hl]
    exact .inr ⟨l, rfl, forall₂_of_mapM hl⟩

/-- **When one of the four methods is complete**, for a request for the first page. -/
theorem complete_orderList_iff [DecimalPackage] {numbers : EntrustWire → List Bytes}
    (hcursor : req.queryParamStr = []) (hcount : req.queryCount = defaultPageSize)
    (hnumbers : ∀ row, Returns (fromWire row) ↔ ∀ t ∈ numbers row, Readable t) :
    Complete g.rows fromWire ((orderList op route accountID req fromWire).run g.answer) ↔
      OnOnePage g accountID req numbers := by
  by_cases haccount : accountID = []
  · rw [haccount]
    exact iff_of_true (.inl ⟨_, rfl⟩) (.inl rfl)
  rw [run_orderList haccount, OnOnePage, or_iff_right haccount, OrderGateway.answer]
  cases hfailure : g.failure req with
  | some err => exact iff_of_true (.inl ⟨err, rfl⟩) (.inl (Option.some_ne_none err))
  | none =>
    rw [or_iff_right (not_not_intro rfl), ← hcount]
    simp only [g.page_first hcursor, complete_take_iff, hnumbers]

end

/-- **When the lists are complete.** With a Gateway that pages its rows by cursor, each of the four
methods returns every row once and in order, or an error, if and only if the account is missing, or
the Gateway fails to answer, or it has all rows on the first page, with numbers that can be read. -/
theorem orderLists_complete_iff [DecimalPackage] [LawfulReading] (g : OrderGateway)
    (accountID : Bytes) (real : EntrustFilter) (deliver : DeliverFilter) (history : HistoryFilter) :
    (Complete g.rows (entrustFromWire · real.exchangeType)
        ((realEntrustList accountID real).run g.answer) ↔
      OnOnePage g accountID (realEntrustListRequest real) EntrustWire.entrustNumbers) ∧
    (Complete g.rows (fillFromWire · deliver.exchangeType)
        ((realDeliverList accountID deliver).run g.answer) ↔
      OnOnePage g accountID (realDeliverListRequest deliver) EntrustWire.fillNumbers) ∧
    (Complete g.rows (entrustFromWire · history.exchangeType)
        ((historyEntrustList accountID history).run g.answer) ↔
      OnOnePage g accountID (historyListRequest history) EntrustWire.entrustNumbers) ∧
    (Complete g.rows (fillFromWire · history.exchangeType)
        ((historyDeliverList accountID history).run g.answer) ↔
      OnOnePage g accountID (historyListRequest history) EntrustWire.fillNumbers) :=
  ⟨complete_orderList_iff rfl rfl (returns_entrustFromWire · _),
    complete_orderList_iff rfl rfl (returns_fillFromWire · _),
    complete_orderList_iff rfl rfl (returns_entrustFromWire · _),
    complete_orderList_iff rfl rfl (returns_fillFromWire · _)⟩

/-! ## A list that is longer than a page -/

/-- A row with readable numbers, and the cursor that counts it. -/
def numberedRow (i : ℕ) : EntrustWire where
  entrustPrice := bytes "0"
  entrustAmount := bytes "0"
  businessAmount := bytes "0"
  businessPrice := bytes "0"
  businessBalance := bytes "0"
  queryParamStr := natText (i + 1)

/-- A Gateway with so many rows, which gives as many as are asked for. -/
def numberedGateway (n : ℕ) : OrderGateway where
  rows := (List.range n).map numberedRow
  position c := some (natOfText c)
  position_first := rfl
  position_next i row h := by
    rw [List.getElem?_map, Option.map_eq_some_iff] at h
    obtain ⟨j, hj, rfl⟩ := h
    obtain ⟨hlt, hij⟩ := List.getElem?_eq_some_iff.mp hj
    rw [List.getElem_range] at hij
    rw [numberedRow, natOfText_natText, hij]
  size _ n := n
  size_le _ _ := le_rfl
  size_pos _ _ h := h
  failure _ := none

theorem readable_numberedRow [DecimalPackage] [LawfulReading] (i : ℕ) :
    (∀ t ∈ (numberedRow i).entrustNumbers, Readable t) ∧
      ∀ t ∈ (numberedRow i).fillNumbers, Readable t := by
  have hnumbers : (numberedRow i).entrustNumbers = List.replicate 4 (bytes "0") ∧
      (numberedRow i).fillNumbers = List.replicate 4 (bytes "0") := ⟨rfl, rfl⟩
  rw [hnumbers.1, hnumbers.2, and_self]
  intro t ht
  rw [List.eq_of_mem_replicate ht]
  exact readable_zero

/-- **What is returned of a longer list**: the rows of the first page, and no error. -/
theorem orderList_numbered {op route accountID : Bytes} {req : OrderListWireRequest}
    {fromWire : EntrustWire → Except Panic α} (n : ℕ) (haccount : accountID ≠ [])
    (hcursor : req.queryParamStr = []) (hreturns : ∀ i, Returns (fromWire (numberedRow i))) :
    ∃ l, (orderList op route accountID req fromWire).run (numberedGateway n).answer = .ok (.ok l) ∧
      l.length = min req.queryCount n := by
  have hrows : ∀ row ∈ (numberedGateway n).rows.take req.queryCount, Returns (fromWire row) := by
    intro row hrow
    obtain ⟨i, -, rfl⟩ := List.mem_map.mp (List.mem_of_mem_take hrow)
    exact hreturns i
  obtain ⟨l, hl⟩ := (returns_mapM _).mpr hrows
  refine ⟨l, ?_, ?_⟩
  · rw [run_orderList haccount]
    change Except.ok <$> ((numberedGateway n).page req).mapM fromWire = _
    rw [OrderGateway.page_first _ hcursor]
    change Except.ok <$> ((numberedGateway n).rows.take req.queryCount).mapM fromWire = _
    rw [hl]
    rfl
  · rw [← (forall₂_of_mapM hl).length_eq, List.length_take]
    simp [numberedGateway]

section

attribute [local instance] ScaledInt.scaledInts

/-- A list of two rows is on one page, so it is complete. -/
theorem orderLists_complete_two :
    Complete (numberedGateway 2).rows (entrustFromWire · [])
      ((realEntrustList (bytes "A") {}).run (numberedGateway 2).answer) := by
  refine (orderLists_complete_iff (numberedGateway 2) (bytes "A") {} {} {}).1.mpr
    (.inr (.inr ⟨by decide, fun row hrow => ?_⟩))
  obtain ⟨i, -, rfl⟩ := List.mem_map.mp hrow
  exact (readable_numberedRow i).1

/-- Of fifty-one rows, each of the four methods returns fifty, and no error. -/
theorem last_row_missing :
    (numberedGateway 51).rows.length = 51 ∧
    (∃ l, (realEntrustList (bytes "A") {}).run (numberedGateway 51).answer = .ok (.ok l) ∧
      l.length = 50) ∧
    (∃ l, (realDeliverList (bytes "A") {}).run (numberedGateway 51).answer = .ok (.ok l) ∧
      l.length = 50) ∧
    (∃ l, (historyEntrustList (bytes "A") {}).run (numberedGateway 51).answer = .ok (.ok l) ∧
      l.length = 50) ∧
    ∃ l, (historyDeliverList (bytes "A") {}).run (numberedGateway 51).answer = .ok (.ok l) ∧
      l.length = 50 := by
  have hentrust : ∀ i, Returns (entrustFromWire (numberedRow i) []) := fun i =>
    (returns_entrustFromWire _ _).mpr (readable_numberedRow i).1
  have hfill : ∀ i, Returns (fillFromWire (numberedRow i) []) := fun i =>
    (returns_fillFromWire _ _).mpr (readable_numberedRow i).2
  have haccount : bytes "A" ≠ [] := by decide +kernel
  refine ⟨?_, ?_, ?_, ?_, ?_⟩
  · rw [numberedGateway, List.length_map, List.length_range]
  · exact orderList_numbered 51 haccount rfl hentrust
  · exact orderList_numbered 51 haccount rfl hfill
  · exact orderList_numbered 51 haccount rfl hentrust
  · exact orderList_numbered 51 haccount rfl hfill

end

end TradingService

end HstongApi
