import HstongApi.Json
import HstongApi.TradingOrders

/-!
# The bodies of trading requests

The parameters of a request are a Go struct, which becomes a JSON object, and the object is sent in an
envelope with a timeout.

An order reaches the Gateway unchanged if its body determines it. Several fields of an order are not
in the body: the time in force, the exchange (the request has a field for it, which stays empty), the
tick of the price, and what the symbol has besides a market and a code. They are `Unsent`. The markets
of the mainland have no code of their own, and texts that are not UTF-8 are merged. Every other field
of the order can be read off the body (`body_determines_iff`), if the decimal package writes numbers as
plain text and the encoder keeps documents apart.

A batch cancel with an empty list leaves the list out, and the Gateway takes that to mean every order
of the market (`batchCancel_subset_iff`).
-/

namespace HstongApi

open Utf8 Checked DecimalPackage JsonEncoder

variable {accountID : Bytes}

namespace TradingService

/-! ## Bodies -/

/-- A string of the source as a JSON text. -/
def jsonText (t : Bytes) : Json := .text (pieces t)

/-- A field of a struct. -/
def field (name : String) (omitempty : Bool) (value : Json) : Json.Member :=
  ⟨pieces (bytes name), omitempty, value⟩

/-- The fields of `entrustWireRequest`. -/
def EntrustWireRequest.members (r : EntrustWireRequest) : List Json.Member :=
  [field "exchangeType" false (jsonText r.exchangeType),
    field "stockCode" false (jsonText r.stockCode),
    field "entrustAmount" false (jsonText r.entrustAmount),
    field "entrustPrice" true (jsonText r.entrustPrice),
    field "entrustBs" false (jsonText r.entrustBS),
    field "entrustType" false (jsonText r.entrustType),
    field "clientType" true (.number r.clientType),
    field "exchange" true (jsonText r.exchange),
    field "sessionType" true (jsonText r.sessionType),
    field "iceBergDisplaySize" true (jsonText r.iceBergDisplaySize),
    field "validDays" true (jsonText r.validDays),
    field "condValue" true (jsonText r.condValue),
    field "condTrackType" true (jsonText r.condTrackType)]

/-- The parameters of `Entrust`. -/
def EntrustWireRequest.json (r : EntrustWireRequest) : Json := .struct r.members

/-- **The body of a request**: the envelope of `Transport.Do`. The parameters are encoded already, and
compact, so they are taken over as they are. -/
def requestBody [JsonEncoder] (timeoutSec : ℤ) (params : Json) : Text :=
  marshal (.struct [field "timeout_sec" false (.number timeoutSec), field "params" true params])

theorem requestBody_inj [JsonEncoder] [FaithfulEncoder] {n m : ℤ} {members members' : List Json.Member}
    (h : requestBody n (.struct members) = requestBody m (.struct members')) :
    Json.struct members = Json.struct members' := by
  have hnames : [pieces (bytes "timeout_sec"), pieces (bytes "params")].Nodup := by decide +kernel
  have hmembers := Json.struct_inj (FaithfulEncoder.marshal_injective h) rfl hnames
  simp only [List.cons.injEq, field, Json.Member.mk.injEq, true_and, and_true] at hmembers
  exact hmembers.2

/-- The names of the fields of `entrustWireRequest` differ. -/
theorem entrustNames_nodup : (["exchangeType", "stockCode", "entrustAmount", "entrustPrice",
    "entrustBs", "entrustType", "clientType", "exchange", "sessionType", "iceBergDisplaySize",
    "validDays", "condValue", "condTrackType"].map fun name => pieces (bytes name)).Nodup := by
  decide +kernel

/-- **The body determines the request**, up to the pieces of its texts. -/
theorem members_eq_of_body [JsonEncoder] [FaithfulEncoder] {n m : ℤ} {r r' : EntrustWireRequest}
    (h : requestBody n r.json = requestBody m r'.json) : r.members = r'.members :=
  Json.struct_inj (requestBody_inj h) rfl entrustNames_nodup

theorem eq_of_pieces_itoa {n m : ℤ} (h : pieces (itoa n) = pieces (itoa m)) : n = m :=
  itoa_injective (pieces_inj (isUtf8_of_ascii fun _ hc => (Numeral.intText_itoa n).ascii hc) h)

theorem market_eq_of_pieces {m m' : Market} (hm : m = .hk ∨ m = .us)
    (h : pieces (exchangeTypeOf m) = pieces (exchangeTypeOf m')) : m = m' := by
  rcases hm with rfl | rfl <;> cases m' <;> first
    | rfl
    | exact absurd h (by decide +kernel)

/-- A text that is not UTF-8 is none of the known ones. -/
theorem isUtf8_of_known {t : Bytes} (h : t ∈ entrustSides ++ knownHKOrderTypes ++
    [[], bytes "0", bytes "1", bytes "2", bytes "3"]) : IsUtf8 t := by
  have hall : ∀ t ∈ entrustSides ++ knownHKOrderTypes ++
    [[], bytes "0", bytes "1", bytes "2", bytes "3"], IsUtf8 t := by decide +kernel
  exact hall t h

theorem yields_session_of_not_utf8 {now : ℤ} {market : Market} {t : Bytes} (h : ¬IsUtf8 t) :
    Yields (validateSessionWindow now market t) () := by
  have hne : ∀ u ∈ [[], bytes "0", bytes "1", bytes "2", bytes "3"], t ≠ u := by
    rintro u hu rfl
    exact h (isUtf8_of_known (List.mem_append_right _ hu))
  simp only [List.forall_mem_cons] at hne
  obtain ⟨h0, h1, h2, h3, h4, -⟩ := hne
  unfold validateSessionWindow
  rw [if_neg h0, if_neg h1, if_neg h2, if_neg h3, if_neg h4]
  split <;> rfl

/-! ## What an order must have to be sent -/

section

variable [DecimalPackage]

/-- The checks that do not ask for a schedule. -/
structure Admissible (now : ℤ) (o : Order) : Prop where
  /-- it is the time of day of its session -/
  session : Yields (validateSessionWindow now o.symbol.market o.sessionType) ()
  orderType : o.orderType ∈ knownHKOrderTypes
  timeInForce : o.timeInForce ∈ validTIFs
  side : o.symbol.dataType = dataTypeHKStock ∨ o.symbol.dataType = dataTypeHKETF →
    o.side ∈ entrustSides
  conditional : isConditionalOrder o.orderType = true →
    (1 ≤ o.validDays ∧ o.validDays ≤ maxValidDays) ∧ o.condValue ≠ []

/-- **What is sent.** -/
theorem sends_entrust {s : TradingService} {now : ℤ} {o : Order} {r : EntrustWireRequest}
    (h : (s.entrust now accountID o).Sends r) :
    r = entrustRequest o ∧ accountID ≠ [] ∧ (o.symbol.market = .hk → Admissible now o) := by
  have hchecks := Call.sends_send.mp h
  simp only [requireAccount, validateOrderForHK, validateOrderTypeEligibility, validateTimeInForce,
    validateShortSellingFlag, yields_then, yields_onlyIf, yields_reject, yields_pure] at hchecks
  obtain ⟨haccount, hall, rfl⟩ := hchecks
  refine ⟨rfl, haccount, fun hmarket => ?_⟩
  obtain ⟨-, -, hsession, htype, htif, hside, hcond⟩ := hall hmarket
  refine ⟨hsession, ?_, ?_, fun hdtype => ?_, fun hconditional => ?_⟩
  · by_contra hnot
    exact htype ⟨hmarket, hnot⟩
  · exact not_not.mp htif
  · by_contra hnot
    exact hside ⟨hdtype, hnot⟩
  · obtain ⟨hdays, hvalue⟩ := hcond hconditional
    rw [not_or, not_lt, not_lt] at hdays
    exact ⟨hdays, hvalue⟩

/-- A service whose resolver has no opinion. -/
def unscheduled : TradingService := ⟨some ⟨fun _ => none, none⟩⟩

theorem sends_unscheduled {now : ℤ} {o : Order} (haccount : accountID ≠ [])
    (h : o.symbol.market = .hk → Admissible now o) :
    (unscheduled.entrust now accountID o).Sends (entrustRequest o) := by
  refine Call.sends_send.mpr ?_
  simp only [requireAccount, validateOrderForHK, validateOrderTypeEligibility, validateTimeInForce,
    validateShortSellingFlag, yields_then, yields_onlyIf, yields_reject, yields_pure]
  refine ⟨haccount, fun hmarket => ?_, trivial⟩
  have hall := h hmarket
  refine ⟨rfl, fun _ => rfl, hall.session, fun hnot => hnot.2 hall.orderType,
    not_not.mpr hall.timeInForce, fun hnot => hnot.2 (hall.side hnot.1), fun hcond => ?_⟩
  obtain ⟨hdays, hvalue⟩ := hall.conditional hcond
  exact ⟨by omega, hvalue⟩

/-! ## Orders and bodies -/

/-- A call of `Entrust`, with the timeout of its request. -/
structure EntrustCall where
  service : TradingService
  /-- the time of the call -/
  now : ℤ
  /-- the timeout that the envelope carries -/
  timeoutSec : ℤ
  accountID : Bytes
  order : Order

/-- **The call is accepted and sends this body.** -/
def EntrustCall.Sends [JsonEncoder] (c : EntrustCall) (body : Text) : Prop :=
  ∃ r, (c.service.entrust c.now c.accountID c.order).Sends r ∧
    requestBody c.timeoutSec r.json = body

/-- The fields of an order that no request carries. -/
@[ext] structure Unsent where
  timeInForce : Bytes
  exchange : Bytes
  /-- the type of the instrument -/
  dataType : ℤ
  /-- the code with its market -/
  fullCode : Bytes
  displayName : Bytes
  /-- the tick of the price -/
  tick : Decimal

/-- What of an order is not sent. -/
def unsent (o : Order) : Unsent where
  timeInForce := o.timeInForce
  exchange := o.exchange
  dataType := o.symbol.dataType
  fullCode := o.symbol.fullCode
  displayName := o.symbol.displayName
  tick := o.price.tick

/-- The order with other such fields. -/
def withUnsent (o : Order) (u : Unsent) : Order :=
  { o with
    timeInForce := u.timeInForce
    exchange := u.exchange
    symbol := ⟨o.symbol.market, o.symbol.code, u.dataType, u.fullCode, u.displayName⟩
    price := ⟨o.price.dec, u.tick⟩ }

/-- `Entrust` would take the order with these fields: for Hong Kong it wants a known time in force, and
a known side for stocks and funds. -/
def Allows (o : Order) (u : Unsent) : Prop :=
  o.symbol.market = .hk → u.timeInForce ∈ validTIFs ∧
    (u.dataType = dataTypeHKStock ∨ u.dataType = dataTypeHKETF → o.side ∈ entrustSides)

/-- **The orders are the same** in all their fields, with numbers for decimals. -/
structure SameOrder (o o' : Order) : Prop where
  market : o.symbol.market = o'.symbol.market
  code : o.symbol.code = o'.symbol.code
  side : o.side = o'.side
  orderType : o.orderType = o'.orderType
  sessionType : o.sessionType = o'.sessionType
  quantity : o.quantity.dec.toRat = o'.quantity.dec.toRat
  price : o.price.dec.toRat = o'.price.dec.toRat
  icebergQty : o.icebergQty.dec.toRat = o'.icebergQty.dec.toRat
  validDays : o.validDays = o'.validDays
  condValue : o.condValue = o'.condValue
  condTrackType : o.condTrackType = o'.condTrackType
  clientType : o.clientType = o'.clientType
  /-- time in force, exchange, the rest of the symbol, and the tick of the price -/
  unsent : unsent o = unsent o'

/-- The texts of an order that are sent as they are. -/
def orderTexts (o : Order) : List Bytes :=
  [o.symbol.code, o.side, o.orderType, o.sessionType, o.condValue, o.condTrackType]

theorem toRat_eq_of_pieces [PlainRendering] {d d' : Decimal}
    (h : pieces (string d) = pieces (string d')) : d.toRat = d'.toRat :=
  toRat_eq_of_string_eq (pieces_inj (isUtf8_of_ascii fun _ hc => string_ascii d hc) h)

/-- **An order can be read off its body**, apart from the fields that are not sent. -/
theorem sameOrder_of_members [PlainRendering] {o o' : Order}
    (h : (entrustRequest o).members = (entrustRequest o').members)
    (hmarket : o.symbol.market = .hk ∨ o.symbol.market = .us)
    (htexts : ∀ t ∈ orderTexts o, IsUtf8 t) (hunsent : unsent o = unsent o') : SameOrder o o' := by
  simp only [EntrustWireRequest.members, entrustRequest, field, jsonText, List.cons.injEq,
    Json.Member.mk.injEq, Json.text.injEq, Json.number.injEq, true_and, and_true] at h
  obtain ⟨hexchange, hcode, hamount, hprice, hside, htype, hclient, hsession, hiceberg, hdays,
    hvalue, htrack⟩ := h
  simp only [orderTexts, List.forall_mem_cons] at htexts
  obtain ⟨ucode, uside, utype, usession, uvalue, utrack, -⟩ := htexts
  exact
    { market := market_eq_of_pieces hmarket hexchange
      code := pieces_inj ucode hcode
      side := pieces_inj uside hside
      orderType := pieces_inj utype htype
      sessionType := pieces_inj usession hsession
      quantity := toRat_eq_of_pieces hamount
      price := toRat_eq_of_pieces hprice
      icebergQty := toRat_eq_of_pieces hiceberg
      validDays := eq_of_pieces_itoa hdays
      condValue := pieces_inj uvalue hvalue
      condTrackType := pieces_inj utrack htrack
      clientType := hclient
      unsent := hunsent }

/-! ## Orders that are merged -/

variable [JsonEncoder]

/-- The same call for another order, by a service without a schedule. -/
def EntrustCall.withOrder (c : EntrustCall) (o : Order) : EntrustCall :=
  { c with service := unscheduled, order := o }

/-- Another order has the same body, if its request has the same fields. -/
theorem sends_of_members {c : EntrustCall} {body : Text} {o : Order} (hsends : c.Sends body)
    (hmembers : (entrustRequest o).members = (entrustRequest c.order).members)
    (h : (c.order.symbol.market = .hk → Admissible c.now c.order) →
      o.symbol.market = .hk → Admissible c.now o) :
    (c.withOrder o).Sends body := by
  obtain ⟨r, hr, rfl⟩ := hsends
  obtain ⟨rfl, haccount, hadmissible⟩ := sends_entrust hr
  refine ⟨_, sends_unscheduled haccount (h hadmissible), ?_⟩
  simp only [EntrustWireRequest.json, EntrustCall.withOrder, hmembers]

/-- **A text that is not UTF-8 is merged** with another one. -/
theorem exists_merged_text {c : EntrustCall} {body : Text} {t : Bytes} (hsends : c.Sends body)
    (ht : t ∈ orderTexts c.order) (hbad : ¬IsUtf8 t) :
    ∃ o : Order, unsent o = unsent c.order ∧ (c.withOrder o).Sends body ∧
      ¬SameOrder c.order o := by
  obtain ⟨u, hne, hpieces⟩ := exists_pieces_eq hbad
  have hu : ¬IsUtf8 u := by
    rw [IsUtf8, hpieces]
    exact hbad
  simp only [orderTexts, List.mem_cons, List.not_mem_nil, or_false] at ht
  rcases ht with rfl | rfl | rfl | rfl | rfl | rfl
  · refine ⟨{ c.order with symbol.code := u }, rfl, sends_of_members hsends ?_ fun h hmarket => ?_,
      fun h => hne h.code.symm⟩
    · simp only [EntrustWireRequest.members, entrustRequest, jsonText, hpieces]
    · exact { h hmarket with }
  · refine ⟨{ c.order with side := u }, rfl, sends_of_members hsends ?_ fun h hmarket => ?_,
      fun h => hne h.side.symm⟩
    · simp only [EntrustWireRequest.members, entrustRequest, jsonText, hpieces]
    · refine { h hmarket with side := fun hdtype => ?_ }
      have hknown := List.mem_append_left knownHKOrderTypes ((h hmarket).side hdtype)
      exact absurd (isUtf8_of_known (List.mem_append_left _ hknown)) hbad
  · refine ⟨{ c.order with orderType := u }, rfl, sends_of_members hsends ?_ fun h hmarket => ?_,
      fun h => hne h.orderType.symm⟩
    · simp only [EntrustWireRequest.members, entrustRequest, jsonText, hpieces]
    · have hknown := List.mem_append_right entrustSides (h hmarket).orderType
      exact absurd (isUtf8_of_known (List.mem_append_left _ hknown)) hbad
  · refine ⟨{ c.order with sessionType := u }, rfl, sends_of_members hsends ?_ fun h hmarket => ?_,
      fun h => hne h.sessionType.symm⟩
    · simp only [EntrustWireRequest.members, entrustRequest, jsonText, hpieces]
    · exact { h hmarket with session := yields_session_of_not_utf8 hu }
  · refine ⟨{ c.order with condValue := u }, rfl, sends_of_members hsends ?_ fun h hmarket => ?_,
      fun h => hne h.condValue.symm⟩
    · simp only [EntrustWireRequest.members, entrustRequest, jsonText, hpieces]
    · refine { h hmarket with conditional := fun hcond => ⟨((h hmarket).conditional hcond).1, ?_⟩ }
      rintro rfl
      exact hu List.not_mem_nil
  · refine ⟨{ c.order with condTrackType := u }, rfl,
      sends_of_members hsends ?_ fun h hmarket => ?_, fun h => hne h.condTrackType.symm⟩
    · simp only [EntrustWireRequest.members, entrustRequest, jsonText, hpieces]
    · exact { h hmarket with }

/-- **The markets of the mainland are merged.** -/
theorem exists_merged_market {c : EntrustCall} {body : Text} (hsends : c.Sends body)
    (hmarket : ¬(c.order.symbol.market = .hk ∨ c.order.symbol.market = .us)) :
    ∃ o : Order, unsent o = unsent c.order ∧ (c.withOrder o).Sends body ∧
      ¬SameOrder c.order o := by
  obtain ⟨m, hm, hne⟩ : ∃ m : Market, (m = .shenzhenConnect ∨ m = .shanghaiConnect) ∧
      c.order.symbol.market ≠ m := by
    by_cases hsz : c.order.symbol.market = .shenzhenConnect
    · exact ⟨.shanghaiConnect, .inr rfl, by rw [hsz]; decide⟩
    · exact ⟨.shenzhenConnect, .inl rfl, hsz⟩
  have hcode : exchangeTypeOf m = exchangeTypeOf c.order.symbol.market := by
    cases hmkt : c.order.symbol.market with
    | hk => exact absurd (.inl hmkt) hmarket
    | us => exact absurd (.inr hmkt) hmarket
    | _ => rcases hm with rfl | rfl <;> rfl
  refine ⟨{ c.order with symbol.market := m }, rfl, sends_of_members hsends ?_ fun _ hhk => ?_,
    fun h => hne h.market⟩
  · simp only [EntrustWireRequest.members, entrustRequest, hcode]
  · rcases hm with rfl | rfl <;> cases hhk

end

section

attribute [local instance] ScaledInt.scaledInts Json.documents Json.faithful_documents

/-- A call for a limit order with a time in force and an exchange. -/
def limitCall (market : Market) (timeInForce exchange : Bytes) : EntrustCall where
  service := {}
  now := 0
  timeoutSec := 10
  accountID := bytes "A"
  order :=
    { limitOrder ⟨100, 0⟩ ⟨3504, -1⟩ with
      symbol := { market := market, code := bytes "00700", dataType := dataTypeHKStock }
      timeInForce := timeInForce
      exchange := exchange }

end

/-! ## Batch cancels -/

/-- `opBatchCancelEntrust` -/
def opBatchCancelEntrust : Bytes := bytes "trade/TradeBatchCancelEntrust"

/-- `batchCancelEntrustWireRequest` -/
structure BatchCancelEntrustWireRequest where
  exchangeType : Bytes
  entrustIDs : List Bytes

/-- The fields of `batchCancelEntrustWireRequest`. -/
def BatchCancelEntrustWireRequest.members (r : BatchCancelEntrustWireRequest) : List Json.Member :=
  [field "exchangeType" false (jsonText r.exchangeType),
    field "entrustId" true (.list (r.entrustIDs.map jsonText))]

/-- The parameters of `BatchCancelEntrust`. -/
def BatchCancelEntrustWireRequest.json (r : BatchCancelEntrustWireRequest) : Json :=
  .struct r.members

/-- `BatchCancelEntrust`; the reply is not read. -/
def batchCancelEntrust (accountID : Bytes) (entrustIDs : List Bytes) :
    Call BatchCancelEntrustWireRequest Unit Unit :=
  .send opBatchCancelEntrust (bytes "/trade/TradeBatchCancelEntrust")
    (do
      requireAccount opBatchCancelEntrust accountID
      pure { exchangeType := exchangeHK, entrustIDs := entrustIDs })
    fun _ => pure ()

/-- An order that can be cancelled. -/
structure OpenOrder where
  exchangeType : Bytes
  entrustID : Bytes
  deriving DecidableEq

/-- What a reader of JSON gets for a text. -/
def readText : Json → Option Bytes
  | .text t => some (text t)
  | _ => none

/-- The list of texts in a field; there is none if the field is absent. -/
def readTexts (name : String) (params : Json) : List Bytes :=
  match params.get? (pieces (bytes name)) with
  | some (.list items) => items.filterMap readText
  | _ => []

/-- **The rule of the Gateway** for a batch cancel: the orders of the market that are in the list, and
all orders of the market if the list is absent or empty. -/
def gatewayCancels (params : Json) (book : List OpenOrder) : List OpenOrder :=
  book.filter fun o =>
    (params.get? (pieces (bytes "exchangeType"))).bind readText = some o.exchangeType ∧
      (readTexts "entrustId" params = [] ∨ o.entrustID ∈ readTexts "entrustId" params)

/-- The orders that a call cancels. -/
def cancels (c : Call BatchCancelEntrustWireRequest Unit Unit) (book : List OpenOrder) :
    List OpenOrder :=
  match c with
  | .done _ => []
  | .ask _ _ r _ => gatewayCancels r.json book

theorem BatchCancelEntrustWireRequest.names_nodup (r : BatchCancelEntrustWireRequest) :
    (r.members.map Json.Member.name).Nodup := by
  change [pieces (bytes "exchangeType"), pieces (bytes "entrustId")].Nodup
  decide +kernel

/-- The Gateway reads the identifiers, whether the list was left out or not. -/
theorem readTexts_json (r : BatchCancelEntrustWireRequest) :
    readTexts "entrustId" r.json = r.entrustIDs.map fun id => text (pieces id) := by
  have hget : r.json.get? (pieces (bytes "entrustId")) = _ :=
    Json.get?_struct r.names_nodup (List.mem_cons_of_mem _ List.mem_cons_self)
  cases hids : r.entrustIDs with
  | nil =>
    rw [readTexts, hget, hids]
    rfl
  | cons id ids =>
    have hread : (r.entrustIDs.map jsonText).filterMap readText =
        r.entrustIDs.map fun id => text (pieces id) := by
      rw [List.filterMap_map, ← List.filterMap_eq_map]
      rfl
    rw [hids] at hread hget
    rw [readTexts, hget]
    exact hread

/-- The Gateway reads the market. -/
theorem readExchange_json (r : BatchCancelEntrustWireRequest) :
    (r.json.get? (pieces (bytes "exchangeType"))).bind readText =
      some (text (pieces r.exchangeType)) := by
  have hget : r.json.get? (pieces (bytes "exchangeType")) = _ :=
    Json.get?_struct r.names_nodup List.mem_cons_self
  rw [hget]
  rfl

theorem mem_cancels {entrustIDs : List Bytes} {book : List OpenOrder} {o : OpenOrder}
    (haccount : accountID ≠ []) : o ∈ cancels (batchCancelEntrust accountID entrustIDs) book ↔
      o ∈ book ∧ o.exchangeType = exchangeHK ∧
        (entrustIDs = [] ∨ ∃ id ∈ entrustIDs, text (pieces id) = o.entrustID) := by
  have hsends : (batchCancelEntrust accountID entrustIDs).Sends ⟨exchangeHK, entrustIDs⟩ := by
    refine Call.sends_send.mpr ?_
    simp only [requireAccount, yields_then, yields_reject, yields_pure, and_true]
    exact haccount
  obtain ⟨op, route, resume, hcall⟩ := hsends
  have hexchange : text (pieces exchangeHK) = exchangeHK := by decide +kernel
  rw [hcall, cancels, gatewayCancels, List.mem_filter, decide_eq_true_iff, readExchange_json,
    readTexts_json, hexchange, Option.some.injEq, List.map_eq_nil_iff, List.mem_map]
  exact and_congr_right fun _ => and_congr_left fun _ => eq_comm

/-- **When a batch cancel stays within its request.** The orders that `BatchCancelEntrust` cancels are
among the identifiers that were passed, for every set of open orders, if and only if there is no
account, or the list is not empty and has, with every identifier, the text that a reader of JSON gets
for it (which is the identifier itself, if it is UTF-8). -/
theorem batchCancel_subset_iff (accountID : Bytes) (entrustIDs : List Bytes) :
    (∀ book, ∀ o ∈ cancels (batchCancelEntrust accountID entrustIDs) book,
        o.entrustID ∈ entrustIDs) ↔
      accountID = [] ∨ (entrustIDs ≠ [] ∧ ∀ id ∈ entrustIDs, text (pieces id) ∈ entrustIDs) := by
  by_cases haccount : accountID = []
  · refine iff_of_true (fun book o ho => ?_) (.inl haccount)
    rw [haccount] at ho
    cases ho
  · rw [or_iff_right haccount]
    refine ⟨fun h => ⟨?_, fun id hid => ?_⟩, fun ⟨hne, hids⟩ book o ho => ?_⟩
    · rintro rfl
      have hopen := h [⟨exchangeHK, []⟩] ⟨exchangeHK, []⟩
        ((mem_cancels haccount).mpr ⟨List.mem_cons_self, rfl, .inl rfl⟩)
      cases hopen
    · exact h [⟨exchangeHK, text (pieces id)⟩] ⟨exchangeHK, text (pieces id)⟩
        ((mem_cancels haccount).mpr ⟨List.mem_cons_self, rfl, .inr ⟨id, hid, rfl⟩⟩)
    · obtain ⟨-, -, hempty | ⟨id, hid, heq⟩⟩ := (mem_cancels haccount).mp ho
      · exact absurd hempty hne
      · rw [← heq]
        exact hids id hid

/-- With an empty list, an order that was not named is cancelled. -/
theorem empty_batch_cancels_all :
    (⟨exchangeHK, bytes "1"⟩ : OpenOrder) ∈
      cancels (batchCancelEntrust (bytes "A") []) [⟨exchangeHK, bytes "1"⟩] ∧
    bytes "1" ∉ ([] : List Bytes) := by
  decide +kernel

end TradingService

end HstongApi
