import HstongApi.Dates
import HstongApi.TradingWire
import HstongApi.Utf8Trim

/-!
# Futures orders

`FuturesService.Entrust` and `ModifyEntrust`: the checks, and the bodies that are sent.

The last field of a body is the date until which an order with the time in force `4` is valid. The
check wants a date for `4` and looks at the calendar whenever there is a date, whatever the time in
force is; the encoder leaves the field out if it is empty. So the field is there exactly if the
caller gave a date, and then it is the text of a day of the calendar (`validTime_sent`).

The price and the quantity are checked and rendered by the decimal package. Nothing has to be known of
it, because no other field depends on them.
-/

namespace HstongApi

open Checked Utf8 Dates TradingService DecimalPackage

section

variable [DecimalPackage]

/-- `Price.Validate`, with the text of the error. -/
def Price.validate (p : Price) (step : Bool) : Except Panic (Option Bytes) :=
  if isNegative p.dec then .ok (some (bytes "domain: Price: negative price " ++ string p.dec))
  else if step && !isZero p.tick then (mod p.dec p.tick).map fun remainder =>
    if isZero remainder then none
    else some (bytes "domain: Price: " ++ string p.dec ++ bytes " is not a multiple of tick " ++
      string p.tick)
  else .ok none

/-- `Quantity.IsPositive` -/
def Quantity.isPositive (q : Quantity) : Bool := DecimalPackage.isPositive q.dec && !isZero q.dec

namespace FuturesService

/-! ## Requests -/

/-- `FuturesOrderRequest` -/
structure FuturesOrderRequest where
  /-- the contract -/
  symbol : Symbol
  /-- a `types.EntrustBS` -/
  side : Bytes
  orderType : Bytes
  price : Price
  quantity : Quantity
  /-- the time in force -/
  validTimeType : Bytes
  /-- the last day of the order, if it has one -/
  validTime : Bytes
  orderOptions : Bytes

/-- `FuturesModifyRequest` -/
structure FuturesModifyRequest where
  entrustID : Bytes
  symbol : Symbol
  price : Price
  quantity : Quantity
  side : Bytes
  validTimeType : Bytes
  validTime : Bytes
  orderOptions : Bytes

/-- `futuresEntrustWireRequest` -/
structure FuturesEntrustWireRequest where
  stockCode : Bytes
  entrustType : Bytes
  entrustPrice : Bytes
  entrustAmount : Bytes
  entrustBS : Bytes
  validTimeType : Bytes
  orderOptions : Bytes
  validTime : Bytes
  deriving DecidableEq

/-- `futuresModifyEntrustWireRequest` -/
structure FuturesModifyEntrustWireRequest where
  entrustID : Bytes
  stockCode : Bytes
  entrustPrice : Bytes
  entrustAmount : Bytes
  entrustBS : Bytes
  validTimeType : Bytes
  orderOptions : Bytes
  validTime : Bytes

/-- The fields of `futuresEntrustWireRequest`. -/
def FuturesEntrustWireRequest.members (r : FuturesEntrustWireRequest) : List Json.Member :=
  [field "stockCode" false (jsonText r.stockCode),
    field "entrustType" false (jsonText r.entrustType),
    field "entrustPrice" false (jsonText r.entrustPrice),
    field "entrustAmount" false (jsonText r.entrustAmount),
    field "entrustBs" false (jsonText r.entrustBS),
    field "validTimeType" false (jsonText r.validTimeType),
    field "orderOptions" false (jsonText r.orderOptions),
    field "validTime" true (jsonText r.validTime)]

/-- The fields of `futuresModifyEntrustWireRequest`. -/
def FuturesModifyEntrustWireRequest.members (r : FuturesModifyEntrustWireRequest) :
    List Json.Member :=
  [field "entrustId" false (jsonText r.entrustID),
    field "stockCode" false (jsonText r.stockCode),
    field "entrustPrice" false (jsonText r.entrustPrice),
    field "entrustAmount" false (jsonText r.entrustAmount),
    field "entrustBs" false (jsonText r.entrustBS),
    field "validTimeType" false (jsonText r.validTimeType),
    field "orderOptions" false (jsonText r.orderOptions),
    field "validTime" true (jsonText r.validTime)]

/-! ## Checks -/

/-- `opFuturesEntrust` -/
def opFuturesEntrust : Bytes := bytes "trade/FuturesEntrust"

/-- `opFuturesModifyEntrust` -/
def opFuturesModifyEntrust : Bytes := bytes "trade/FuturesModifyEntrust"

/-- `futuresValidateStockCode` -/
def futuresValidateStockCode (op code : Bytes) : Checked Unit := do
  let trimmed := Utf8.trimSpace code
  reject (trimmed = []) (invalidParam op (bytes "stockCode must not be empty"))
  reject (trimmed.any fun c => c ∈ [32, 9, 10, 13])
    (invalidParam op (bytes "stockCode must not contain whitespace"))

/-- `futuresDateShaped` -/
def futuresDateShaped (date : Bytes) : Bool := date.length == 8 && date.all Numeral.isDigit

/-- `futuresValidateDate` -/
def futuresValidateDate (op field date : Bytes) : Checked Unit := do
  reject (¬futuresDateShaped date) (invalidParam op (field ++ bytes " must be yyyyMMdd"))
  reject (Date.parse date = none)
    (invalidParam op (field ++ bytes " must be a valid calendar date"))

/-- `futuresDigitsShaped` -/
def futuresDigitsShaped (code : Bytes) : Bool := code ≠ [] && code.all Numeral.isDigit

/-- `futuresValidateOrderType` -/
def futuresValidateOrderType (op orderType : Bytes) : Checked Unit :=
  reject (¬futuresDigitsShaped orderType)
    (invalidParam op (bytes "entrustType must be a non-empty run of decimal digits"))

/-- `futuresValidateEntrustBS` -/
def futuresValidateEntrustBS (op side : Bytes) : Checked Unit :=
  reject (side ∉ [bytes "1", bytes "2"]) (invalidParam op
    (bytes "entrustBs must be 1 (buy) or 2 (sell) on the futures endpoint; " ++
      bytes "3 and 4 are cash-only values - see docs/SPEC.md 7.4"))

/-- `futuresValidateOrderPrice` -/
def futuresValidateOrderPrice (op : Bytes) (price : Price) : Checked Unit :=
  refuse op ((price.validate false).map
    (Option.map (bytes "entrustPrice must be a non-negative decimal: " ++ ·)))

/-- `futuresValidateOrderQuantity` -/
def futuresValidateOrderQuantity (op : Bytes) (qty : Quantity) : Checked Unit :=
  reject (¬qty.isPositive) (invalidParam op (bytes "entrustAmount must be a positive decimal"))

/-- `futuresValidateEntrustID` -/
def futuresValidateEntrustID (op entrustID : Bytes) : Checked Unit :=
  reject (Utf8.trimSpace entrustID = []) (invalidParam op (bytes "entrustId must not be empty"))

/-- `futuresValidTimeTypeSpecifiedDate` -/
def futuresValidTimeTypeSpecifiedDate : Bytes := bytes "4"

/-- `futuresValidTimeTypes` -/
def futuresValidTimeTypes : List Bytes := [bytes "0", bytes "1", bytes "2", bytes "3", bytes "4"]

/-- `futuresValidateValidTimeType` -/
def futuresValidateValidTimeType (op validTimeType validTime : Bytes) : Checked Unit := do
  reject (validTimeType ∉ futuresValidTimeTypes)
    (invalidParam op (bytes "validTimeType must be 0, 1, 2, 3 or 4"))
  if validTime = [] then
    reject (validTimeType = futuresValidTimeTypeSpecifiedDate)
      (invalidParam op (bytes "validTime is required when validTimeType is 4"))
  else futuresValidateDate op (bytes "validTime") validTime

/-- `futuresDefaultOrderOptions` -/
def futuresDefaultOrderOptions : Bytes := bytes "0"

/-- `futuresOrderOptionsParam` -/
def futuresOrderOptionsParam (options : Bytes) : Bytes :=
  if options = [] then futuresDefaultOrderOptions else options

/-- `futuresValidateOrderOptions` -/
def futuresValidateOrderOptions (op orderOptions : Bytes) : Checked Unit :=
  reject (orderOptions ∉ [futuresDefaultOrderOptions, bytes "1"])
    (invalidParam op (bytes "orderOptions must be 0 or 1"))

/-! ## Methods -/

/-- `Entrust`; the reply is the number of the order. -/
def entrust (accountID : Bytes) (order : FuturesOrderRequest) :
    Call FuturesEntrustWireRequest Bytes OrderResult :=
  .send opFuturesEntrust (bytes "/trade/FuturesEntrust")
    (do
      requireAccount opFuturesEntrust accountID
      futuresValidateStockCode opFuturesEntrust order.symbol.code
      futuresValidateOrderType opFuturesEntrust order.orderType
      futuresValidateEntrustBS opFuturesEntrust order.side
      futuresValidateOrderPrice opFuturesEntrust order.price
      futuresValidateOrderQuantity opFuturesEntrust order.quantity
      futuresValidateValidTimeType opFuturesEntrust order.validTimeType order.validTime
      let orderOptions := futuresOrderOptionsParam order.orderOptions
      futuresValidateOrderOptions opFuturesEntrust orderOptions
      return {
        stockCode := order.symbol.code
        entrustType := order.orderType
        entrustPrice := string order.price.dec
        entrustAmount := string order.quantity.dec
        entrustBS := order.side
        validTimeType := order.validTimeType
        orderOptions
        validTime := order.validTime })
    fun data => pure { entrustID := data, status := bytes "1" }

/-- `ModifyEntrust`; the reply is not read. -/
def modifyEntrust (accountID : Bytes) (change : FuturesModifyRequest) :
    Call FuturesModifyEntrustWireRequest Bytes Unit :=
  .send opFuturesModifyEntrust (bytes "/trade/FuturesModifyEntrust")
    (do
      requireAccount opFuturesModifyEntrust accountID
      futuresValidateEntrustID opFuturesModifyEntrust change.entrustID
      futuresValidateStockCode opFuturesModifyEntrust change.symbol.code
      futuresValidateOrderPrice opFuturesModifyEntrust change.price
      futuresValidateOrderQuantity opFuturesModifyEntrust change.quantity
      futuresValidateEntrustBS opFuturesModifyEntrust change.side
      futuresValidateValidTimeType opFuturesModifyEntrust change.validTimeType change.validTime
      let orderOptions := futuresOrderOptionsParam change.orderOptions
      futuresValidateOrderOptions opFuturesModifyEntrust orderOptions
      return {
        entrustID := change.entrustID
        stockCode := change.symbol.code
        entrustPrice := string change.price.dec
        entrustAmount := string change.quantity.dec
        entrustBS := change.side
        validTimeType := change.validTimeType
        orderOptions
        validTime := change.validTime })
    fun _ => pure ()

end FuturesService

end

namespace FuturesService

/-! ## The date -/

theorem futuresDateShaped_text (d : Date) : futuresDateShaped d.text = true := by
  have hdigits : ∀ c ∈ d.text, Numeral.isDigit c = true := by
    intro c hc
    simp only [Date.text, List.mem_append] at hc
    obtain (hc | hc) | hc := hc <;> exact isDigit_of_mem_padded hc
  rw [futuresDateShaped, List.all_eq_true.mpr hdigits, d.length_text]
  rfl

/-- **The check of a date** passes exactly for the texts of the days of the calendar. -/
theorem yields_validateDate {op field date : Bytes} :
    Yields (futuresValidateDate op field date) () ↔ ∃ d : Date, d.text = date := by
  simp only [futuresValidateDate, yields_then, yields_reject, not_not, ← ne_eq,
    Option.ne_none_iff_exists', Date.parse_eq_some]
  refine ⟨And.right, ?_⟩
  rintro ⟨d, rfl⟩
  exact ⟨futuresDateShaped_text d, d, rfl⟩

/-- **The check of the time in force**: a date is needed for `4`, and a date that is given is looked
at for every time in force. -/
theorem yields_validTimeType {op validTimeType validTime : Bytes} :
    Yields (futuresValidateValidTimeType op validTimeType validTime) () ↔
      validTimeType ∈ futuresValidTimeTypes ∧
        (validTime = [] ∧ validTimeType ≠ futuresValidTimeTypeSpecifiedDate ∨
          ∃ d : Date, d.text = validTime) := by
  simp only [futuresValidateValidTimeType, yields_then, yields_reject, not_not]
  refine and_congr_right fun _ => ?_
  split
  · rename_i hempty
    rw [yields_reject, or_iff_left, and_iff_right hempty]
    rintro ⟨d, hd⟩
    exact d.text_ne_nil (hd.trans hempty)
  · rename_i hne
    rw [yields_validateDate, or_iff_right fun h => hne h.1]

/-- **What a body says about the date** that the caller gave. -/
structure Dated (validTimeType validTime : Bytes) (params : Json) : Prop where
  inForce : params.get? (pieces (bytes "validTimeType")) = some (jsonText validTimeType)
  /-- the field is there exactly if there is a date -/
  carried : (params.get? (pieces (bytes "validTime"))).isSome ↔ validTime ≠ []
  /-- for the time in force `4` it is there -/
  required : validTimeType = futuresValidTimeTypeSpecifiedDate →
    (params.get? (pieces (bytes "validTime"))).isSome
  /-- what is there is a day of the calendar -/
  calendar : ∀ j, params.get? (pieces (bytes "validTime")) = some j →
    ∃ d : Date, j = jsonText d.text ∧ validTime = d.text

theorem isShown_validTime (validTime : Bytes) :
    (field "validTime" true (jsonText validTime)).isShown = true ↔ validTime ≠ [] := by
  simp only [Json.Member.isShown, field, jsonText, Json.isEmpty, Bool.true_and, Bool.not_eq_true',
    List.isEmpty_eq_false_iff, ne_eq, pieces_eq_nil]

/-- The two fields of a body, after the check. -/
theorem dated_struct {op validTimeType validTime : Bytes} {members : List Json.Member}
    (hnodup : (members.map Json.Member.name).Nodup)
    (htype : field "validTimeType" false (jsonText validTimeType) ∈ members)
    (htime : field "validTime" true (jsonText validTime) ∈ members)
    (hcheck : Yields (futuresValidateValidTimeType op validTimeType validTime) ()) :
    Dated validTimeType validTime (.struct members) := by
  have hget := Json.get?_struct hnodup htime
  change (Json.struct members).get? (pieces (bytes "validTime")) = _ at hget
  have hshown := isShown_validTime validTime
  obtain ⟨-, hdate⟩ := yields_validTimeType.mp hcheck
  constructor
  · exact Json.get?_struct hnodup htype
  · rw [hget, ← hshown]
    split <;> simp_all
  · intro hspecified
    have hne : validTime ≠ [] := by
      rintro rfl
      rcases hdate with ⟨-, hother⟩ | ⟨d, hd⟩
      · exact hother hspecified
      · exact d.text_ne_nil hd
    rw [hget, if_pos (hshown.mpr hne)]
    rfl
  · intro j hj
    rw [hget, Option.ite_none_right_eq_some, hshown, Option.some.injEq] at hj
    obtain ⟨hne, rfl⟩ := hj
    obtain ⟨d, rfl⟩ := hdate.resolve_left fun h => hne h.1
    exact ⟨d, rfl, rfl⟩

/-- The names of the fields of `futuresEntrustWireRequest` differ. -/
theorem entrustMembers_nodup (r : FuturesEntrustWireRequest) :
    (r.members.map Json.Member.name).Nodup := by
  change (["stockCode", "entrustType", "entrustPrice", "entrustAmount", "entrustBs",
    "validTimeType", "orderOptions", "validTime"].map fun name => pieces (bytes name)).Nodup
  decide +kernel

theorem modifyMembers_nodup (r : FuturesModifyEntrustWireRequest) :
    (r.members.map Json.Member.name).Nodup := by
  change (["entrustId", "stockCode", "entrustPrice", "entrustAmount", "entrustBs",
    "validTimeType", "orderOptions", "validTime"].map fun name => pieces (bytes name)).Nodup
  decide +kernel

/-- **The date that is sent.** A new order and a change that pass the checks have the field
`validTime` in their body exactly if the caller gave a date, which must be so for the time in force
`4`; and then the field is the text of a day of the calendar. -/
theorem validTime_sent [DecimalPackage] (accountID : Bytes) (order : FuturesOrderRequest)
    (change : FuturesModifyRequest) :
    (∀ params, (entrust accountID order).Sends params →
      Dated order.validTimeType order.validTime (.struct params.members)) ∧
    ∀ params, (modifyEntrust accountID change).Sends params →
      Dated change.validTimeType change.validTime (.struct params.members) := by
  constructor
  · intro params hsends
    simp only [entrust, Call.sends_send, yields_then, yields_pure] at hsends
    obtain ⟨-, -, -, -, -, -, hcheck, -, rfl⟩ := hsends
    exact dated_struct (entrustMembers_nodup _) (by simp [FuturesEntrustWireRequest.members])
      (by simp [FuturesEntrustWireRequest.members]) hcheck
  · intro params hsends
    simp only [modifyEntrust, Call.sends_send, yields_then, yields_pure] at hsends
    obtain ⟨-, -, -, -, -, -, hcheck, -, rfl⟩ := hsends
    exact dated_struct (modifyMembers_nodup _) (by simp [FuturesModifyEntrustWireRequest.members])
      (by simp [FuturesModifyEntrustWireRequest.members]) hcheck

section

attribute [local instance] ScaledInt.scaledInts

/-- An order for a day with a date. -/
def dayOrder : FuturesOrderRequest where
  symbol := { code := bytes "HSI2609.HK" }
  side := bytes "1"
  orderType := bytes "0"
  price := ⟨⟨25000, 0⟩, ⟨0, 0⟩⟩
  quantity := ⟨⟨1, 0⟩⟩
  validTimeType := bytes "0"
  validTime := bytes "20260930"
  orderOptions := bytes "0"

/-- An order that is valid today is sent with a date. -/
theorem date_of_dayOrder :
    dayOrder.validTimeType ≠ futuresValidTimeTypeSpecifiedDate ∧
    ∃ params, (entrust (bytes "A") dayOrder).Sends params ∧
      (Json.struct params.members).get? (pieces (bytes "validTime")) =
        some (jsonText (bytes "20260930")) := by
  let params : FuturesEntrustWireRequest :=
    { stockCode := bytes "HSI2609.HK", entrustType := bytes "0", entrustPrice := bytes "25000",
      entrustAmount := bytes "1", entrustBS := bytes "1", validTimeType := bytes "0",
      orderOptions := bytes "0", validTime := bytes "20260930" }
  refine ⟨by decide +kernel, params, ?_, ?_⟩
  · rw [entrust, Call.sends_send]
    decide +kernel
  · have htime : field "validTime" true (jsonText (bytes "20260930")) ∈ params.members := by
      simp [FuturesEntrustWireRequest.members, params]
    have hget := Json.get?_struct (entrustMembers_nodup params) htime
    rwa [if_pos ((isShown_validTime _).mpr (by decide +kernel))] at hget

end

end FuturesService

end HstongApi
