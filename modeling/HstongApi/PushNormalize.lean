import HstongApi.PushEvents

/-!
# From push bodies to events

`decodeNotification` takes the body of a push frame apart, and `NormalizeNotification` makes an
event of the notification. Protobuf is the parameter `Protobuf`: functions from bytes to
messages or to an error, about which nothing is assumed.

The payload of a decoded notification is the message that its type selects
(`decode_selects`), so `NormalizeNotification` reaches the decoder of that message, and
`normalizeNotification_returns_iff` follows from what the decoders need: no panic exactly if
the doubles of the message are finite and the amounts of a delivery are empty or decimals.
-/

namespace HstongApi

open DecimalPackage

namespace PushEvents

/-! ## Notifications -/

/-- What `Notification.Payload` can hold: a pointer to one of the messages, which may be nil,
or a value of another type. -/
inductive Payload
  | basicQot (msg : Option BasicQotNotify)
  | ticker (msg : Option TickerNotify)
  | orderBook (msg : Option OrderBookFullNotify)
  | broker (msg : Option BrokerNotify)
  | deliver (msg : Option TradeStockDeliverNotify)
  | other (typeName : Bytes)
  deriving DecidableEq

/-- The name of the type of a payload, as `%T` prints it. -/
def Payload.typeName : Payload → Bytes
  | .basicQot _ => bytes "*notify.BasicQotNotify"
  | .ticker _ => bytes "*notify.TickerNotify"
  | .orderBook _ => bytes "*notify.OrderBookFullNotify"
  | .broker _ => bytes "*notify.BrokerNotify"
  | .deliver _ => bytes "*notify.TradeStockDeliverNotify"
  | .other typeName => typeName

/-- `push.Notification` -/
structure Notification where
  type : NotifyMsgType
  id : Bytes
  /-- when the Gateway sent it -/
  time : ℕ
  /-- the decoded message, if the frame had one -/
  payload : Option Payload
  deriving DecidableEq

/-- `anypb.Any` -/
structure AnyMessage where
  /-- which message it is -/
  typeUrl : Bytes
  /-- the message itself, not yet decoded -/
  value : Bytes
  deriving DecidableEq

/-- `pbmsg.PBNotify` -/
structure PBNotify where
  notifyMsgType : NotifyMsgType
  notifyId : Bytes
  notifyTime : ℕ
  payload : Option AnyMessage
  deriving DecidableEq

/-- `proto.Unmarshal` for the messages of the push stream. An error is its text. -/
class Protobuf where
  unmarshalNotify : Bytes → Except Bytes PBNotify
  unmarshalBasicQot : Bytes → Except Bytes BasicQotNotify
  unmarshalTicker : Bytes → Except Bytes TickerNotify
  unmarshalOrderBook : Bytes → Except Bytes OrderBookFullNotify
  unmarshalBroker : Bytes → Except Bytes BrokerNotify
  unmarshalDeliver : Bytes → Except Bytes TradeStockDeliverNotify

section

variable [Protobuf]

/-- Unmarshals a payload into the message that its type selects. -/
def decodeAs {μ : Type} (unmarshal : Bytes → Except Bytes μ) (box : Option μ → Payload)
    (payload : Bytes) : Except Bytes Payload :=
  match unmarshal payload with
  | .ok msg => .ok (box (some msg))
  | .error err =>
    .error (bytes "push: decode " ++ (box none).typeName ++ bytes ": " ++ err)

/-- `Decode` -/
def decode (notifyMsgType : NotifyMsgType) (payload : Bytes) : Except Bytes Payload :=
  if notifyMsgType ∈ tradeNotifyTypes then decodeAs Protobuf.unmarshalDeliver .deliver payload
  else if notifyMsgType = orderBookNotifyMsgType then
    decodeAs Protobuf.unmarshalOrderBook .orderBook payload
  else if notifyMsgType = brokerQueueNotifyMsgType then
    decodeAs Protobuf.unmarshalBroker .broker payload
  else if notifyMsgType = basicQotNotifyMsgType then
    decodeAs Protobuf.unmarshalBasicQot .basicQot payload
  else if notifyMsgType = tickerNotifyMsgType then
    decodeAs Protobuf.unmarshalTicker .ticker payload
  else .error (bytes "push: unknown notifyMsgType " ++ itoa notifyMsgType)

/-- `decodeNotification` -/
def decodeNotification (body : Bytes) : Except Bytes Notification :=
  match Protobuf.unmarshalNotify body with
  | .error err => .error (bytes "push: decode PBNotify: " ++ err)
  | .ok pb =>
    match pb.payload with
    | none => .ok ⟨pb.notifyMsgType, pb.notifyId, pb.notifyTime, none⟩
    | some p =>
      match decode pb.notifyMsgType p.value with
      | .error err => .error err
      | .ok decoded => .ok ⟨pb.notifyMsgType, pb.notifyId, pb.notifyTime, some decoded⟩

end

/-! ## Events -/

section

variable [DecimalPackage]

/-- `emptyPayloadEvent` -/
def emptyPayloadEvent : Event :=
  .system ⟨bytes "EMPTY_PAYLOAD", bytes "push frame carried no payload body", bytes "warn"⟩

/-- `normalizeUnknownEvent` -/
def normalizeUnknownEvent : Option AnyMessage → Event
  | none => .system ⟨bytes "UNKNOWN", bytes "nil payload", bytes "warn"⟩
  | some a =>
    .system ⟨a.typeUrl,
      bytes "unknown push event type: " ++ natText a.value.length ++ bytes " bytes", bytes "warn"⟩

/-- `notifPayloadError` -/
def notifPayloadError (n : Notification) (payload : Payload) : Bytes :=
  bytes "push: NormalizeNotification: payload " ++ payload.typeName ++
    bytes " does not match notifyMsgType " ++ notifyMsgTypeString n.type ++ bytes " (" ++
    itoa n.type ++ bytes ")"

/-- One case of `NormalizeNotification`, for the messages that are selected and their decoder. -/
def normalizeAs {μ : Type} (select : Payload → Option (Option μ))
    (decodeEvent : μ → ℕ → Except Panic Event) (n : Notification) :
    Except Panic (Except Bytes Event) :=
  match n.payload with
  | none => .ok (.ok emptyPayloadEvent)
  | some payload =>
    match select payload with
    | none => .ok (.error (notifPayloadError n payload))
    | some none => .ok (.ok emptyPayloadEvent)
    | some (some msg) => do
      let event ← decodeEvent msg n.time
      return .ok event

end

/-- The type assertions on a payload. -/
def Payload.asBasicQot : Payload → Option (Option BasicQotNotify)
  | .basicQot msg => some msg
  | _ => none

@[inherit_doc Payload.asBasicQot]
def Payload.asTicker : Payload → Option (Option TickerNotify)
  | .ticker msg => some msg
  | _ => none

@[inherit_doc Payload.asBasicQot]
def Payload.asOrderBook : Payload → Option (Option OrderBookFullNotify)
  | .orderBook msg => some msg
  | _ => none

@[inherit_doc Payload.asBasicQot]
def Payload.asBroker : Payload → Option (Option BrokerNotify)
  | .broker msg => some msg
  | _ => none

@[inherit_doc Payload.asBasicQot]
def Payload.asDeliver : Payload → Option (Option TradeStockDeliverNotify)
  | .deliver msg => some msg
  | _ => none

section

variable [DecimalPackage] [FloatText]

/-- `NormalizeNotification`: a panic, or an error or an event. -/
def normalizeNotification : Option Notification → Except Panic (Except Bytes Event)
  | none => .ok (.error (bytes "push: NormalizeNotification: nil Notification"))
  | some n =>
    if n.type = basicQotNotifyMsgType then
      normalizeAs Payload.asBasicQot (fun msg time => .quote <$> decodeBasicQotEvent msg time) n
    else if n.type = tickerNotifyMsgType then
      normalizeAs Payload.asTicker (fun msg time => .ticker <$> decodeTickerEvent msg time) n
    else if n.type = orderBookNotifyMsgType then
      normalizeAs Payload.asOrderBook (fun msg time => .orderBook <$> decodeOrderBookEvent msg time) n
    else if n.type = brokerQueueNotifyMsgType then
      normalizeAs Payload.asBroker (fun msg time => .broker <$> decodeBrokerEvent msg time) n
    else if n.type ∈ tradeNotifyTypes then
      normalizeAs Payload.asDeliver (fun msg time => .trade <$> decodeTradeEvent msg time) n
    else .ok (.ok (normalizeUnknownEvent none))

end

/-! ## What a decoded notification holds -/

/-- The payload is the message that the type selects. -/
inductive Selects : NotifyMsgType → Payload → Prop
  | basicQot (msg) : Selects basicQotNotifyMsgType (.basicQot (some msg))
  | ticker (msg) : Selects tickerNotifyMsgType (.ticker (some msg))
  | orderBook (msg) : Selects orderBookNotifyMsgType (.orderBook (some msg))
  | broker (msg) : Selects brokerQueueNotifyMsgType (.broker (some msg))
  | deliver {t} (msg) : t ∈ tradeNotifyTypes → Selects t (.deliver (some msg))

variable {n : Notification} {payload : Payload}

section

variable [Protobuf]

omit [Protobuf] in
theorem decodeAs_eq_ok {μ : Type} {unmarshal : Bytes → Except Bytes μ} {box : Option μ → Payload}
    {value : Bytes} (h : decodeAs unmarshal box value = .ok payload) :
    ∃ msg, payload = box (some msg) := by
  unfold decodeAs at h
  split at h
  · exact ⟨_, (Except.ok.inj h).symm⟩
  · cases h

theorem decode_selects {t : NotifyMsgType} {value : Bytes} (h : decode t value = .ok payload) :
    Selects t payload := by
  unfold decode at h
  split at h
  · obtain ⟨msg, rfl⟩ := decodeAs_eq_ok h
    exact .deliver msg ‹_›
  · split at h
    · obtain ⟨msg, rfl⟩ := decodeAs_eq_ok h
      rename_i ht
      exact ht ▸ .orderBook msg
    · split at h
      · obtain ⟨msg, rfl⟩ := decodeAs_eq_ok h
        rename_i ht
        exact ht ▸ .broker msg
      · split at h
        · obtain ⟨msg, rfl⟩ := decodeAs_eq_ok h
          rename_i ht
          exact ht ▸ .basicQot msg
        · split at h
          · obtain ⟨msg, rfl⟩ := decodeAs_eq_ok h
            rename_i ht
            exact ht ▸ .ticker msg
          · cases h

theorem decodeNotification_selects {body : Bytes} (h : decodeNotification body = .ok n) :
    ∀ payload ∈ n.payload, Selects n.type payload := by
  unfold decodeNotification at h
  split at h
  · cases h
  · split at h
    · cases h
      exact nofun
    · split at h <;> cases h
      rename_i decoded hdecode
      rintro payload hpayload
      cases hpayload
      exact decode_selects hdecode

end

/-! ## When an event comes out -/

section

variable [DecimalPackage]

/-- **The numbers of a message**: its doubles are finite, or its amounts are empty or can be read. -/
def Payload.Numeric : Payload → Prop
  | .basicQot msg => ∀ notify ∈ msg, notify.Numeric
  | .ticker msg => ∀ notify ∈ msg, notify.Numeric
  | .orderBook msg => ∀ notify ∈ msg, notify.Numeric
  | .deliver msg => ∀ notify ∈ msg, notify.Numeric
  | .broker _ | .other _ => True

/-- The numbers of a notification. -/
def Notification.Numeric (n : Notification) : Prop := ∀ payload ∈ n.payload, payload.Numeric

theorem normalizeAs_eq {μ : Type} {select : Payload → Option (Option μ)}
    {decodeEvent : μ → ℕ → Except Panic Event} (hpayload : n.payload = some payload) {msg : μ}
    (hselect : select payload = some (some msg)) :
    normalizeAs select decodeEvent n = Except.ok <$> decodeEvent msg n.time := by
  rw [normalizeAs, hpayload]
  simp only [hselect]
  rfl

theorem normalizeAs_none {μ : Type} {select : Payload → Option (Option μ)}
    {decodeEvent : μ → ℕ → Except Panic Event} (hpayload : n.payload = none) :
    ∃ event, normalizeAs select decodeEvent n = .ok (.ok event) := by
  rw [normalizeAs, hpayload]
  exact ⟨_, rfl⟩

variable [FloatText]

/-- A frame without a payload always gives an event. -/
theorem normalize_none (hpayload : n.payload = none) :
    ∃ event, normalizeNotification (some n) = .ok (.ok event) := by
  simp only [normalizeNotification]
  split
  · exact normalizeAs_none hpayload
  · split
    · exact normalizeAs_none hpayload
    · split
      · exact normalizeAs_none hpayload
      · split
        · exact normalizeAs_none hpayload
        · split
          · exact normalizeAs_none hpayload
          · exact ⟨_, rfl⟩

/-- The event of a message. -/
def Payload.event (time : ℕ) : Payload → Except Panic Event
  | .basicQot (some msg) => .quote <$> decodeBasicQotEvent msg time
  | .ticker (some msg) => .ticker <$> decodeTickerEvent msg time
  | .orderBook (some msg) => .orderBook <$> decodeOrderBookEvent msg time
  | .broker (some msg) => .broker <$> decodeBrokerEvent msg time
  | .deliver (some msg) => .trade <$> decodeTradeEvent msg time
  | _ => .ok emptyPayloadEvent

/-- A frame with the message that its type selects gives the event of the message. -/
theorem normalize_selects (hpayload : n.payload = some payload) (hselects : Selects n.type payload) :
    normalizeNotification (some n) = Except.ok <$> payload.event n.time := by
  generalize htype : n.type = t at hselects
  simp only [normalizeNotification, htype]
  cases hselects with
  | basicQot msg => rw [if_pos rfl, normalizeAs_eq hpayload rfl, Payload.event]
  | ticker msg => rw [if_neg (by decide), if_pos rfl, normalizeAs_eq hpayload rfl, Payload.event]
  | orderBook msg =>
    rw [if_neg (by decide), if_neg (by decide), if_pos rfl, normalizeAs_eq hpayload rfl,
      Payload.event]
  | broker msg =>
    rw [if_neg (by decide), if_neg (by decide), if_neg (by decide), if_pos rfl,
      normalizeAs_eq hpayload rfl, Payload.event]
  | deliver msg ht =>
    -- the trade types are none of the market types
    have hother : ∀ t ∈ tradeNotifyTypes, t ≠ basicQotNotifyMsgType ∧ t ≠ tickerNotifyMsgType ∧
        t ≠ orderBookNotifyMsgType ∧ t ≠ brokerQueueNotifyMsgType := by decide
    obtain ⟨hbasicQot, hticker, horderBook, hbroker⟩ := hother t ht
    rw [if_neg hbasicQot, if_neg hticker, if_neg horderBook, if_neg hbroker, if_pos ht,
      normalizeAs_eq hpayload rfl, Payload.event]

/-- The decoder of the message that a type selects returns exactly if the numbers of the message
are in order. -/
theorem returns_event [LawfulReading] {t : NotifyMsgType} (hselects : Selects t payload) (time : ℕ) :
    Returns (payload.event time) ↔ payload.Numeric := by
  cases hselects with
  | basicQot msg =>
    rw [Payload.event, returns_fmap, returns_decodeBasicQotEvent]
    simp only [Payload.Numeric, Option.mem_some_iff, forall_eq']
  | ticker msg =>
    rw [Payload.event, returns_fmap, returns_decodeTickerEvent]
    simp only [Payload.Numeric, Option.mem_some_iff, forall_eq']
  | orderBook msg =>
    rw [Payload.event, returns_fmap, returns_decodeOrderBookEvent]
    simp only [Payload.Numeric, Option.mem_some_iff, forall_eq']
  | broker msg =>
    rw [Payload.event, returns_fmap]
    exact iff_of_true (returns_decodeBrokerEvent msg time) trivial
  | deliver msg ht =>
    rw [Payload.event, returns_fmap, returns_decodeTradeEvent]
    simp only [Payload.Numeric, Option.mem_some_iff, forall_eq']

/-- A frame with the message that its type selects, and with numbers in order, gives an event. -/
theorem normalize_event [LawfulReading] (hnumeric : n.Numeric)
    (hselects : ∀ payload ∈ n.payload, Selects n.type payload) :
    ∃ event, normalizeNotification (some n) = .ok (.ok event) := by
  cases hpayload : n.payload with
  | none => exact normalize_none hpayload
  | some payload =>
    have hselect : Selects n.type payload := hselects payload hpayload
    obtain ⟨event, hevent⟩ := (returns_event hselect n.time).mpr (hnumeric payload hpayload)
    rw [normalize_selects hpayload hselect, hevent]
    exact ⟨event, rfl⟩

/-- **When a push body is normalised without a panic.** For a body that is decoded this is so
exactly if the doubles of its message are finite and the amounts of a trade delivery are empty
or texts that the decimal package reads. -/
theorem normalizeNotification_returns_iff [LawfulReading] [Protobuf] (body : Bytes) (n : Notification)
    (h : decodeNotification body = .ok n) :
    Returns (normalizeNotification (some n)) ↔ n.Numeric := by
  have hselects := decodeNotification_selects h
  unfold Notification.Numeric
  cases hpayload : n.payload with
  | none =>
    obtain ⟨event, hevent⟩ := normalize_none hpayload
    exact iff_of_true ⟨_, hevent⟩ nofun
  | some payload =>
    have hselect : Selects n.type payload := hselects payload hpayload
    simp only [Option.mem_some_iff, forall_eq']
    rw [normalize_selects hpayload hselect, returns_fmap, returns_event hselect]

end

/-! ## Frames of a ticker -/

/-- Eight bytes, the lowest first. -/
def bytesOfDouble (x : Double) : Bytes :=
  (List.range 8).map fun i => UInt8.ofNat (x.bits.toNat / 256 ^ i)

/-- The double in eight bytes, the lowest first. -/
def doubleOfBytes (t : Bytes) : Double :=
  ⟨UInt64.ofNat (t.foldr (fun c n => c.toNat + 256 * n) 0)⟩

/-- A `TickerNotify` with nothing but the price of its ticker. -/
def tickerPayload (price : Double) : Bytes := [0x12, 0x09, 0x19] ++ bytesOfDouble price

/-- A `PBNotify` of the type `TickerNotifyMsgType` with that payload. -/
def tickerBody (price : Double) : Bytes :=
  [0x08, 0xa4, 0x9c, 0x01, 0x22, 0x0d, 0x12, 0x0b] ++ tickerPayload price

/-- As much of protobuf as these bodies need. -/
@[reducible] def tickerProtobuf : Protobuf where
  unmarshalNotify body :=
    if body.take 8 = [0x08, 0xa4, 0x9c, 0x01, 0x22, 0x0d, 0x12, 0x0b] ∧ body.length = 19 then
      .ok ⟨tickerNotifyMsgType, [], 0, some ⟨[], body.drop 8⟩⟩
    else .error (bytes "proto: cannot parse invalid wire-format data")
  unmarshalTicker payload :=
    if payload.take 3 = [0x12, 0x09, 0x19] ∧ payload.length = 11 then
      .ok ⟨none, some ⟨0, doubleOfBytes (payload.drop 3), 0, ⟨0⟩⟩⟩
    else .error (bytes "proto: cannot parse invalid wire-format data")
  unmarshalBasicQot _ := .error (bytes "proto: cannot parse invalid wire-format data")
  unmarshalOrderBook _ := .error (bytes "proto: cannot parse invalid wire-format data")
  unmarshalBroker _ := .error (bytes "proto: cannot parse invalid wire-format data")
  unmarshalDeliver _ := .error (bytes "proto: cannot parse invalid wire-format data")

/-- The notification in such a body. -/
def tickerNotification (price : Double) : Notification :=
  ⟨tickerNotifyMsgType, [], 0, some (.ticker (some ⟨none, some ⟨0, price, 0, ⟨0⟩⟩⟩))⟩

/-- The double `1.5`. -/
def oneAndAHalf : Double := ⟨0x3ff8000000000000⟩

/-- The double `NaN`. -/
def notANumber : Double := ⟨0x7ff8000000000000⟩

section

attribute [local instance] ScaledInt.scaledInts tickerProtobuf exactTexts

/-- A ticker with the price `1.5` is normalised. -/
theorem normalizeNotification_returns_oneAndAHalf :
    decodeNotification (tickerBody oneAndAHalf) = .ok (tickerNotification oneAndAHalf) ∧
      Returns (normalizeNotification (some (tickerNotification oneAndAHalf))) := by
  have hdecode : decodeNotification (tickerBody oneAndAHalf) =
      .ok (tickerNotification oneAndAHalf) := by decide +kernel
  refine ⟨hdecode, (normalizeNotification_returns_iff _ _ hdecode).mpr ?_⟩
  rintro payload hpayload
  cases hpayload
  rintro notify hnotify
  cases hnotify
  rintro t ht
  cases ht
  decide

/-- **A ticker with the price `NaN`** is decoded, and then `NormalizeNotification` panics. -/
theorem nan_price_panics :
    decodeNotification (tickerBody notANumber) = .ok (tickerNotification notANumber) ∧
      normalizeNotification (some (tickerNotification notANumber)) =
        .error (.price (bytes "NaN")) := by
  decide +kernel

end

end PushEvents

end HstongApi
