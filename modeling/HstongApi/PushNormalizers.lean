import HstongApi.PushNormalize

/-!
# Two ways from a push frame to an event

`Normalize` makes an event of a `PBNotify`. `NormalizeNotification` makes one of the notification
that `decodeNotification` has made of the bytes. Both use the same five decoders, but they do not
agree on what is missing. `Normalize` gives nothing at all for a payload without bytes, and it does
not know the type `TrsStockDeliverMsgType`. On the other way the bytes of the payload are decoded
first, and no bytes are an empty message, which is decoded like every other one.

So the two agree exactly on payloads with bytes, of the other types (`normalizers_agree_iff`). Since
the decoders are the same, it does not matter what protobuf, the texts of floats and the decimal
package do; all three are parameters without laws.
-/

namespace HstongApi.PushEvents

/-! ## `Normalize` -/

section

variable [DecimalPackage] [Protobuf] [FloatText]

/-- One case of `Normalize`, for a message and its decoder. -/
def unmarshalEvent {μ : Type} (name : Bytes) (unmarshal : Bytes → Except Bytes μ)
    (decodeEvent : μ → ℕ → Except Panic Event) (value : Bytes) (time : ℕ) :
    Except Panic (Except Bytes (Option Event)) :=
  if value = [] then .ok (.ok none)
  else match unmarshal value with
    | .error err => .ok (.error (bytes "push: Normalize: unmarshal " ++ name ++ bytes ": " ++ err))
    | .ok msg => (fun event => .ok (some event)) <$> decodeEvent msg time

/-- `Normalize`: a panic, or an error, or an event, or nothing. -/
def normalize : Option PBNotify → Except Panic (Except Bytes (Option Event))
  | none => .ok (.error (bytes "push: Normalize: nil PBNotify"))
  | some pb =>
    match pb.payload with
    | none => .ok (.ok (some (normalizeUnknownEvent none)))
    | some payload =>
      if pb.notifyMsgType = basicQotNotifyMsgType then
        unmarshalEvent (bytes "BasicQotNotify") Protobuf.unmarshalBasicQot
          (fun msg time => .quote <$> decodeBasicQotEvent msg time) payload.value pb.notifyTime
      else if pb.notifyMsgType = tickerNotifyMsgType then
        unmarshalEvent (bytes "TickerNotify") Protobuf.unmarshalTicker
          (fun msg time => .ticker <$> decodeTickerEvent msg time) payload.value pb.notifyTime
      else if pb.notifyMsgType = orderBookNotifyMsgType then
        unmarshalEvent (bytes "OrderBookFullNotify") Protobuf.unmarshalOrderBook
          (fun msg time => .orderBook <$> decodeOrderBookEvent msg time) payload.value pb.notifyTime
      else if pb.notifyMsgType = brokerQueueNotifyMsgType then
        unmarshalEvent (bytes "BrokerNotify") Protobuf.unmarshalBroker
          (fun msg time => .broker <$> decodeBrokerEvent msg time) payload.value pb.notifyTime
      else if pb.notifyMsgType = tradeStockDeliverMsgType ∨
          pb.notifyMsgType = futuresTradeStockDeliverMsgType then
        unmarshalEvent (bytes "TradeStockDeliverNotify") Protobuf.unmarshalDeliver
          (fun msg time => .trade <$> decodeTradeEvent msg time) payload.value pb.notifyTime
      else .ok (.ok (some (normalizeUnknownEvent (some payload))))

/-- The other way: `NormalizeNotification` after `decodeNotification`. -/
def normalizeBody (body : Bytes) : Except Panic (Except Bytes Event) :=
  match decodeNotification body with
  | .error err => .ok (.error err)
  | .ok n => normalizeNotification (some n)

end

/-- **What the two results should have to do with each other.** -/
inductive Agrees [DecimalPackage] : Except Panic (Except Bytes (Option Event)) → Except Panic (Except Bytes Event) → Prop
  | event (event : Event) : Agrees (.ok (.ok (some event))) (.ok (.ok event))
  | empty : Agrees (.ok (.ok none)) (.ok (.ok emptyPayloadEvent))
  | error (err err' : Bytes) : Agrees (.ok (.error err)) (.ok (.error err'))
  | panic (p : Panic) : Agrees (.error p) (.error p)

/-! ## The other way, message by message -/

/-- An event of a message: no system event. -/
def Event.OfMessage [DecimalPackage] : Event → Prop
  | .system _ => False
  | _ => True

variable {t : NotifyMsgType} {payload : AnyMessage} {pb : PBNotify} {value : Bytes}

section

variable [DecimalPackage] [Protobuf] [FloatText]

/-- The payload is decoded, and then its event. -/
def eventOfPayload (t : NotifyMsgType) (value : Bytes) (time : ℕ) : Except Panic (Except Bytes Event) :=
  match decode t value with
  | .error err => .ok (.error err)
  | .ok decoded => Except.ok <$> decoded.event time

theorem normalizeBody_eq {body : Bytes} (hbody : Protobuf.unmarshalNotify body = .ok pb)
    (hpayload : pb.payload = some payload) :
    normalizeBody body = eventOfPayload pb.notifyMsgType payload.value pb.notifyTime := by
  rw [normalizeBody, decodeNotification, hbody]
  simp only [hpayload, eventOfPayload]
  cases hdecode : decode pb.notifyMsgType payload.value with
  | error err => rfl
  | ok decoded => exact normalize_selects rfl (decode_selects hdecode)

omit [DecimalPackage] [Protobuf] [FloatText] in
theorem exists_of_fmap_eq_ok {α β ε : Type} {f : α → β} {x : Except ε α} {b : β}
    (h : f <$> x = .ok b) : ∃ a, x = .ok a ∧ f a = b := by
  cases x with
  | error e => cases h
  | ok a => exact ⟨a, rfl, Except.ok.inj h⟩

omit [Protobuf] in
theorem ofMessage_of_selects {payload : Payload} (hselects : Selects t payload) {time : ℕ}
    {event : Event} (h : payload.event time = .ok event) : event.OfMessage := by
  cases hselects with
  | basicQot msg =>
    obtain ⟨quote, -, rfl⟩ := exists_of_fmap_eq_ok h
    trivial
  | ticker msg =>
    obtain ⟨ticker, -, rfl⟩ := exists_of_fmap_eq_ok h
    trivial
  | orderBook msg =>
    obtain ⟨orderBook, -, rfl⟩ := exists_of_fmap_eq_ok h
    trivial
  | broker msg =>
    obtain ⟨broker, -, rfl⟩ := exists_of_fmap_eq_ok h
    trivial
  | deliver msg ht =>
    obtain ⟨trade, -, rfl⟩ := exists_of_fmap_eq_ok h
    trivial

/-- What comes out of this way is never a system event. -/
theorem ofMessage_eventOfPayload {time : ℕ} {event : Event}
    (h : eventOfPayload t value time = .ok (.ok event)) : event.OfMessage := by
  rw [eventOfPayload] at h
  cases hdecode : decode t value with
  | error err =>
    rw [hdecode] at h
    cases h
  | ok decoded =>
    rw [hdecode] at h
    obtain ⟨event', hevent, heq⟩ := exists_of_fmap_eq_ok h
    cases heq
    exact ofMessage_of_selects (decode_selects hdecode) hevent

/-- So it does not agree with nothing, nor with a system event. -/
theorem not_agrees_eventOfPayload {x : Except Panic (Except Bytes (Option Event))}
    (hx : x = .ok (.ok none) ∨ ∃ e, x = .ok (.ok (some (.system e)))) {time : ℕ} :
    ¬Agrees x (eventOfPayload t value time) := by
  intro h
  generalize hy : eventOfPayload t value time = y at h
  rcases hx with rfl | ⟨e, rfl⟩
  · cases h with
    | empty => exact ofMessage_eventOfPayload hy
  · cases h with
    | event => exact ofMessage_eventOfPayload hy

/-- The two ways for one message, when there are bytes. -/
theorem agrees_unmarshalEvent {μ : Type} {unmarshal : Bytes → Except Bytes μ}
    (box : Option μ → Payload) {decodeEvent : μ → ℕ → Except Panic Event}
    (hevent : ∀ msg time, (box (some msg)).event time = decodeEvent msg time)
    (hdecode : decode t value = decodeAs unmarshal box value) (hvalue : value ≠ []) (name : Bytes)
    (time : ℕ) :
    Agrees (unmarshalEvent name unmarshal decodeEvent value time) (eventOfPayload t value time) := by
  rw [unmarshalEvent, if_neg hvalue, eventOfPayload, hdecode, decodeAs]
  cases unmarshal value with
  | error err => exact .error _ _
  | ok msg =>
    simp only [hevent]
    cases decodeEvent msg time with
    | error p => exact .panic p
    | ok event => exact .event event

/-- The types that carry a payload. -/
def payloadTypes : List NotifyMsgType :=
  [basicQotNotifyMsgType, tickerNotifyMsgType, orderBookNotifyMsgType, brokerQueueNotifyMsgType] ++
    tradeNotifyTypes

/-- The two ways agree on a payload with bytes of a type that both know. -/
theorem agrees_of_value (hpayload : pb.payload = some payload)
    (htype : pb.notifyMsgType ∈ payloadTypes) (hvalue : payload.value ≠ [])
    (htrs : pb.notifyMsgType ≠ trsStockDeliverMsgType) :
    Agrees (normalize (some pb)) (eventOfPayload pb.notifyMsgType payload.value pb.notifyTime) := by
  simp only [normalize, hpayload]
  generalize pb.notifyMsgType = t at *
  simp only [payloadTypes, tradeNotifyTypes, List.mem_append, List.mem_cons, List.not_mem_nil,
    or_false] at htype
  rcases htype with (rfl | rfl | rfl | rfl) | rfl | rfl | rfl
  · exact agrees_unmarshalEvent .basicQot (fun _ _ => rfl) rfl hvalue _ _
  · exact agrees_unmarshalEvent .ticker (fun _ _ => rfl) rfl hvalue _ _
  · exact agrees_unmarshalEvent .orderBook (fun _ _ => rfl) rfl hvalue _ _
  · exact agrees_unmarshalEvent .broker (fun _ _ => rfl) rfl hvalue _ _
  · exact absurd rfl htrs
  · exact agrees_unmarshalEvent .deliver (fun _ _ => rfl) rfl hvalue _ _
  · exact agrees_unmarshalEvent .deliver (fun _ _ => rfl) rfl hvalue _ _

/-- A payload without bytes, or of the type that `Normalize` does not know, gives nothing or a system
event. -/
theorem normalize_of_missing (hpayload : pb.payload = some payload)
    (h : payload.value = [] ∨ pb.notifyMsgType = trsStockDeliverMsgType) :
    normalize (some pb) = .ok (.ok none) ∨
      ∃ e, normalize (some pb) = .ok (.ok (some (.system e))) := by
  simp only [normalize, hpayload]
  rcases h with hvalue | htrs
  · simp only [unmarshalEvent, hvalue, if_pos]
    split_ifs
    · exact .inl rfl
    · exact .inl rfl
    · exact .inl rfl
    · exact .inl rfl
    · exact .inl rfl
    · exact .inr ⟨_, rfl⟩
  · rw [htrs]
    exact .inr ⟨_, rfl⟩

/-- **When the two normalisers agree.** For a frame of one of these types with a payload this is so
exactly if the payload has bytes and the type is not `TrsStockDeliverMsgType`. -/
theorem normalizers_agree_iff (body : Bytes) (pb : PBNotify) (payload : AnyMessage)
    (hbody : Protobuf.unmarshalNotify body = .ok pb) (hpayload : pb.payload = some payload)
    (htype : pb.notifyMsgType ∈ payloadTypes) :
    Agrees (normalize (some pb)) (normalizeBody body) ↔
      payload.value ≠ [] ∧ pb.notifyMsgType ≠ trsStockDeliverMsgType := by
  rw [normalizeBody_eq hbody hpayload]
  constructor
  · intro h
    by_contra hmissing
    rw [not_and_or, not_not, not_not] at hmissing
    exact not_agrees_eventOfPayload (normalize_of_missing hpayload hmissing) h
  · rintro ⟨hvalue, htrs⟩
    exact agrees_of_value hpayload htype hvalue htrs

end

/-- The frame of a ticker with the price `1.5`. -/
def tickerFrame : PBNotify :=
  ⟨tickerNotifyMsgType, [], 0, some ⟨[], tickerPayload oneAndAHalf⟩⟩

section

attribute [local instance] ScaledInt.scaledInts tickerProtobuf exactTexts

/-- The two ways agree on it. -/
theorem normalizers_agree_ticker :
    Agrees (normalize (some tickerFrame)) (normalizeBody (tickerBody oneAndAHalf)) :=
  (normalizers_agree_iff (tickerBody oneAndAHalf) tickerFrame
    ⟨[], tickerPayload oneAndAHalf⟩ (by decide +kernel) rfl (by decide)).mpr
    ⟨by decide +kernel, by decide⟩

end

/-- The frame of a ticker with a payload that has no bytes. -/
def emptyFrame : PBNotify := ⟨tickerNotifyMsgType, [], 0, some ⟨[], []⟩⟩

/-- The frame of a delivery of the type that `Normalize` does not know, with an empty first field. -/
def trsFrame : PBNotify := ⟨trsStockDeliverMsgType, [], 0, some ⟨[], [0x0a, 0x00]⟩⟩

/-- As much of protobuf as these two frames need. -/
@[reducible] def framesProtobuf : Protobuf where
  unmarshalNotify body :=
    if body = [0x08, 0xa4, 0x9c, 0x01, 0x22, 0x00] then .ok emptyFrame
    else if body = [0x22, 0x04, 0x12, 0x02, 0x0a, 0x00] then .ok trsFrame
    else .error (bytes "proto: cannot parse invalid wire-format data")
  unmarshalTicker _ := .ok ⟨none, none⟩
  unmarshalDeliver _ := .ok {}
  unmarshalBasicQot _ := .ok ⟨none, none⟩
  unmarshalOrderBook _ := .ok ⟨none, 0, []⟩
  unmarshalBroker _ := .ok ⟨none, 0, []⟩

section

attribute [local instance] ScaledInt.scaledInts framesProtobuf exactTexts

/-- The first frame gives nothing on one way and an ordinary ticker event on the other. The second
gives a system event on one way and a trade on the other. -/
theorem normalizers_disagree :
    normalize (some emptyFrame) = .ok (.ok none) ∧
      normalizeBody [0x08, 0xa4, 0x9c, 0x01, 0x22, 0x00] =
        .ok (.ok (.ticker ⟨{}, {}, {}, {}, bytes "0", []⟩)) ∧
      normalize (some trsFrame) =
        .ok (.ok (some (.system ⟨[], bytes "unknown push event type: 2 bytes", bytes "warn"⟩))) ∧
      normalizeBody [0x22, 0x04, 0x12, 0x02, 0x0a, 0x00] =
        .ok (.ok (.trade
          ⟨{}, [], [], {}, {}, ⟨⟨0, 0⟩, bytes "HKD", 3⟩, [], bytes "0", [], []⟩)) := by
  decide +kernel

end

end HstongApi.PushEvents
