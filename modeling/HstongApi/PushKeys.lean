import HstongApi.Bytes
import HstongApi.Collections
import Mathlib.Data.List.Perm.Basic

/-!
# Topics, instruments and the keys of push routing

The vocabulary of the push orchestration (`pkg/services/push.go`, with the
enumerations of `pkg/types/enums.go` and the events of `pkg/domain/push_event.go`):
which payload type a topic delivers, which instruments a subscription names, and the
two kinds of keys the orchestration computes from them.

* A *routing key* is an instrument code in upper case without its market suffix. An
  update is matched on the routing keys of its notify id and of the code in its
  payload.
* A *canonical key* names a topic with a list of instruments, in any order: it is the
  unit at which `/hq/Subscribe` requests are counted.

Both are texts. The bytes that separate the parts of a canonical key may stand in an instrument
code, which the validation does not look into. `canonicalPushKey_inj` says that the key loses
nothing when no code holds one of the separators, and `canonicalPushKey_faithful_iff` for which
bytes in the codes it loses nothing.
-/

namespace HstongApi

/-! ## Topics and payload types -/

/-- `types.TopicID` -/
abbrev TopicID : Type := ℤ

/-- `types.NotifyMsgType` -/
abbrev NotifyMsgType : Type := ℤ

def trsStockDeliverMsgType : NotifyMsgType := 0
def tradeStockDeliverMsgType : NotifyMsgType := 1
def futuresTradeStockDeliverMsgType : NotifyMsgType := 2
def orderBookNotifyMsgType : NotifyMsgType := 20001
def brokerQueueNotifyMsgType : NotifyMsgType := 20002
def basicQotNotifyMsgType : NotifyMsgType := 20003
def tickerNotifyMsgType : NotifyMsgType := 20004

def topicBasicQot : TopicID := 11
def topicQuoteVariant35 : TopicID := 35
def topicTicker : TopicID := 14
def topicTickVariant27 : TopicID := 27
def topicTickVariant28 : TopicID := 28
def topicTickVariant37 : TopicID := 37
def topicBroker : TopicID := 16
def topicOrderBook : TopicID := 17
def topicOrderBookArcabook : TopicID := 25
def topicOrderBookTotalView : TopicID := 26
def topicOrderBookVariant36 : TopicID := 36

/-- `NotifyMsgType.String` -/
def notifyMsgTypeString (m : NotifyMsgType) : Bytes :=
  if m = trsStockDeliverMsgType then bytes "TrsStockDeliverMsgType"
  else if m = tradeStockDeliverMsgType then bytes "TradeStockDeliverMsgType"
  else if m = futuresTradeStockDeliverMsgType then bytes "FuturesTradeStockDeliverMsgType"
  else if m = orderBookNotifyMsgType then bytes "OrderBookNotifyMsgType"
  else if m = brokerQueueNotifyMsgType then bytes "BrokerQueueNotifyMsgType"
  else if m = basicQotNotifyMsgType then bytes "BasicQotNotifyMsgType"
  else if m = tickerNotifyMsgType then bytes "TickerNotifyMsgType"
  else bytes "NotifyMsgType(" ++ itoa m ++ bytes ")"

/-- `knownTopics`: the topics the market service accepts. -/
def knownTopics : List TopicID :=
  [topicBasicQot, topicQuoteVariant35, topicTicker, topicTickVariant27, topicTickVariant28,
    topicTickVariant37, topicBroker, topicOrderBook, topicOrderBookArcabook,
    topicOrderBookTotalView, topicOrderBookVariant36]

/-- `NotifyTypeForTopic`: the payload type a topic delivers, if it is mapped. -/
def notifyTypeForTopic (t : TopicID) : Option NotifyMsgType :=
  if t ∈ [topicBasicQot, topicQuoteVariant35] then some basicQotNotifyMsgType
  else if t ∈ [topicTicker, topicTickVariant27, topicTickVariant28, topicTickVariant37] then
    some tickerNotifyMsgType
  else if t = topicBroker then some brokerQueueNotifyMsgType
  else if t ∈ [topicOrderBook, topicOrderBookArcabook, topicOrderBookTotalView,
      topicOrderBookVariant36] then some orderBookNotifyMsgType
  else none

/-- `marketTopics` -/
def marketTopics : List TopicID := knownTopics.insertionSort (· ≤ ·)

/-- `marketNotifyTypes`: the payload types that topics deliver. -/
def marketNotifyTypes : List NotifyMsgType :=
  (distinct (marketTopics.filterMap notifyTypeForTopic)).insertionSort (· ≤ ·)

/-- `tradeNotifyTypes`: the order-status types, which no topic delivers. -/
def tradeNotifyTypes : List NotifyMsgType :=
  [trsStockDeliverMsgType, tradeStockDeliverMsgType, futuresTradeStockDeliverMsgType]

/-- `isTradeNotifyType` -/
def isTradeNotifyType (t : NotifyMsgType) : Bool := tradeNotifyTypes.contains t

/-- `deliverablePayloadNames` -/
def deliverablePayloadNames : List Bytes := sortStrings (marketNotifyTypes.map notifyMsgTypeString)

/-- `unmappedTopicMessage` -/
def unmappedTopicMessage (topic : TopicID) : Bytes :=
  bytes "topicId " ++ itoa topic ++
    bytes " has no push payload this SDK can deliver; the deliverable payload types are " ++
    join deliverablePayloadNames (bytes ", ") ++
    bytes "; consult services.NotifyTypeForTopic, which holds the docs/SPEC.md section 4 mapping"

/-! ## Updates -/

/-- A point in time; `0` is the zero time. -/
abbrev Time : Type := ℤ

/-- `domain.PushEvent`, with the instrument code and the time stamp of its payload. -/
inductive PushEvent where
  | quote (code timestamp : Bytes)
  | ticker (code timestamp : Bytes)
  | orderBook (code timestamp : Bytes)
  | broker (code timestamp : Bytes)
  | trade (code timestamp : Bytes)
  | system
  deriving DecidableEq

/-- `eventTimestamp` -/
def eventTimestamp : PushEvent → Option Bytes
  | .quote _ timestamp | .ticker _ timestamp | .orderBook _ timestamp | .broker _ timestamp
  | .trade _ timestamp => some timestamp
  | .system => none

/-- `domain.PushUpdate` -/
structure PushUpdate where
  /-- the payload type of the frame -/
  type : NotifyMsgType
  /-- the notify id of the frame -/
  id : Bytes
  /-- the wire time of the frame -/
  time : Time
  /-- the payload; `none` is a nil event -/
  event : Option PushEvent
  deriving DecidableEq

/-- `PushUpdate.SecurityCode` -/
def PushUpdate.securityCode (u : PushUpdate) : Bytes :=
  match u.event with
  | some (.quote code _) | some (.ticker code _) | some (.orderBook code _)
  | some (.broker code _) | some (.trade code _) => code
  | some .system | none => []

/-! ## Instruments -/

/-- `Security` -/
structure Security where
  dataType : ℤ
  code : Bytes
  deriving DecidableEq, Inhabited

/-- The errors a call on the orchestration returns. -/
inductive PushError where
  /-- `ErrPushClosed` -/
  | pushClosed
  /-- `ErrNoPushTransport` -/
  | noPushTransport
  /-- an `errs.StatusInvalidParam` of an operation -/
  | invalidParam (op message : Bytes)
  /-- the error of a refused request, passed on as it is -/
  | request (cause : Bytes)
  deriving DecidableEq

/-- `opPushSubscribe` -/
def opPushSubscribe : Bytes := bytes "push.Subscribe"

/-- `opPushSubscribeOrders` -/
def opPushSubscribeOrders : Bytes := bytes "push.SubscribeOrders"

/-- The loop of `copyAndValidateSecurities` from index `i` on; `none` is a nil
pointer. -/
def copySecurities : ℕ → List (Option Security) → Except PushError (List Security)
  | _, [] => .ok []
  | i, none :: _ =>
    .error (.invalidParam opPushSubscribe (bytes "security[" ++ itoa i ++ bytes "] must not be nil"))
  | i, some s :: rest =>
    if s.code = [] then
      .error (.invalidParam opPushSubscribe
        (bytes "security[" ++ itoa i ++ bytes "] must carry a code"))
    else (copySecurities (i + 1) rest).map (s :: ·)

/-- `copyAndValidateSecurities` -/
def copyAndValidateSecurities (topic : TopicID) (securities : List (Option Security)) :
    Except PushError (List Security) :=
  if securities = [] then
    .error (.invalidParam opPushSubscribe
      (bytes "topicId " ++ itoa topic ++ bytes " needs at least one security"))
  else copySecurities 0 securities

theorem copySecurities_ok {i : ℕ} {sec : List (Option Security)} {out : List Security}
    (h : copySecurities i sec = .ok out) : sec = out.map some ∧ ∀ s ∈ out, s.code ≠ [] := by
  induction sec generalizing i out with
  | nil =>
    cases h
    exact ⟨rfl, nofun⟩
  | cons s sec ih =>
    cases s with
    | none => cases h
    | some s =>
      rw [copySecurities] at h
      split at h
      · cases h
      · rename_i hcode
        cases hrest : copySecurities (i + 1) sec with
        | error e =>
          rw [hrest] at h
          cases h
        | ok rest =>
          rw [hrest] at h
          cases h
          obtain ⟨rfl, hcodes⟩ := ih hrest
          exact ⟨rfl, fun t ht => (List.mem_cons.mp ht).elim (fun heq => heq ▸ hcode) (hcodes t)⟩

/-- What passes the validation is copied as it is, names at least one instrument, and
every one of them by a code. -/
theorem copyAndValidateSecurities_ok {topic : TopicID} {sec : List (Option Security)}
    {out : List Security} (h : copyAndValidateSecurities topic sec = .ok out) :
    sec = out.map some ∧ out ≠ [] ∧ ∀ s ∈ out, s.code ≠ [] := by
  rw [copyAndValidateSecurities] at h
  split at h
  · cases h
  · rename_i hne
    obtain ⟨rfl, hcodes⟩ := copySecurities_ok h
    exact ⟨rfl, fun hnil => hne (hnil ▸ rfl), hcodes⟩

/-! ## Routing keys -/

/-- `marketSuffixes` -/
def marketSuffixes : List Bytes := [".HK", ".US", ".SZ", ".SH"].map bytes

/-- The loop of `normaliseRoutingKey`: the first suffix that leaves a nonempty rest
is stripped. -/
def stripMarketSuffix (u : Bytes) : List Bytes → Bytes
  | [] => u
  | suffix :: rest =>
    if suffix.length < u.length && suffix.isSuffixOf u then trimSuffix u suffix
    else stripMarketSuffix u rest

variable {s₁ s₂ : List Security}

section

variable [UnicodeTables]

/-- `normaliseRoutingKey` -/
def normaliseRoutingKey (code : Bytes) : Bytes :=
  stripMarketSuffix (toUpper (trimSpace code)) marketSuffixes

/-- The routing keys of a list of codes; an empty code has none. -/
def routingKeys (codes : List Bytes) : List Bytes :=
  distinct ((codes.filter (· ≠ [])).map normaliseRoutingKey)

/-- `securityKeys` -/
def securityKeys (securities : List Security) : List Bytes := routingKeys (securities.map (·.code))

/-- `updateRoutingKeys` -/
def updateRoutingKeys (u : PushUpdate) : List Bytes := routingKeys [u.id, u.securityCode]

theorem mem_routingKeys {codes : List Bytes} {k : Bytes} :
    k ∈ routingKeys codes ↔ ∃ code ∈ codes, code ≠ [] ∧ normaliseRoutingKey code = k := by
  simp [routingKeys, and_assoc]

theorem nodup_securityKeys (securities : List Security) : (securityKeys securities).Nodup :=
  nodup_distinct _

/-- The routing keys do not depend on the order of the instruments. -/
theorem mem_securityKeys_perm (h : s₁.Perm s₂) {k : Bytes} :
    k ∈ securityKeys s₁ ↔ k ∈ securityKeys s₂ := by
  rw [securityKeys, securityKeys, mem_routingKeys, mem_routingKeys]
  simp only [(h.map (·.code)).mem_iff]

end

/-! ## Canonical keys -/

/-- The text of one instrument in a canonical key. -/
def securityPart (s : Security) : Bytes := s.code ++ [0] ++ itoa s.dataType

/-- `canonicalPushKey` -/
def canonicalPushKey (topic : TopicID) (securities : List Security) : Bytes :=
  itoa topic ++ [0] ++ join (sortStrings (securities.map securityPart)) [1]

theorem not_mem_itoa {c : UInt8} (h : c < 45) (n : ℤ) : c ∉ itoa n := fun hmem => by
  have := mem_itoa hmem
  grind

variable {t₁ t₂ : TopicID}

/-- A canonical key is cut behind its topic. -/
theorem canonicalPushKey_cut (h : canonicalPushKey t₁ s₁ = canonicalPushKey t₂ s₂) : t₁ = t₂ ∧
      join (sortStrings (s₁.map securityPart)) [1] =
        join (sortStrings (s₂.map securityPart)) [1] := by
  have hcut : itoa t₁ ++ 0 :: join (sortStrings (s₁.map securityPart)) [1] =
      itoa t₂ ++ 0 :: join (sortStrings (s₂.map securityPart)) [1] := by
    simpa [canonicalPushKey] using h
  obtain ⟨ht, hjoin⟩ := cut_inj (not_mem_itoa (by decide) _) (not_mem_itoa (by decide) _) hcut
  exact ⟨itoa_injective ht, hjoin⟩

/-- The code holds neither of the bytes that separate the parts of a canonical key. -/
def PlainCode (code : Bytes) : Prop := (0 : UInt8) ∉ code ∧ (1 : UInt8) ∉ code

instance (code : Bytes) : Decidable (PlainCode code) := inferInstanceAs (Decidable (_ ∧ _))

/-- The text of an instrument is cut at its last separator. -/
theorem securityPart_injective : Function.Injective securityPart := by
  rintro ⟨d, c⟩ ⟨d', c'⟩ h
  have hcut : c ++ 0 :: itoa d = c' ++ 0 :: itoa d' := by simpa [securityPart] using h
  -- the number holds no separator, so the last one is the first of the reversed text
  have hlast : ∀ n : ℤ, (0 : UInt8) ∉ (itoa n).reverse := fun n hmem =>
    not_mem_itoa (by decide) n (List.mem_reverse.mp hmem)
  obtain ⟨hd, hc⟩ := cut_inj (hlast d) (hlast d') (by simpa using congrArg List.reverse hcut)
  rw [itoa_injective (List.reverse_injective hd), List.reverse_injective hc]

/-- The text of an instrument continues that of another one behind a separator only if its code
holds both separators and a digit. -/
theorem mem_code_of_securityPart {p q : Security} {m : Bytes}
    (h : securityPart q = securityPart p ++ 1 :: m) :
    (0 : UInt8) ∈ q.code ∧ (1 : UInt8) ∈ q.code ∧ ∃ b ∈ q.code, 48 ≤ b ∧ b ≤ 57 := by
  have hcut : q.code ++ 0 :: itoa q.dataType = securityPart p ++ 1 :: m := by
    simpa [securityPart] using h
  rcases List.append_eq_append_iff.mp hcut with ⟨a, -, hrest⟩ | ⟨a, hcode, hrest⟩
  · -- the separator would stand in the number of the instrument
    have hmem : (1 : UInt8) ∈ 0 :: itoa q.dataType := by simp [hrest]
    rcases List.mem_cons.mp hmem with h | h
    · cases h
    · exact absurd h (not_mem_itoa (by decide) _)
  · cases a with
    | nil => cases hrest
    | cons b a =>
      cases hrest
      obtain ⟨b, hb, hdigit⟩ := exists_digit_mem_itoa p.dataType
      rw [hcode]
      exact ⟨by simp [securityPart], by simp, b, by simp [securityPart, hb], hdigit⟩

/-- Equal keys come from one topic and from one list of instruments, up to order, if no
instrument of either list continues another one. -/
theorem canonicalPushKey_unique {inst : Security → Prop}
    (hinst : ∀ p q m, inst p → inst q → securityPart q ≠ securityPart p ++ 1 :: m)
    (h₁ : ∀ s ∈ s₁, inst s) (h₂ : ∀ s ∈ s₂, inst s)
    (h : canonicalPushKey t₁ s₁ = canonicalPushKey t₂ s₂) : t₁ = t₂ ∧ s₁.Perm s₂ := by
  obtain ⟨ht, hjoin⟩ := canonicalPushKey_cut h
  have hparts : ∀ l : List Security, (∀ s ∈ l, inst s) →
      ∀ p ∈ sortStrings (l.map securityPart), ∃ s, inst s ∧ securityPart s = p := by
    intro l hl p hp
    rw [sortStrings, List.mem_insertionSort] at hp
    obtain ⟨s, hs, rfl⟩ := List.mem_map.mp hp
    exact ⟨s, hl s hs, rfl⟩
  have hsorted : sortStrings (s₁.map securityPart) = sortStrings (s₂.map securityPart) := by
    refine join_unique ?_ ?_ (hparts s₁ h₁) (hparts s₂ h₂) hjoin
    · rintro _ ⟨s, -, rfl⟩
      simp [securityPart]
    · rintro _ _ m ⟨p, hp, rfl⟩ ⟨q, hq, rfl⟩
      exact hinst p q m hp hq
  have hperm : (sortStrings (s₁.map securityPart)).Perm (s₂.map securityPart) :=
    hsorted ▸ List.perm_insertionSort _ _
  refine ⟨ht, (List.map_perm_map_iff securityPart_injective).mp ?_⟩
  exact (List.perm_insertionSort _ _).symm.trans hperm

/-- **The canonical key is faithful on plain codes**: equal keys come from one topic
and from one list of instruments, up to order. -/
theorem canonicalPushKey_inj (h₁ : ∀ s ∈ s₁, PlainCode s.code) (h₂ : ∀ s ∈ s₂, PlainCode s.code)
    (h : canonicalPushKey t₁ s₁ = canonicalPushKey t₂ s₂) : t₁ = t₂ ∧ s₁.Perm s₂ :=
  canonicalPushKey_unique (fun _ _ _ _ hq heq => hq.1 (mem_code_of_securityPart heq).1) h₁ h₂ h

/-- Instruments in another order have the same key. -/
theorem canonicalPushKey_perm (t : TopicID) (h : s₁.Perm s₂) :
    canonicalPushKey t s₁ = canonicalPushKey t s₂ := by
  have hsorted : sortStrings (s₁.map securityPart) = sortStrings (s₂.map securityPart) := by
    refine List.Perm.eq_of_pairwise' (List.pairwise_insertionSort _ _)
      (List.pairwise_insertionSort _ _) ?_
    exact ((List.perm_insertionSort _ _).trans (h.map securityPart)).trans
      (List.perm_insertionSort _ _).symm
  rw [canonicalPushKey, canonicalPushKey, hsorted]

/-- The canonical key is faithful for codes that are made of some bytes only: two lists that pass
the validation have the same key exactly when they are for the same topic and name the same
instruments, as often and in any order. -/
def FaithfulOver (alphabet : Set UInt8) : Prop :=
  ∀ (t₁ t₂ : TopicID) (in₁ in₂ : List (Option Security)) (s₁ s₂ : List Security),
    copyAndValidateSecurities t₁ in₁ = .ok s₁ → copyAndValidateSecurities t₂ in₂ = .ok s₂ →
    (∀ s ∈ s₁, ∀ b ∈ s.code, b ∈ alphabet) → (∀ s ∈ s₂, ∀ b ∈ s.code, b ∈ alphabet) →
    (canonicalPushKey t₁ s₁ = canonicalPushKey t₂ s₂ ↔ t₁ = t₂ ∧ s₁.Perm s₂)

/-- An instrument whose code is a digit, and whose data type is that digit. -/
def digitInstrument (b : UInt8) : Security := ⟨(b.toNat - 48 : ℕ), [b]⟩

/-- The instrument whose text is that of two of these with the separator between them. -/
def mergedInstrument (b : UInt8) : Security := ⟨(b.toNat - 48 : ℕ), [b, 0, b, 1, b]⟩

theorem canonicalPushKey_merged {b : UInt8} (hlow : 48 ≤ b) (hhigh : b ≤ 57) :
    canonicalPushKey 0 [digitInstrument b, digitInstrument b] =
      canonicalPushKey 0 [mergedInstrument b] := by
  have hdigit : itoa (b.toNat - 48 : ℕ) = [b] := itoa_digit hlow hhigh
  simp only [canonicalPushKey, sortStrings, List.map_cons, List.map_nil, securityPart,
    digitInstrument, mergedInstrument, hdigit]
  simp [join, List.intercalate]

/-- **When the canonical key is faithful.** It is so unless a code can hold both separators and a
digit. -/
theorem canonicalPushKey_faithful_iff (alphabet : Set UInt8) : FaithfulOver alphabet ↔
    ¬((0 : UInt8) ∈ alphabet ∧ (1 : UInt8) ∈ alphabet ∧ ∃ b ∈ alphabet, 48 ≤ b ∧ b ≤ 57) := by
  constructor
  · rintro h ⟨hzero, hone, b, hb, hlow, hhigh⟩
    have hpair : ∀ s ∈ [digitInstrument b, digitInstrument b], ∀ c ∈ s.code, c ∈ alphabet := by
      simp [digitInstrument, hb]
    have hmerged : ∀ s ∈ [mergedInstrument b], ∀ c ∈ s.code, c ∈ alphabet := by
      simp [mergedInstrument, hb, hzero, hone]
    have hkey := canonicalPushKey_merged hlow hhigh
    have hperm := ((h 0 0 [some (digitInstrument b), some (digitInstrument b)]
      [some (mergedInstrument b)] _ _ rfl rfl hpair hmerged).mp hkey).2
    exact absurd hperm.length_eq (by simp)
  · rintro hsafe t₁ t₂ in₁ in₂ s₁ s₂ - - h₁ h₂
    have hinst : ∀ (p q : Security) (m : Bytes), (∀ b ∈ p.code, b ∈ alphabet) →
        (∀ b ∈ q.code, b ∈ alphabet) → securityPart q ≠ securityPart p ++ 1 :: m := by
      intro p q m _ hq heq
      obtain ⟨hzero, hone, b, hb, hdigit⟩ := mem_code_of_securityPart heq
      exact hsafe ⟨hq 0 hzero, hq 1 hone, b, hq b hb, hdigit⟩
    refine ⟨canonicalPushKey_unique hinst h₁ h₂, ?_⟩
    rintro ⟨rfl, hperm⟩
    exact canonicalPushKey_perm t₁ hperm

/-- Two subscriptions that are coalesced into one: to `A` and `B`, and to a code that holds both. -/
theorem canonicalPushKey_coalesces :
    copyAndValidateSecurities topicTicker [some ⟨0, [65]⟩, some ⟨0, [66]⟩] =
      .ok [⟨0, [65]⟩, ⟨0, [66]⟩] ∧
    copyAndValidateSecurities topicTicker [some ⟨0, [65, 0, 48, 1, 66]⟩] =
      .ok [⟨0, [65, 0, 48, 1, 66]⟩] ∧
    canonicalPushKey topicTicker [⟨0, [65]⟩, ⟨0, [66]⟩] =
      canonicalPushKey topicTicker [⟨0, [65, 0, 48, 1, 66]⟩] ∧
    ¬[(⟨0, [65]⟩ : Security), ⟨0, [66]⟩].Perm [⟨0, [65, 0, 48, 1, 66]⟩] := by
  refine ⟨rfl, rfl, by decide +kernel, fun hperm => ?_⟩
  exact absurd hperm.length_eq (by decide)

end HstongApi
