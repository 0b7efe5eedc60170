import HstongApi.Bytes

/-!
# The routes of the Gateway

A route is a canonical path. The Gateway takes two aliases of every route, with one of two
suffixes, and `normalizePath` maps an alias back to its route. No route ends in such a suffix, so
a path is an alias of at most one route.
-/

namespace HstongApi.Routes

/-- `canonicalRoutes` -/
def canonicalRoutes : List Bytes :=
  [bytes "/hq/BasicQot",
    bytes "/hq/OrderBook",
    bytes "/hq/KL",
    bytes "/hq/TimeShare",
    bytes "/hq/Ticker",
    bytes "/hq/Broker",
    bytes "/hq/UsOptionChainCode",
    bytes "/hq/UsOptionChainExpireDate",
    bytes "/hq/UsOverNightTradeCodes",
    bytes "/hq/Subscribe",
    bytes "/hq/Unsubscribe",
    bytes "/trade/TradeLogin",
    bytes "/trade/TradeLogout",
    bytes "/trade/TradeQueryMarginFundInfo",
    bytes "/trade/TradeQueryHoldsList",
    bytes "/trade/TradeQueryRealFundJourList",
    bytes "/trade/TradeQueryHistoryFundJourList",
    bytes "/hs/rate/queryList",
    bytes "/trade/TradeEntrust",
    bytes "/trade/TradeCancelEntrust",
    bytes "/trade/TradeBatchCancelEntrust",
    bytes "/trade/TradeChangeEntrust",
    bytes "/trade/TradeQueryMaxAvailableAsset",
    bytes "/trade/TradeQueryRealEntrustList",
    bytes "/trade/TradeQueryRealDeliverList",
    bytes "/trade/TradeQueryRealCondOrderList",
    bytes "/trade/TradeQueryHistoryEntrustList",
    bytes "/trade/TradeQueryHistoryDeliverList",
    bytes "/trade/TradeQueryHistoryCondOrderList",
    bytes "/trade/TradeQueryMarginFullInfo",
    bytes "/trade/TradeQueryBeforeAndAfterSupport",
    bytes "/trade/TradeSubscribe",
    bytes "/trade/TradeUnsubscribe",
    bytes "/trade/AlgoAddOrder",
    bytes "/trade/AlgoCancelOrder",
    bytes "/trade/AlgoCancelEntrust",
    bytes "/trade/AlgoChangeOrder",
    bytes "/trade/AlgoActionOrder",
    bytes "/trade/AlgoQueryOrderList",
    bytes "/trade/AlgoQueryEntrustIdList",
    bytes "/trade/FuturesQueryProductInfo",
    bytes "/trade/FuturesQueryMaxBuySellAmount",
    bytes "/trade/FuturesQueryFundInfo",
    bytes "/trade/FuturesQueryHoldsList",
    bytes "/trade/FuturesEntrust",
    bytes "/trade/FuturesCancelEntrust",
    bytes "/trade/FuturesModifyEntrust",
    bytes "/trade/FuturesQueryRealEntrustList",
    bytes "/trade/FuturesQueryHistoryEntrustList",
    bytes "/trade/FuturesQueryRealDeliverList",
    bytes "/trade/FuturesQueryHistoryDeliverList"]

/-- `aliasSuffixMsgType` -/
def aliasSuffixMsgType : Bytes := bytes "RequestMsgType"

/-- `aliasSuffixRequest` -/
def aliasSuffixRequest : Bytes := bytes "Request"

/-- `NormalizePath` -/
def normalizePath (p : Bytes) : Bytes :=
  if p ∈ canonicalRoutes then p
  else
    let stripped := trimSuffix p aliasSuffixMsgType
    if stripped ≠ p ∧ stripped ∈ canonicalRoutes then stripped
    else
      let stripped := trimSuffix p aliasSuffixRequest
      if stripped ≠ p ∧ stripped ∈ canonicalRoutes then stripped else p

/-! ## Aliases -/

theorem trimSuffix_of_not_suffix {p suffix : Bytes} (h : ¬suffix <:+ p) : trimSuffix p suffix = p := by
  rw [trimSuffix, if_neg (mt List.isSuffixOf_iff_suffix.mp h)]

theorem suffix_of_trimSuffix_ne {p suffix : Bytes} (h : trimSuffix p suffix ≠ p) : suffix <:+ p := by
  by_contra hsuffix
  exact h (trimSuffix_of_not_suffix hsuffix)

/-- No path has both of the suffixes. -/
theorem not_suffix_both {p : Bytes} (hmsgType : aliasSuffixMsgType <:+ p)
    (hrequest : aliasSuffixRequest <:+ p) : False := by
  have hle : aliasSuffixRequest.length ≤ aliasSuffixMsgType.length := by decide +kernel
  have hnot : ¬aliasSuffixRequest <:+ aliasSuffixMsgType := by decide +kernel
  exact hnot (List.suffix_of_suffix_length_le hrequest hmsgType hle)

/-- No route ends in one of the suffixes. -/
theorem not_suffix_of_canonical {p : Bytes} (hp : p ∈ canonicalRoutes) :
    ¬aliasSuffixMsgType <:+ p ∧ ¬aliasSuffixRequest <:+ p := by
  have hall : ∀ q ∈ canonicalRoutes, ¬aliasSuffixMsgType <:+ q ∧ ¬aliasSuffixRequest <:+ q := by
    decide +kernel
  exact hall p hp

end HstongApi.Routes
