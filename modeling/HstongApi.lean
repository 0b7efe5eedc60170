import HstongApi.QuotedSecrets
import HstongApi.LogRedaction
import HstongApi.FailureText
import HstongApi.Client
import HstongApi.Panics
import HstongApi.RetryDelay
import HstongApi.RateLimiter
import HstongApi.RateWaits
import HstongApi.AuthFlights
import HstongApi.SessionAgreement
import HstongApi.KeepAlive
import HstongApi.TradePassword
import HstongApi.MarketReads
import HstongApi.PriceGrid
import HstongApi.FuturesOrders
import HstongApi.AlgoOrders
import HstongApi.TradePages
import HstongApi.FundJournal
import HstongApi.PushConnections
import HstongApi.PushBackoff
import HstongApi.PushErrors
import HstongApi.PushNormalizers
import HstongApi.PushRouting
import HstongApi.PushCoverage
import HstongApi.PushNotice
import HstongApi.PushLocks
import HstongApi.PushLifetimes
import HstongApi.PushAgreement
import HstongApi.PushOrderPush
import HstongApi.PushDeadlock
import HstongApi.PushDisorder
import HstongApi.TradeLoss
import HstongApi.StreamConnect
import HstongApi.StreamClosing
import HstongApi.StreamOrders
