import Pingola.Lib.ByteText
import Pingola.Lib.Base64Url
import Pingola.Lib.CaseFold
import Pingola.Lib.Checked
import Pingola.Lib.LruCache
import Pingola.Lib.MultiMap
import Pingola.Lib.PercentEncoding
import Pingola.Lib.Memo
import Pingola.Lib.Replace
import Pingola.Lib.Runs
import Pingola.Lib.SortedMap
import Pingola.Lib.Table
import Pingola.Lib.UnixPath
import Pingola.Cache.Key
import Pingola.Cache.Navidrome
import Pingola.Cache.NavidromeKey
import Pingola.Cache.Dns
import Pingola.Cache.DnsMessage
import Pingola.Cache.DnsKey
import Pingola.Cache.DnsAging
import Pingola.Cache.DnsChecked
import Pingola.Cache.Core
import Pingola.Cache.DnsLifetime
import Pingola.Cache.DohQuery
import Pingola.Cache.Sequential
import Pingola.Cache.Interleaving
import Pingola.Cache.Expiry
import Pingola.Cache.Coalesce
import Pingola.Cache.Wakeup
import Pingola.Http.Header
import Pingola.Http3.Decode
import Pingola.Http3.WellFormed
import Pingola.Http3.DecodePaths
import Pingola.Http3.EarlyData
import Pingola.Http3.RequestBody
import Pingola.Config
import Pingola.Routing
import Pingola.Cache.Integration
import Pingola.Gateway.Plans
import Pingola.Gateway.RequestFilter
import Pingola.Gateway.Exchange
import Pingola.Gateway.Provenance
import Pingola.Gateway.Transparency
import Pingola.Gateway.Representation
import Pingola.Gateway.WaitBudget
import Pingola.Gateway.Invalidation
import Pingola.Gateway.DohMethods
import Pingola.Gateway.HostLookup
import Pingola.Gateway.ClientAddress
import Pingola.Gateway.ContentEncoding
import Pingola.Gateway.ContentLength
import Pingola.Gateway.HopHeaders
import Pingola.Gateway.RouteSpelling
import Pingola.Limits.RateLimiter
import Pingola.Limits.IdleBuckets
import Pingola.Limits.ActiveRequests
import Pingola.UpstreamH3.Worker
import Pingola.UpstreamH3.Coherence
import Pingola.Limits.BucketCapacity
import Pingola.UpstreamH3.Delivery
import Pingola.UpstreamH3.Tracking
import Pingola.UpstreamH3.Integrity
import Pingola.Http3.Wire
import Pingola.Http3.Framing
import Pingola.UpstreamH3.Backoff
import Pingola.UpstreamH3.Preferred
import Pingola.UpstreamH3.BodyStream
import Pingola.UpstreamH3.Readable
import Pingola.UpstreamH3.BodyIntegrity
import Pingola.UpstreamH3.Backpressure
import Pingola.Gateway.Retries
import Pingola.Gateway.PlanCoverage
import Pingola.StaticFiles.AssetCache
import Pingola.StaticFiles.PathCache
import Pingola.Lib.Semaphore
import Pingola.Http.EntityTag
import Pingola.StaticFiles.Serve
import Pingola.StaticFiles.Slots
import Pingola.StaticFiles.Representation
import Pingola.Gateway.GrpcWeb
import Pingola.Gateway.UpstreamRequest
import Pingola.Gateway.Compression
import Pingola.Gateway.ResponseFilter
import Pingola.Gateway.DohAnswers
