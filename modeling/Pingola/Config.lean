import Pingola.Lib.ByteText
import Pingola.Lib.SortedMap
import Mathlib.Data.Rat.Defs

/-!
# Configuration

The configuration of `config.rs`, its defaults and `validate`. A number is a natural number, a
float is a rational or `none` where it is not finite, a path is its bytes. Parsing a socket
address is left to the standard library, that is to an argument. Fields that only the listeners
read (deprecated addresses, early data, keep-alive pools, logging) are left out.
-/

namespace Pingola
open ByteText

/-- A double: `none` stands for the infinities and the values that are not numbers. -/
abbrev F64 := Option ℚ

/-- `is_finite` and membership in a closed range. -/
def F64.inRange (lo hi : ℚ) : F64 → Bool
  | some x => decide (lo ≤ x ∧ x ≤ hi)
  | none => false

inductive IpAddr where
  | v4 (addr : BitVec 32)
  | v6 (addr : BitVec 128)
  deriving DecidableEq

structure SocketAddr where
  ip : IpAddr
  port : ℕ
  deriving DecidableEq

inductive UpstreamProtocol where
  | auto
  | http1
  | http2
  | grpc
  | http3
  | http3Preferred
  deriving DecidableEq

def UpstreamProtocol.usesHttp3 : UpstreamProtocol → Bool
  | .http3 | .http3Preferred => true
  | _ => false

inductive HandlerKind where
  | static
  | navidromeMain
  | navidromeCdn
  | vaultwarden
  | couchdb
  | adguardDns
  | adguardKorea
  deriving DecidableEq

def HandlerKind.isStatic (h : HandlerKind) : Bool := h == .static

/-- The text of the derived `Debug`. -/
def HandlerKind.debug : HandlerKind → Bytes
  | .static => ascii "Static"
  | .navidromeMain => ascii "NavidromeMain"
  | .navidromeCdn => ascii "NavidromeCdn"
  | .vaultwarden => ascii "Vaultwarden"
  | .couchdb => ascii "Couchdb"
  | .adguardDns => ascii "AdguardDns"
  | .adguardKorea => ascii "AdguardKorea"

structure DnsCacheConfig where
  enabled : Bool := true
  maxTtlSeconds : ℕ := 300
  negativeTtlSeconds : ℕ := 60

structure NavidromeCacheConfig where
  enabled : Bool := true
  defaultTtlSeconds : ℕ := 60
  maxTtlSeconds : ℕ := 300

structure CacheConfig where
  enabled : Bool := true
  memoryBytes : ℕ := 32 * 1024 * 1024
  dns : DnsCacheConfig := {}
  navidrome : NavidromeCacheConfig := {}

structure ServerConfig where
  httpListen : List Bytes
  httpsListen : List Bytes
  http3Listen : List Bytes := []
  http3MaxIdleTimeoutSeconds : ℕ := 300
  http3MaxRequestsPerConnection : ℕ := 128
  http3MaxConcurrentStreams : ℕ := 64
  http3HandshakeTimeoutSeconds : ℕ := 5
  http3ConnectionRatePerSecond : F64 := some 64
  http3ConnectionBurst : ℕ := 128
  http3MaxConnectionsPerIp : ℕ := 64
  certificate : Option Bytes := none
  privateKey : Option Bytes := none
  threads : ℕ := 1
  downstreamKeepaliveRequests : ℕ := 500
  maxRetries : ℕ := 2
  staticCacheBytes : ℕ := 16 * 1024 * 1024
  cache : CacheConfig := {}
  healthSocket : Bytes := ascii "/tmp/pingora/health.sock"
  legacyPingolaHealth : Bool := true
  healthDetails : Bool := false
  globalActiveRequests : ℕ := 0
  staticActiveRequestsPerClient : ℕ := 16
  http2MaxConcurrentStreams : ℕ := 32
  downstreamMaxConnections : ℕ := 512
  downstreamRequestHeaderTimeoutSeconds : ℕ := 15
  http2StreamWindowBytes : ℕ := 1024 * 1024
  http2ConnectionWindowBytes : ℕ := 4 * 1024 * 1024
  quicInitialMaxData : ℕ := 4 * 1024 * 1024
  quicStreamWindow : ℕ := 1024 * 1024
  quicMaxConnectionWindow : ℕ := 4 * 1024 * 1024
  quicMaxStreamWindow : ℕ := 2 * 1024 * 1024
  quicSendCapacityFactor : F64 := some 2
  securityHeaders : Bool := true

structure UpstreamConfig where
  address : Bytes
  tls : Bool := false
  protocol : UpstreamProtocol := .auto
  http2MaxConcurrentStreams : ℕ := 128
  http2StreamWindowBytes : ℕ := 2 * 1024 * 1024
  http2ConnectionWindowBytes : ℕ := 8 * 1024 * 1024
  http2PingIntervalSeconds : ℕ := 30
  http3MaxConcurrentStreams : ℕ := 128
  http3EarlyData : Bool := false
  sni : Option Bytes := none
  verifyCertificate : Bool := true
  connectTimeoutSeconds : ℕ := 5
  readTimeoutSeconds : Option ℕ := none
  writeTimeoutSeconds : Option ℕ := none
  idleTimeoutSeconds : ℕ := 15
  http3Warmup : Bool := false
  http3WarmupPath : Bytes := ascii "/rest/ping"
  http3PoolConnections : ℕ := 1
  warmupOnStart : Bool := false
  warmupPath : Bytes := ascii "/"

structure HostConfig where
  domains : List Bytes
  handler : HandlerKind
  upstream : Option Bytes := none
  staticRoot : Option Bytes := none
  redirectHttp : Bool := false
  maxBodyBytes : ℕ := 100 * 1024 * 1024

structure RouteLimitConfig where
  ratePerSecond : Option F64 := none
  burst : Option ℕ := none
  activeRequests : Option ℕ := none

structure Config where
  server : ServerConfig
  upstreams : SortedMap Bytes UpstreamConfig
  hosts : SortedMap Bytes HostConfig
  routeLimits : SortedMap Bytes RouteLimitConfig := .empty

/-- `normalized_host`: the host of an authority, in lower case. -/
def normalizedHost (authority : Bytes) : Bytes :=
  let authority := (trim authority).rdropWhile (· == byte '.')
  let host :=
    match stripPrefix [byte '['] authority with
    | some stripped => ((splitOnce (byte ']') stripped).map Prod.fst).getD authority
    | none =>
      match rsplitOnce (byte ':') authority with
      | some (host, port) => if (parseUnsigned 65536 port).isSome then host else authority
      | none => authority
  toAsciiLowercase host

/-! ### Validation -/

/-- `bail!` under a condition. -/
def bailIf (c : Bool) (message : Bytes) : Except Bytes Unit := if c then .error message else .ok ()

def natText (n : ℕ) : Bytes := ascii (toString n)

/-- A field outside a closed range, with the message that names the range. -/
def checkBetween (field : Bytes) (lo hi value : ℕ) : Except Bytes Unit :=
  bailIf (!decide (lo ≤ value ∧ value ≤ hi))
    (field ++ ascii " must be between " ++ natText lo ++ ascii " and " ++ natText hi)

def checkPositive (field : Bytes) (value : ℕ) : Except Bytes Unit :=
  bailIf (value == 0) (field ++ ascii " must be greater than zero")

def checkAtMost (field : Bytes) (hi value : ℕ) : Except Bytes Unit :=
  bailIf (decide (hi < value)) (field ++ ascii " must not exceed " ++ natText hi)

/-- The checks of single fields of `server`, in the order of the source. -/
def validateServer (server : ServerConfig) : Except Bytes Unit := do
  bailIf (server.httpListen.isEmpty && server.httpsListen.isEmpty && server.http3Listen.isEmpty)
    (ascii "at least one HTTP, HTTPS, or HTTP/3 listen address is required")
  checkPositive (ascii "server.threads") server.threads
  checkAtMost (ascii "server.threads") 64 server.threads
  checkAtMost (ascii "server.max_retries") 10 server.maxRetries
  checkBetween (ascii "server.downstream_keepalive_requests") 1 1000000 server.downstreamKeepaliveRequests
  checkBetween (ascii "server.http2_max_concurrent_streams") 1 1024 server.http2MaxConcurrentStreams
  checkBetween (ascii "server.http2_stream_window_bytes") 65536 16777216 server.http2StreamWindowBytes
  checkBetween (ascii "server.http2_connection_window_bytes") 262144 67108864
    server.http2ConnectionWindowBytes
  checkBetween (ascii "server.quic_initial_max_data") 262144 67108864 server.quicInitialMaxData
  checkBetween (ascii "server.quic_stream_window") 65536 16777216 server.quicStreamWindow
  checkBetween (ascii "server.quic_max_connection_window") 1048576 67108864 server.quicMaxConnectionWindow
  checkBetween (ascii "server.quic_max_stream_window") 262144 16777216 server.quicMaxStreamWindow
  bailIf (!server.quicSendCapacityFactor.inRange 1 8)
    (ascii "server.quic_send_capacity_factor must be finite and between 1 and 8")
  checkBetween (ascii "server.http3_max_concurrent_streams") 1 1024 server.http3MaxConcurrentStreams
  checkBetween (ascii "server.http3_max_requests_per_connection") 1 1000000
    server.http3MaxRequestsPerConnection
  checkBetween (ascii "server.http3_max_idle_timeout_seconds") 1 600 server.http3MaxIdleTimeoutSeconds
  checkBetween (ascii "server.http3_handshake_timeout_seconds") 1 30 server.http3HandshakeTimeoutSeconds
  -- the lower bound is the double nearest to 0.1
  bailIf (!server.http3ConnectionRatePerSecond.inRange (3602879701896397 / 36028797018963968) 100000)
    (ascii "server.http3_connection_rate_per_second must be finite and between 0.1 and 100000")
  checkAtMost (ascii "server.http3_connection_burst") 100000 server.http3ConnectionBurst
  checkBetween (ascii "server.http3_max_connections_per_ip") 1 1000000 server.http3MaxConnectionsPerIp
  checkBetween (ascii "server.downstream_max_connections") 1 1000000 server.downstreamMaxConnections
  checkBetween (ascii "server.static_active_requests_per_client") 1 1000000
    server.staticActiveRequestsPerClient
  checkBetween (ascii "server.downstream_request_header_timeout_seconds") 1 300
    server.downstreamRequestHeaderTimeoutSeconds
  checkPositive (ascii "server.static_cache_bytes") server.staticCacheBytes
  checkPositive (ascii "server.cache.memory_bytes") server.cache.memoryBytes
  checkPositive (ascii "server.cache.dns.max_ttl_seconds") server.cache.dns.maxTtlSeconds
  checkPositive (ascii "server.cache.dns.negative_ttl_seconds") server.cache.dns.negativeTtlSeconds
  checkPositive (ascii "server.cache.navidrome.default_ttl_seconds") server.cache.navidrome.defaultTtlSeconds
  checkPositive (ascii "server.cache.navidrome.max_ttl_seconds") server.cache.navidrome.maxTtlSeconds
  bailIf (server.healthSocket.isEmpty || server.healthSocket.head? != some (byte '/'))
    (ascii "server.health_socket must be an absolute path")

section
variable (parseSocketAddr : Bytes → Option SocketAddr)

def checkListeners (kind : Bytes) (addresses : List Bytes) : Except Bytes Unit :=
  addresses.forM fun address => bailIf (parseSocketAddr address).isNone
    (ascii "server " ++ kind ++ ascii " listener has invalid socket address " ++ address)

/-- The error of the standard library's parser. -/
def parsedSocketAddr (address : Bytes) : Except Bytes SocketAddr :=
  match parseSocketAddr address with
  | some addr => .ok addr
  | none => .error (ascii "invalid socket address syntax")

/-- The loop over the ports of the HTTP/3 listeners. -/
def checkHttp3Ports : Option ℕ → List Bytes → Except Bytes Unit
  | _, [] => .ok ()
  | publicPort, address :: rest => do
    let address ← parsedSocketAddr parseSocketAddr address
    bailIf (address.port == 0) (ascii "server HTTP/3 listeners cannot use port zero")
    match publicPort with
    | some port =>
      bailIf (port != address.port) (ascii "all server HTTP/3 listeners must use the same UDP port")
      checkHttp3Ports (some port) rest
    | none => checkHttp3Ports (some address.port) rest

def checkHttp3Listeners (addresses : List Bytes) : Except Bytes Unit := do
  checkHttp3Ports parseSocketAddr none addresses
  let parsed ← addresses.mapM (parsedSocketAddr parseSocketAddr)
  let hasIpv4Wildcard := parsed.any fun address => address.ip == .v4 0
  let hasIpv6Wildcard := parsed.any fun address => address.ip == .v6 0
  bailIf (hasIpv6Wildcard && !hasIpv4Wildcard)
    (ascii "server.http3_listen uses [::] without 0.0.0.0; with net.ipv6.bindv6only=1 IPv4 QUIC will not bind")

def validateListeners (server : ServerConfig) : Except Bytes Unit := do
  checkListeners parseSocketAddr (ascii "HTTP") server.httpListen
  checkListeners parseSocketAddr (ascii "HTTPS") server.httpsListen
  checkListeners parseSocketAddr (ascii "HTTP/3 UDP") server.http3Listen
  bailIf ((!server.httpsListen.isEmpty || !server.http3Listen.isEmpty) &&
      ((server.certificate.getD []).isEmpty || (server.privateKey.getD []).isEmpty))
    (ascii "certificate and private_key are required for HTTPS or HTTP/3 listeners")
  if server.http3Listen.isEmpty then .ok () else checkHttp3Listeners parseSocketAddr server.http3Listen

end

/-- The loop over the domains of a host; `seen` maps the domains so far to their hosts. -/
def checkDomains (name : Bytes) : List (Bytes × Bytes) → List Bytes → Except Bytes (List (Bytes × Bytes))
  | seen, [] => .ok seen
  | seen, domain :: domains => do
    let normalized := normalizedHost domain
    bailIf (normalized.isEmpty || normalized != toAsciiLowercase domain)
      (ascii "host " ++ name ++ ascii " contains invalid canonical domain " ++ domain)
    match seen.find? fun p => p.1 = normalized with
    | some previous =>
      .error (ascii "domain " ++ normalized ++ ascii " is declared by both " ++ previous.2 ++
        ascii " and " ++ name)
    | none => checkDomains name ((normalized, name) :: seen) domains

def requiredDohUpstream : HandlerKind → Option Bytes
  | .adguardDns => some (ascii "adguard_dns_doh")
  | .adguardKorea => some (ascii "adguard_korea_doh")
  | _ => none

/-- The checks of one host apart from its domains. -/
def checkHost (upstreams : SortedMap Bytes UpstreamConfig) (name : Bytes) (host : HostConfig) :
    Except Bytes Unit := do
  bailIf host.domains.isEmpty (ascii "host " ++ name ++ ascii " has no domains")
  bailIf (host.maxBodyBytes == 0)
    (ascii "host " ++ name ++ ascii " max_body_bytes must be greater than zero")
  if host.handler.isStatic then
    bailIf host.staticRoot.isNone (ascii "static host " ++ name ++ ascii " requires static_root")
    bailIf host.upstream.isSome (ascii "static host " ++ name ++ ascii " cannot define upstream")
  else
    match host.upstream with
    | none => .error (ascii "proxy host " ++ name ++ ascii " requires upstream")
    | some upstream =>
      bailIf (!upstreams.containsKey upstream)
        (ascii "host " ++ name ++ ascii " references missing upstream " ++ upstream)
  match requiredDohUpstream host.handler with
  | none => .ok ()
  | some required =>
    bailIf (!upstreams.containsKey required)
      (ascii "host " ++ name ++ ascii " handler " ++ host.handler.debug ++
        ascii " requires DoH upstream " ++ required)

def validateHosts (upstreams : SortedMap Bytes UpstreamConfig) :
    List (Bytes × Bytes) → List (Bytes × HostConfig) → Except Bytes Unit
  | _, [] => .ok ()
  | seen, (name, host) :: hosts => do
    checkHost upstreams name host
    let seen ← checkDomains name seen host.domains
    validateHosts upstreams seen hosts

def h2MaxWindowSize : ℕ := 2 ^ 31 - 1

def validateUpstream (name : Bytes) (upstream : UpstreamConfig) : Except Bytes Unit := do
  let field (text : String) : Bytes := ascii "upstream " ++ name ++ ascii text
  bailIf upstream.address.isEmpty (field " has an empty address")
  bailIf (upstream.tls && (upstream.sni.getD []).isEmpty)
    (ascii "TLS upstream " ++ name ++ ascii " requires sni")
  bailIf (upstream.connectTimeoutSeconds == 0 || upstream.idleTimeoutSeconds == 0)
    (field " timeout values must be greater than zero")
  bailIf (upstream.readTimeoutSeconds == some 0 || upstream.writeTimeoutSeconds == some 0)
    (field " explicit read/write timeouts must be greater than zero")
  checkBetween (field " http2_max_concurrent_streams") 1 1024 upstream.http2MaxConcurrentStreams
  bailIf (!decide (1 ≤ upstream.http2StreamWindowBytes ∧ upstream.http2StreamWindowBytes ≤ h2MaxWindowSize))
    (field " http2_stream_window_bytes must be between 1 and 2^31-1")
  bailIf (!decide (1 ≤ upstream.http2ConnectionWindowBytes ∧
      upstream.http2ConnectionWindowBytes ≤ h2MaxWindowSize))
    (field " http2_connection_window_bytes must be between 1 and 2^31-1")
  bailIf (decide (upstream.http2ConnectionWindowBytes < upstream.http2StreamWindowBytes))
    (field " http2_connection_window_bytes must be at least http2_stream_window_bytes")
  checkAtMost (field " http2_ping_interval_seconds") 3600 upstream.http2PingIntervalSeconds
  checkBetween (field " http3_max_concurrent_streams") 1 1024 upstream.http3MaxConcurrentStreams
  bailIf (upstream.protocol.usesHttp3 && !upstream.tls)
    (ascii "HTTP/3 upstream " ++ name ++ ascii " requires tls: true")
  bailIf (upstream.http3Warmup && upstream.http3WarmupPath.isEmpty)
    (field " http3_warmup_path must not be empty when http3_warmup is enabled")
  checkBetween (field " http3_pool_connections") 1 8 upstream.http3PoolConnections
  bailIf (upstream.warmupOnStart && upstream.warmupPath.isEmpty)
    (field " warmup_path must not be empty when warmup_on_start is enabled")

def routes : List Bytes :=
  ["navidrome_stream", "navidrome_cover", "navidrome_api", "navidrome_grpc", "vaultwarden_auth",
    "vaultwarden_hub", "vaultwarden", "couchdb", "doh", "adguard_ui"].map ascii

def validateRouteLimit (name : Bytes) (limit : RouteLimitConfig) : Except Bytes Unit := do
  let field (text : String) : Bytes := ascii "route_limits." ++ name ++ ascii text
  bailIf (!routes.contains name) (ascii "route_limits contains unknown route " ++ name)
  bailIf (limit.ratePerSecond.any fun rate => !rate.inRange 0 1000000)
    (field ".rate_per_second must be finite and between 0 and 1000000")
  bailIf (limit.burst.any fun burst => decide (1000000 < burst)) (field ".burst must not exceed 1000000")
  bailIf (limit.activeRequests.any fun active => decide (1000000 < active))
    (field ".active_requests must not exceed 1000000")

def validate (parseSocketAddr : Bytes → Option SocketAddr) (config : Config) : Except Bytes Unit := do
  validateServer config.server
  validateListeners parseSocketAddr config.server
  bailIf config.hosts.entries.isEmpty (ascii "at least one host is required")
  validateHosts config.upstreams [] config.hosts.entries
  config.upstreams.entries.forM fun p => validateUpstream p.1 p.2
  config.routeLimits.entries.forM fun p => validateRouteLimit p.1 p.2

/-- `RuntimeConfig`: a configuration that passed validation. -/
structure RuntimeConfig (parseSocketAddr : Bytes → Option SocketAddr) where
  config : Config
  valid : validate parseSocketAddr config = .ok ()

namespace RuntimeConfig

variable {parseSocketAddr : Bytes → Option SocketAddr} (runtime : RuntimeConfig parseSocketAddr)

def http3PublicPort : Option ℕ :=
  runtime.config.server.http3Listen.head?.bind fun address =>
    (parseSocketAddr address).map SocketAddr.port

def http3AltSvcHeader : Option Bytes :=
  runtime.http3PublicPort.map fun port => ascii "h3=\":" ++ natText port ++ ascii "\"; ma=86400"

end RuntimeConfig

end Pingola
