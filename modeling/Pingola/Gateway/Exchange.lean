import Pingola.Cache.Integration
import Pingola.Gateway.RequestFilter
import Pingola.Lib.Runs

/-!
# Exchanges through the shared cache

The hooks of the gateway that touch the shared cache, for any number of requests at once. A
request runs through `request_filter`, `proxy_upstream_filter`, `request_body_filter`,
`upstream_response_filter` and `upstream_response_body_filter` in the order of Pingora; the steps
of different requests interleave. What the coalescing permits answer is given with each step.

Two history variables record where cached responses come from: `lastStored`, the exchange whose
response was stored last under each physical key, and the `hits` of an exchange.
-/

namespace Pingola
open ByteText

/-- A gateway of a validated configuration. -/
structure Gateway (env : Surroundings) where
  runtime : RuntimeConfig env.parseSocketAddr
  routing : PreparedRouting
  prepared : withShared env runtime = .ok routing

/-- `build_cache_runtime`. -/
def buildCacheRuntime (config : CacheConfig) : CacheRuntime where
  store := PingolaCache.new config.enabled config.memoryBytes
  dns :=
    { enabled := config.enabled && config.dns.enabled
      maxTtl := fromSecs config.dns.maxTtlSeconds
      negativeTtl := fromSecs config.dns.negativeTtlSeconds
      maxResponseBytes := 65535 }
  navidrome :=
    { enabled := config.enabled && config.navidrome.enabled
      defaultTtl := fromSecs config.navidrome.defaultTtlSeconds
      maxTtl := fromSecs config.navidrome.maxTtlSeconds
      maxResponseBytes := 512 * 1024 }

/-- The settings of the cache, which no request changes. -/
def Gateway.settings {env : Surroundings} (g : Gateway env) : CacheSettings :=
  (buildCacheRuntime g.runtime.config.server.cache).settings

/-- A cached response that was found for an exchange, with the key and the exchange that its body
comes from. -/
structure CacheHit where
  response : CachedHttpResponse
  key : Option (CacheKey UInt64)
  source : Option ℕ
  deriving DecidableEq

inductive ExchangePhase where
  /-- `request_filter` waits for the writer of the key; the instant was taken before. -/
  | coalescing (now : ℕ)
  | filtered
  | proxied
  | closed
  deriving DecidableEq

/-- `RequestContext`, with the session and the plan of the request. -/
structure Exchange where
  session : Session
  plan : PreparedPlan
  phase : ExchangePhase
  cacheKey : Option (CacheKey UInt64) := none
  waiter : Bool := false
  cacheHit : Option CachedHttpResponse := none
  pendingInsert : Option PendingCacheInsert := none
  dnsQueryId : Option ℕ := none
  dnsRequestBody : Option Bytes := none
  bodyBytes : ℕ := 0
  bodyEnded : Bool := false
  responded : Bool := false
  reply : Option (ResponseHeader × Bytes) := none
  hits : List CacheHit := []

structure GatewayState where
  cache : CacheRuntime
  exchanges : ℕ → Option Exchange
  lastStored : UInt64 → Option ℕ

inductive GatewayEvent where
  /-- `request_filter` up to its answer or its wait; `writer` is the answer of `begin_fill`. -/
  | request (i : ℕ) (session : Session) (admission : Admission) (writer : Bool) (now : ℕ)
  /-- The wait of `request_filter` ends. -/
  | waited (i : ℕ) (success : Bool)
  /-- `proxy_upstream_filter`; `success` is the outcome of its wait, if it waits. -/
  | proxy (i : ℕ) (success : Bool) (now : ℕ)
  | requestBody (i : ℕ) (chunk : Option Bytes) (endOfStream writer : Bool) (now : ℕ)
  | responseHeader (i : ℕ) (header : ResponseHeader)
  | responseBody (i : ℕ) (chunk : Option Bytes) (endOfStream : Bool) (now : ℕ) (victims : List UInt64)
  /-- The exchange ends early: an error, a timeout or a disconnect. -/
  | abort (i : ℕ)

/-- `dns_transaction_id`. -/
def dnsTransactionId (request : RequestHeader) (dnsBody : Option Bytes) : Option ℕ :=
  (dohWire request dnsBody).bind fun wire => if 2 ≤ wire.length then some (u16At wire 0) else none

def insertSecurityHeaders (header : ResponseHeader) (handler : HandlerKind) (tls : Bool) : ResponseHeader :=
  let header := header.insertTypedHeader (ascii "x-content-type-options") (ascii "nosniff")
  let header :=
    if tls then
      header.insertTypedHeader (ascii "strict-transport-security")
        (ascii "max-age=63072000; includeSubDomains; preload")
    else header
  match handler with
  | .static | .vaultwarden | .couchdb =>
    (header.insertTypedHeader (ascii "x-frame-options") (ascii "SAMEORIGIN")).insertTypedHeader
      (ascii "referrer-policy") (ascii "strict-origin-when-cross-origin")
  | _ => header

def stripDohCachingHeaders (header : ResponseHeader) : ResponseHeader :=
  let header := ["cache-control", "expires", "pragma", "etag", "last-modified"].foldl
    (fun header name => header.removeHeader (ascii name)) header
  header.insertTypedHeader (ascii "cache-control") (ascii "no-store")

section
variable {env : Surroundings} (g : Gateway env) (H : AHasher UInt64)

/-- The header that `send_cached_http_response` writes. -/
def cachedResponseHeader (session : Session) (plan : PreparedPlan) (response : CachedHttpResponse) :
    ResponseHeader :=
  let header : ResponseHeader := ⟨response.status, []⟩
  let header := header.insertTypedHeader (ascii "content-type") response.contentType
  let header := header.insertTypedHeader (ascii "content-length") (natText response.body.length)
  let header := if plan.route = .doh then stripDohCachingHeaders header else header
  let header :=
    if g.runtime.config.server.securityHeaders then
      insertSecurityHeaders header plan.handler session.tls
    else header
  match g.runtime.http3AltSvcHeader with
  | some altSvc =>
    if session.tls && !session.directHttp3 then header.insertTypedHeader (ascii "alt-svc") altSvc
    else header
  | none => header

namespace Exchange

/-- `send_cached_http_response`. -/
def sendCached (ex : Exchange) (response : CachedHttpResponse) : Exchange :=
  { ex with
    phase := .closed
    reply := some (cachedResponseHeader g ex.session ex.plan response, response.body) }

/-- The key of the request, with the body collected so far. -/
def requestKey (settings : CacheSettings) (ex : Exchange) : Option (CacheKey UInt64) :=
  cacheKeyFor H settings ex.plan.route ex.plan.handler ex.session.request ex.dnsRequestBody

/-- A DNS exchange notes the transaction id of its query. -/
def identify (ex : Exchange) : Exchange :=
  { ex with
    dnsQueryId :=
      if ex.plan.route = .doh then dnsTransactionId ex.session.request ex.dnsRequestBody
      else ex.dnsQueryId }

/-- The body so far, with one more part. -/
def collect (ex : Exchange) (chunk : Option Bytes) (endOfStream : Bool) : Exchange :=
  { ex with
    bodyBytes := ex.bodyBytes + (chunk.getD []).length
    dnsRequestBody := ex.dnsRequestBody.map (· ++ chunk.getD [])
    bodyEnded := endOfStream }

def record (ex : Exchange) (hit : CacheHit) : Exchange := { ex with hits := ex.hits ++ [hit] }

end Exchange

namespace GatewayState

def init : GatewayState := ⟨buildCacheRuntime g.runtime.config.server.cache, fun _ => none, fun _ => none⟩

variable (s : GatewayState) (i : ℕ)

def put (ex : Exchange) : GatewayState := { s with exchanges := Function.update s.exchanges i (some ex) }

/-- The hit of an exchange under a key. -/
def hit (key : Option (CacheKey UInt64)) (response : CachedHttpResponse) : CacheHit :=
  ⟨response, key, key.bind fun key => s.lastStored key.storageKey⟩

/-- `prepare_lookup` for an exchange. -/
def prepareFor (ex : Exchange) (now : ℕ) : PreparedCacheLookup × GatewayState :=
  let lookup :=
    prepareLookup H s.cache ex.plan.route ex.plan.handler ex.session.request ex.dnsRequestBody now
  (lookup.1, { s with cache := lookup.2 })

/-- The second lookup of a waiter, under the key of its miss. -/
def lookupAgain (ex : Exchange) (key : CacheKey UInt64) (now : ℕ) :
    Option CachedHttpResponse × GatewayState :=
  let lookup := s.cache.store.lookup key now
  (match lookup.1 with
    | .hit value => materializeCachedLookup ex.plan.route value now ex.dnsQueryId
    | .miss | .expired => none,
    { s with cache := { s.cache with store := lookup.2 } })

/-- The answer of a waiter's second lookup, or `next` where it finds nothing. -/
def serveAgain (ex : Exchange) (key : CacheKey UInt64) (now : ℕ) (next : GatewayState → GatewayState) :
    GatewayState :=
  let s' := (s.lookupAgain ex key now).2
  match (s.lookupAgain ex key now).1 with
  | some response => s'.put i ((ex.record (s.hit (some key) response)).sendCached g response)
  | none => next s'

/-- `try_serve_cached_request` up to its wait. -/
def tryServe (ex : Exchange) (writer : Bool) (now : ℕ) : GatewayState :=
  let s' := (s.prepareFor H ex.identify now).2
  match (s.prepareFor H ex.identify now).1 with
  | .bypass => s'.put i ex.identify
  | .hit response =>
    let key := ex.identify.requestKey H s.cache.settings
    s'.put i ((ex.identify.record (s.hit key response)).sendCached g response)
  | .miss key =>
    if writer then s'.put i { ex.identify with cacheKey := some key }
    else s'.put i { ex.identify with cacheKey := some key, waiter := true, phase := .coalescing now }

/-- The end of `request_filter` for a request that has a plan. -/
def arrive (session : Session) (plan : PreparedPlan) (writer : Bool) (now : ℕ) : GatewayState :=
  let ex : Exchange := { session := session, plan := plan, phase := .filtered }
  if plan.route = .doh && dnsRequestNeedsBody session.request.method then
    s.put i { ex with dnsRequestBody := some [] }
  else if (plan.route = .doh || plan.route = .navidromeApi) && session.request.method == methodGet then
    s.tryServe g H i ex writer now
  else s.put i ex

/-- The end of `proxy_upstream_filter`. -/
def startProxy (ex : Exchange) : GatewayState :=
  s.put i { ex with
    phase := .proxied
    pendingInsert := ex.pendingInsert.or
      (beginPendingInsert H s.cache ex.plan.route ex.plan.handler ex.session.request ex.dnsRequestBody) }

def proxyUpstream (ex : Exchange) (success : Bool) (now : ℕ) : GatewayState :=
  match ex.cacheHit with
  | some response => s.put i (({ ex with cacheHit := none } : Exchange).sendCached g response)
  | none =>
    match if ex.waiter && success then ex.cacheKey else none with
    | some key => s.serveAgain g i ex key now fun s => s.startProxy H i ex
    | none => s.startProxy H i ex

/-- The lookup of `request_body_filter` once the query has arrived; a hit is only noted. -/
def lookupBody (ex : Exchange) (writer : Bool) (now : ℕ) : GatewayState :=
  let s' := (s.prepareFor H ex.identify now).2
  match (s.prepareFor H ex.identify now).1 with
  | .bypass => s'.put i ex.identify
  | .hit response =>
    let key := ex.identify.requestKey H s.cache.settings
    s'.put i { ex.identify.record (s.hit key response) with cacheHit := some response }
  | .miss key => s'.put i { ex.identify with cacheKey := some key, waiter := !writer }

/-- `request_body_filter`. -/
def receiveBody (ex : Exchange) (chunk : Option Bytes) (endOfStream writer : Bool) (now : ℕ) :
    GatewayState :=
  if ex.plan.maxBodyBytes < (ex.collect chunk endOfStream).bodyBytes then
    s.put i { ex with phase := .closed, pendingInsert := none }
  else if endOfStream && ex.plan.route = .doh && dnsRequestNeedsBody ex.session.request.method then
    s.lookupBody H i (ex.collect chunk endOfStream) writer now
  else s.put i (ex.collect chunk endOfStream)

/-- `upstream_response_filter`. -/
def receiveHeader (ex : Exchange) (header : ResponseHeader) : GatewayState :=
  s.put i { ex with
    responded := true
    pendingInsert := ex.pendingInsert.map fun pending =>
      { pending with
        status := header.status
        contentType := pending.contentType.or (HeaderMap.get header.headers (ascii "content-type")) } }

/-- The history of the stores, after exchange `i` has completed its pending action. -/
def storedAfter (action : PendingCacheAction) (inserted : Bool) : UInt64 → Option ℕ :=
  match action with
  | .store key => if inserted then Function.update s.lastStored key.storageKey (some i) else s.lastStored
  | .invalidate _ => s.lastStored

/-- The store at the end of `upstream_response_body_filter`. -/
def storeResponse (ex : Exchange) (pending : PendingCacheInsert) (now : ℕ) (victims : List UInt64) :
    Option GatewayState :=
  (storePendingInsert s.cache pending now victims).map fun (inserted, cache) =>
    ({ s with cache := cache, lastStored := s.storedAfter i pending.action inserted } : GatewayState).put i
      { ex with phase := .closed, pendingInsert := none }

/-- `upstream_response_body_filter`. -/
def receiveResponse (ex : Exchange) (chunk : Option Bytes) (endOfStream : Bool) (now : ℕ)
    (victims : List UInt64) : Option GatewayState :=
  match ex.pendingInsert with
  | some pending =>
    let pending := { pending with body := pending.body ++ chunk.getD [] }
    if endOfStream then
      if pending.status = 200 then s.storeResponse i ex pending now victims
      else some (s.put i { ex with phase := .closed, pendingInsert := none })
    else some (s.put i { ex with pendingInsert := some pending })
  | none =>
    some (s.put i (if endOfStream then { ex with phase := .closed, pendingInsert := none } else ex))

def step (s : GatewayState) : GatewayEvent → Option GatewayState
  | .request i session admission writer now =>
    match s.exchanges i with
    | some _ => none
    | none =>
      match filterRequest g.runtime.config.server g.routing admission session with
      | .proceed plan => some (s.arrive g H i session plan writer now)
      | _ => some s
  | .waited i success =>
    (s.exchanges i).bind fun ex =>
      match ex.phase, ex.cacheKey with
      | .coalescing now, some key =>
        let next (s : GatewayState) := s.put i { ex with phase := .filtered }
        some (if success then s.serveAgain g i ex key now next else next s)
      | _, _ => none
  | .proxy i success now =>
    (s.exchanges i).bind fun ex =>
      if ex.phase = .filtered then some (s.proxyUpstream g H i ex success now) else none
  | .requestBody i chunk endOfStream writer now =>
    (s.exchanges i).bind fun ex =>
      if ex.phase = .proxied && !ex.bodyEnded then some (s.receiveBody H i ex chunk endOfStream writer now)
      else none
  | .responseHeader i header =>
    (s.exchanges i).bind fun ex =>
      if ex.phase = .proxied then some (s.receiveHeader i ex header) else none
  | .responseBody i chunk endOfStream now victims =>
    (s.exchanges i).bind fun ex =>
      if ex.phase = .proxied && ex.responded then s.receiveResponse i ex chunk endOfStream now victims
      else none
  | .abort i =>
    (s.exchanges i).bind fun ex =>
      if ex.phase = .closed then none else some (s.put i { ex with phase := .closed, pendingInsert := none })

/-- The branches of `step` in which it has a result, with their guards. -/
inductive Steps (s : GatewayState) : GatewayEvent → GatewayState → Prop
  | arrive {i session admission writer now plan} : s.exchanges i = none →
      filterRequest g.runtime.config.server g.routing admission session = .proceed plan →
      Steps s (.request i session admission writer now) (s.arrive g H i session plan writer now)
  | refuse {i session admission writer now} : s.exchanges i = none →
      Steps s (.request i session admission writer now) s
  | wake {i ex now key} : s.exchanges i = some ex → ex.phase = .coalescing now → ex.cacheKey = some key →
      Steps s (.waited i true)
        (s.serveAgain g i ex key now fun s => s.put i { ex with phase := .filtered })
  | giveUp {i ex now} : s.exchanges i = some ex → ex.phase = .coalescing now →
      Steps s (.waited i false) (s.put i { ex with phase := .filtered })
  | proxy {i ex success now} : s.exchanges i = some ex → ex.phase = .filtered →
      Steps s (.proxy i success now) (s.proxyUpstream g H i ex success now)
  | requestBody {i ex chunk endOfStream writer now} : s.exchanges i = some ex → ex.phase = .proxied →
      ex.bodyEnded = false → Steps s (.requestBody i chunk endOfStream writer now)
        (s.receiveBody H i ex chunk endOfStream writer now)
  | responseHeader {i ex header} : s.exchanges i = some ex → ex.phase = .proxied →
      Steps s (.responseHeader i header) (s.receiveHeader i ex header)
  | responseBody {i ex chunk endOfStream now victims t} : s.exchanges i = some ex → ex.phase = .proxied →
      ex.responded = true → s.receiveResponse i ex chunk endOfStream now victims = some t →
      Steps s (.responseBody i chunk endOfStream now victims) t
  | abort {i ex} : s.exchanges i = some ex → ex.phase ≠ .closed →
      Steps s (.abort i) (s.put i { ex with phase := .closed, pendingInsert := none })

lemma steps_of_step {s t : GatewayState} {ev : GatewayEvent} (h : s.step g H ev = some t) :
    s.Steps g H ev t := by
  cases ev with
  | request i session admission writer now =>
    cases hnew : s.exchanges i with
    | some ex => simp [step, hnew] at h
    | none =>
      simp only [step, hnew] at h
      split at h <;> obtain rfl := Option.some.inj h
      · rename_i plan hproceed
        exact .arrive hnew hproceed
      · exact .refuse hnew
  | waited i success =>
    obtain ⟨ex, hex, h⟩ := Option.bind_eq_some_iff.mp h
    split at h
    · rename_i now key hphase hkey
      obtain rfl := Option.some.inj h
      cases success
      · exact .giveUp hex hphase
      · exact .wake hex hphase hkey
    · simp at h
  | proxy i success now =>
    obtain ⟨ex, hex, h⟩ := Option.bind_eq_some_iff.mp h
    split_ifs at h with hphase
    obtain rfl := Option.some.inj h
    exact .proxy hex hphase
  | requestBody i chunk endOfStream writer now =>
    obtain ⟨ex, hex, h⟩ := Option.bind_eq_some_iff.mp h
    split_ifs at h with hphase
    obtain rfl := Option.some.inj h
    simp only [Bool.and_eq_true, decide_eq_true_eq, Bool.not_eq_true'] at hphase
    exact .requestBody hex hphase.1 hphase.2
  | responseHeader i header =>
    obtain ⟨ex, hex, h⟩ := Option.bind_eq_some_iff.mp h
    split_ifs at h with hphase
    obtain rfl := Option.some.inj h
    exact .responseHeader hex hphase
  | responseBody i chunk endOfStream now victims =>
    obtain ⟨ex, hex, h⟩ := Option.bind_eq_some_iff.mp h
    split_ifs at h with hphase
    simp only [Bool.and_eq_true, decide_eq_true_eq] at hphase
    exact .responseBody hex hphase.1 hphase.2 h
  | abort i =>
    obtain ⟨ex, hex, h⟩ := Option.bind_eq_some_iff.mp h
    split_ifs at h with hclosed
    obtain rfl := Option.some.inj h
    exact .abort hex hclosed

/-- What a part of the response does, by whether it is the last one. -/
inductive Receives (s : GatewayState) (i : ℕ) (ex : Exchange) (chunk : Option Bytes) (now : ℕ)
    (victims : List UInt64) : Bool → GatewayState → Prop
  | goesOn : Receives s i ex chunk now victims false (s.put i { ex with
      pendingInsert := ex.pendingInsert.map fun p => { p with body := p.body ++ chunk.getD [] } })
  | closes : (∀ p, ex.pendingInsert = some p → p.status ≠ 200) →
      Receives s i ex chunk now victims true (s.put i { ex with phase := .closed, pendingInsert := none })
  | stores {p inserted cache} : ex.pendingInsert = some p → p.status = 200 →
      storePendingInsert s.cache { p with body := p.body ++ chunk.getD [] } now victims = some (inserted, cache) →
      Receives s i ex chunk now victims true
        (({ s with cache := cache, lastStored := s.storedAfter i p.action inserted } : GatewayState).put i
          { ex with phase := .closed, pendingInsert := none })

lemma receives_of_receiveResponse {s t : GatewayState} {i : ℕ} {ex : Exchange} {chunk : Option Bytes}
    {endOfStream : Bool} {now : ℕ} {victims : List UInt64}
    (h : s.receiveResponse i ex chunk endOfStream now victims = some t) :
    s.Receives i ex chunk now victims endOfStream t := by
  have hgoesOn := @Receives.goesOn s i ex chunk now victims
  unfold receiveResponse at h
  cases hpending : ex.pendingInsert with
  | none =>
    rw [hpending] at h
    obtain rfl := Option.some.inj h
    cases endOfStream with
    | false =>
      rw [hpending, Option.map_none, ← hpending] at hgoesOn
      exact hgoesOn
    | true => exact .closes (by simp [hpending])
  | some pending =>
    rw [hpending] at h hgoesOn
    dsimp only at h
    split_ifs at h with hend hstatus
    · obtain ⟨⟨inserted, cache⟩, hstore, rfl⟩ := Option.map_eq_some_iff.mp h
      rw [hend]
      exact .stores (p := pending) hpending hstatus hstore
    · obtain rfl := Option.some.inj h
      rw [hend]
      exact .closes (by simp [hpending, hstatus])
    · obtain rfl := Option.some.inj h
      rw [Bool.eq_false_iff.mpr hend]
      exact hgoesOn

/-- A completed action stores its body and becomes the last store of its key, or entries at most go away. -/
lemma storedAfter_cases (s : GatewayState) (i : ℕ) {pending : PendingCacheInsert} {now : ℕ} {victims : List UInt64}
    {inserted : Bool} {cache : CacheRuntime}
    (h : storePendingInsert s.cache pending now victims = some (inserted, cache)) :
    (∃ key, pending.action = .store key ∧ inserted = true ∧ Stores s.cache cache key pending.body ∧
        s.storedAfter i pending.action inserted = Function.update s.lastStored key.storageKey (some i)) ∨
      Shrinks s.cache cache ∧ s.storedAfter i pending.action inserted = s.lastStored := by
  rcases storePendingInsert_completes h with ⟨key, haction, rfl, hstores⟩ | ⟨hrefused, hshrinks⟩
  · exact .inl ⟨key, haction, rfl, hstores, by rw [haction]; rfl⟩
  · refine .inr ⟨hshrinks, ?_⟩
    cases haction : pending.action with
    | store key => simp [storedAfter, hrefused key haction]
    | invalidate n => rfl

end GatewayState

/-- The events lead from an empty cache to the state. -/
def Gateway.Run (events : List GatewayEvent) (s : GatewayState) : Prop :=
  Runs.Run (fun s ev t => GatewayState.step g H s ev = some t) (.init g) events s

end

end Pingola
