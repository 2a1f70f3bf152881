import Pingola.Http.Header
import Pingola.Lib.Table
import Pingola.Routing

/-!
# Prepared plans

`Gateway::with_shared`: for every domain of every host, one plan for each route class that has an
upstream. A plan carries the name of the upstream that its peers were prepared from, which the
source has at hand but does not keep. Socket tuning that is the same for all peers is left out.
-/

namespace Pingola
open ByteText

/-- What the gateway takes from its surroundings: address parsing and resolution, the upstreams
with an HTTP/3 route, and the `http` crate. -/
structure Surroundings where
  parseSocketAddr : Bytes → Option SocketAddr
  toSocketAddrs : Bytes → Option (List SocketAddr)
  hasH3Route : Bytes → Bool
  http : HttpCrate

inductive Alpn where
  | h1
  | h2
  | h2h1
  | custom (protocol : Bytes)
  deriving DecidableEq

structure HttpPeer where
  address : SocketAddr
  tls : Bool
  sni : Bytes
  groupKey : ℕ := 0
  connectionTimeout : Option ℕ := none
  totalConnectionTimeout : Option ℕ := none
  idleTimeout : Option ℕ := none
  readTimeout : Option ℕ := none
  writeTimeout : Option ℕ := none
  verifyCert : Bool := true
  verifyHostname : Bool := true
  alpn : Alpn := .h1
  maxH2Streams : ℕ := 1
  h2StreamWindowSize : Option ℕ := none
  h2ConnectionWindowSize : Option ℕ := none
  h2PingInterval : Option ℕ := none
  deriving DecidableEq

structure PreparedUpstream where
  name : Bytes
  peer : HttpPeer
  h3 : Option HttpPeer
  readTimeoutSeconds : Option ℕ
  writeTimeoutSeconds : Option ℕ

structure PreparedPlan where
  upstreamName : Bytes
  upstreamHost : Bytes
  handler : HandlerKind
  peer : HttpPeer
  h3 : Option HttpPeer
  route : RouteClass
  rateLimit : Option (ℚ × ℕ)
  activeRequestLimit : ℕ
  downstreamTimeout : ℕ
  maxBodyBytes : ℕ

/-- `plans[route.index()]` is the plan of a route, if it has one. -/
structure PreparedHost where
  domain : Bytes
  name : Bytes
  handler : HandlerKind
  redirectHttp : Bool
  plans : List (Option ℕ)

structure PreparedRouting where
  hosts : Table Bytes PreparedHost
  plans : List PreparedPlan

def h3UpstreamAlpn : Bytes := ascii "jbs-h3-upstream"

def directDohHost : Bytes := ascii "direct.tae00217.cloud"

def upstreamAlpn (upstream : UpstreamConfig) : Alpn :=
  match upstream.protocol with
  | .auto | .http3 | .http3Preferred => if upstream.tls then .h2h1 else .h1
  | .http1 => .h1
  | .http2 | .grpc => .h2

def prepareUpstream (env : Surroundings) (name : Bytes) (upstream : UpstreamConfig) :
    Except Bytes PreparedUpstream := do
  let addresses ← match env.toSocketAddrs upstream.address with
    | some addresses => .ok addresses
    | none => .error (ascii "upstream address resolution failed: name=" ++ name ++ ascii " address=" ++
        upstream.address)
  let address ← match addresses.head? with
    | some address => .ok address
    | none => .error (ascii "upstream address resolution returned no addresses: name=" ++ name ++
        ascii " address=" ++ upstream.address)
  let peer : HttpPeer :=
    { address := address
      tls := upstream.tls
      sni := upstream.sni.getD []
      connectionTimeout := some upstream.connectTimeoutSeconds
      totalConnectionTimeout := some upstream.connectTimeoutSeconds
      idleTimeout := some upstream.idleTimeoutSeconds
      verifyCert := upstream.verifyCertificate
      verifyHostname := upstream.verifyCertificate
      alpn := upstreamAlpn upstream
      maxH2Streams := upstream.http2MaxConcurrentStreams
      h2StreamWindowSize := some upstream.http2StreamWindowBytes
      h2ConnectionWindowSize := some upstream.http2ConnectionWindowBytes
      h2PingInterval :=
        if 0 < upstream.http2PingIntervalSeconds then some upstream.http2PingIntervalSeconds else none }
  let h3Peer : HttpPeer :=
    { address := address
      tls := false
      sni := name
      connectionTimeout := some upstream.connectTimeoutSeconds
      totalConnectionTimeout := some upstream.connectTimeoutSeconds
      idleTimeout := some upstream.idleTimeoutSeconds
      alpn := .custom h3UpstreamAlpn
      maxH2Streams := upstream.http3MaxConcurrentStreams }
  .ok ⟨name, peer, if env.hasH3Route name then some h3Peer else none, upstream.readTimeoutSeconds,
    upstream.writeTimeoutSeconds⟩

/-- The read and the write timeout of a route. -/
def upstreamTimeouts (route : RouteClass) (upstream : PreparedUpstream) : ℕ × ℕ :=
  (upstream.readTimeoutSeconds.getD route.timeoutSeconds,
    upstream.writeTimeoutSeconds.getD route.timeoutSeconds)

def prepareRouteH3 (upstream : PreparedUpstream) (route : RouteClass) : Option HttpPeer :=
  match route with
  | .vaultwardenHub | .navidromeGrpc => none
  | _ => upstream.h3.map fun peer =>
    { peer with
      groupKey := 10000 + route.upstreamPoolGroup
      readTimeout := some (upstreamTimeouts route upstream).1
      writeTimeout := some (upstreamTimeouts route upstream).2 }

def prepareRoutePeer (upstream : PreparedUpstream) (route : RouteClass) : HttpPeer :=
  let hub := route = .vaultwardenHub
  { upstream.peer with
    groupKey := route.upstreamPoolGroup
    alpn := if hub then .h1 else upstream.peer.alpn
    maxH2Streams := if hub then 1 else upstream.peer.maxH2Streams
    readTimeout := some (upstreamTimeouts route upstream).1
    writeTimeout := some (upstreamTimeouts route upstream).2 }

def effectiveRateLimit (config : Config) (route : RouteClass) : Option (ℚ × ℕ) :=
  let defaults := route.defaultRateLimit
  let configured := config.routeLimits.get? route.name
  -- validation admits finite rates only
  let rate := ((configured.bind RouteLimitConfig.ratePerSecond).bind id).or (defaults.map Prod.fst)
  rate.bind fun rate =>
    if rate = 0 then none
    else some (rate, ((configured.bind RouteLimitConfig.burst).or (defaults.map Prod.snd)).getD 0)

/-- The upstream of a route of a host: the gRPC route of Navidrome prefers its own upstream. -/
def planUpstreamName (upstreams : List PreparedUpstream) (host : HostConfig) (route : RouteClass) :
    Option Bytes :=
  if route = .navidromeGrpc && isNavidrome host.handler &&
      upstreams.any (fun u => u.name = navidromeGrpcUpstream) then
    some navidromeGrpcUpstream
  else upstreamNameForRoute host.handler host.upstream route

def preparePlan (config : Config) (upstreams : List PreparedUpstream) (host : HostConfig)
    (domain : Bytes) (route : RouteClass) : Option PreparedPlan := do
  let upstreamName ← planUpstreamName upstreams host route
  let upstream ← upstreams.find? fun u => u.name = upstreamName
  some
    { upstreamName := upstreamName
      upstreamHost := if route = .doh then directDohHost else domain
      handler := host.handler
      peer := prepareRoutePeer upstream route
      h3 := prepareRouteH3 upstream route
      route := route
      rateLimit := effectiveRateLimit config route
      activeRequestLimit :=
        ((config.routeLimits.get? route.name).bind RouteLimitConfig.activeRequests).getD
          (defaultActiveLimit host.handler route)
      downstreamTimeout := route.timeoutSeconds
      maxBodyBytes := host.maxBodyBytes }

/-- `RouteClass::ALL.map` with the closure that pushes a plan and returns its index. -/
def preparePlans (make : RouteClass → Option PreparedPlan) :
    List RouteClass → List PreparedPlan → List (Option ℕ) × List PreparedPlan
  | [], plans => ([], plans)
  | route :: routes, plans =>
    match make route with
    | none =>
      let (indices, plans) := preparePlans make routes plans
      (none :: indices, plans)
    | some plan =>
      let (indices, plans') := preparePlans make routes (plans ++ [plan])
      (some plans.length :: indices, plans')

def prepareDomain (config : Config) (upstreams : List PreparedUpstream) (name : Bytes)
    (host : HostConfig) (domain : Bytes) (routing : PreparedRouting) : PreparedRouting :=
  let prepared := preparePlans (preparePlan config upstreams host domain) RouteClass.all routing.plans
  ⟨routing.hosts.insert domain ⟨domain, name, host.handler, host.redirectHttp, prepared.1⟩, prepared.2⟩

/-- The loop over the domains of all hosts, each with its host. -/
def prepareDomains (env : Surroundings) (config : Config) (upstreams : List PreparedUpstream) :
    List (Bytes × HostConfig × Bytes) → PreparedRouting → Except Bytes PreparedRouting
  | [], routing => .ok routing
  | (name, host, domain) :: rest, routing =>
    if (env.http.headerValueFromStr domain).isNone then
      .error (ascii "host domain cannot be encoded as a header: host=" ++ name ++ ascii " domain=" ++ domain)
    else prepareDomains env config upstreams rest (prepareDomain config upstreams name host domain routing)

def hostDomains (config : Config) : List (Bytes × HostConfig × Bytes) :=
  config.hosts.entries.flatMap fun p => p.2.domains.map fun domain => (p.1, p.2, domain)

/-- `Gateway::with_shared`. -/
def withShared (env : Surroundings) (runtime : RuntimeConfig env.parseSocketAddr) :
    Except Bytes PreparedRouting := do
  let upstreams ← runtime.config.upstreams.entries.mapM fun p => prepareUpstream env p.1 p.2
  prepareDomains env runtime.config upstreams (hostDomains runtime.config) ⟨∅, []⟩

namespace PreparedRouting

/-- `Gateway::host`. -/
def host (routing : PreparedRouting) (authority : Bytes) : Option PreparedHost :=
  match routing.hosts.lookup authority with
  | some host => some host
  | none =>
    let domain := normalizedHost authority
    if domain = authority then none else routing.hosts.lookup domain

end PreparedRouting

namespace PreparedHost

/-- The plan of a route class. -/
def planOf (host : PreparedHost) (route : RouteClass) : Option ℕ := (host.plans[route.index]?).join

def plan (host : PreparedHost) (path : Bytes) : Option ℕ :=
  (classifyRoute host.handler path).bind host.planOf

end PreparedHost

/-! ### Where plans come from -/

/-- What a plan keeps of the host that it was prepared for. -/
def PlanOf (config : Config) (plan : PreparedPlan) : Prop :=
  ∃ p ∈ config.hosts.entries, plan.handler = p.2.handler ∧
    ∃ upstreams, planUpstreamName upstreams p.2 plan.route = some plan.upstreamName

section
variable {config : Config} {upstreams : List PreparedUpstream} {plan : PreparedPlan}

lemma preparePlan_planOf {p : Bytes × HostConfig} {domain : Bytes} {route : RouteClass}
    (hp : p ∈ config.hosts.entries) (h : preparePlan config upstreams p.2 domain route = some plan) :
    PlanOf config plan := by
  obtain ⟨upstreamName, hname, h⟩ := Option.bind_eq_some_iff.mp h
  obtain ⟨upstream, -, h⟩ := Option.bind_eq_some_iff.mp h
  obtain rfl := Option.some.inj h
  exact ⟨p, hp, rfl, upstreams, hname⟩

lemma mem_preparePlans {make : RouteClass → Option PreparedPlan} {routes : List RouteClass}
    {plans : List PreparedPlan} (h : plan ∈ (preparePlans make routes plans).2) :
    plan ∈ plans ∨ ∃ route, make route = some plan := by
  induction routes generalizing plans with
  | nil => exact .inl h
  | cons route routes ih =>
    cases hmake : make route with
    | none =>
      simp only [preparePlans, hmake] at h
      exact ih h
    | some made =>
      simp only [preparePlans, hmake] at h
      rcases ih h with hmem | hroute
      · rcases List.mem_append.mp hmem with hmem | hmem
        · exact .inl hmem
        · obtain rfl := List.mem_singleton.mp hmem
          exact .inr ⟨route, hmake⟩
      · exact .inr hroute

lemma mem_prepareDomains {env : Surroundings} {domains : List (Bytes × HostConfig × Bytes)}
    {routing routing' : PreparedRouting} (h : prepareDomains env config upstreams domains routing = .ok routing')
    (hplan : plan ∈ routing'.plans) :
    plan ∈ routing.plans ∨ ∃ d ∈ domains, ∃ route, preparePlan config upstreams d.2.1 d.2.2 route = some plan := by
  induction domains generalizing routing with
  | nil =>
    obtain rfl := Except.ok.inj h
    exact .inl hplan
  | cons d domains ih =>
    obtain ⟨name, host, domain⟩ := d
    rw [prepareDomains] at h
    split_ifs at h
    rcases ih h with hmem | ⟨d, hd, route, hmade⟩
    · rcases mem_preparePlans hmem with hmem | ⟨route, hmade⟩
      · exact .inl hmem
      · exact .inr ⟨(name, host, domain), List.mem_cons_self, route, hmade⟩
    · exact .inr ⟨d, List.mem_cons_of_mem _ hd, route, hmade⟩

/-- Every plan of a gateway was prepared for a host of its configuration, from its upstreams. -/
lemma mem_withShared {env : Surroundings} {runtime : RuntimeConfig env.parseSocketAddr}
    {routing : PreparedRouting} (h : withShared env runtime = .ok routing) (hplan : plan ∈ routing.plans) :
    ∃ upstreams,
      runtime.config.upstreams.entries.mapM (fun p => prepareUpstream env p.1 p.2) = .ok upstreams ∧
      ∃ p ∈ runtime.config.hosts.entries, ∃ domain route,
        preparePlan runtime.config upstreams p.2 domain route = some plan := by
  obtain ⟨upstreams, hupstreams, h⟩ := except_bind_eq_ok.mp h
  refine ⟨upstreams, hupstreams, ?_⟩
  rcases mem_prepareDomains h hplan with hnil | ⟨d, hd, route, hmade⟩
  · cases hnil
  · obtain ⟨p, hp, hd⟩ := List.mem_flatMap.mp hd
    obtain ⟨domain, -, rfl⟩ := List.mem_map.mp hd
    exact ⟨p, hp, domain, route, hmade⟩

lemma withShared_planOf {env : Surroundings} {runtime : RuntimeConfig env.parseSocketAddr}
    {routing : PreparedRouting} (h : withShared env runtime = .ok routing) :
    ∀ plan ∈ routing.plans, PlanOf runtime.config plan := by
  intro plan hplan
  obtain ⟨upstreams, -, p, hp, domain, route, hmade⟩ := mem_withShared h hplan
  exact preparePlan_planOf hp hmade

/-- The name and the peers of a prepared upstream. The peer for the pool carries the name of the upstream. -/
lemma prepareUpstream_spec {env : Surroundings} {name : Bytes} {upstream : UpstreamConfig}
    {prepared : PreparedUpstream} (h : prepareUpstream env name upstream = .ok prepared) :
    prepared.name = name ∧ prepared.peer.alpn = upstreamAlpn upstream ∧
      ∀ peer, prepared.h3 = some peer →
        env.hasH3Route name = true ∧ peer.sni = name ∧ peer.alpn = .custom h3UpstreamAlpn := by
  cases haddresses : env.toSocketAddrs upstream.address with
  | none => simp [prepareUpstream, haddresses, bind, Except.bind] at h
  | some addresses =>
    cases haddress : addresses.head? with
    | none => simp [prepareUpstream, haddresses, haddress, bind, Except.bind] at h
    | some address =>
      simp only [prepareUpstream, haddresses, haddress, bind, Except.bind, Except.ok.injEq] at h
      subst h
      refine ⟨rfl, rfl, fun peer hpeer => ?_⟩
      simp only [Option.ite_none_right_eq_some, Option.some.injEq] at hpeer
      obtain ⟨hroute, rfl⟩ := hpeer
      exact ⟨hroute, rfl, rfl⟩

lemma prepareRouteH3_eq_some {upstream : PreparedUpstream} {route : RouteClass} {peer : HttpPeer}
    (h : prepareRouteH3 upstream route = some peer) :
    ∃ own, upstream.h3 = some own ∧ peer.sni = own.sni ∧ peer.alpn = own.alpn := by
  unfold prepareRouteH3 at h
  split at h
  · cases h
  · cases h
  · obtain ⟨own, hown, rfl⟩ := Option.map_eq_some_iff.mp h
    exact ⟨own, hown, rfl, rfl⟩

/-- The peers of a plan were prepared from the upstream of the configuration that the plan names. -/
lemma exists_preparedUpstream {env : Surroundings} {runtime : RuntimeConfig env.parseSocketAddr}
    {routing : PreparedRouting} (h : withShared env runtime = .ok routing) (hplan : plan ∈ routing.plans) :
    ∃ p ∈ runtime.config.upstreams.entries, ∃ upstream route, prepareUpstream env p.1 p.2 = .ok upstream ∧
      plan.upstreamName = p.1 ∧ plan.peer = prepareRoutePeer upstream route ∧
      plan.h3 = prepareRouteH3 upstream route := by
  obtain ⟨upstreams, hupstreams, host, -, domain, route, hmade⟩ := mem_withShared h hplan
  obtain ⟨upstreamName, -, hmade⟩ := Option.bind_eq_some_iff.mp hmade
  obtain ⟨upstream, hfind, hmade⟩ := Option.bind_eq_some_iff.mp hmade
  obtain rfl := Option.some.inj hmade
  obtain ⟨p, hp, hprepared⟩ := exists_of_mem_mapM_ok hupstreams (List.mem_of_find?_eq_some hfind)
  have hfound : upstream.name = upstreamName := by simpa using List.find?_some hfind
  exact ⟨p, hp, upstream, route, hprepared, hfound.symm.trans (prepareUpstream_spec hprepared).1, rfl, rfl⟩

end

end Pingola
