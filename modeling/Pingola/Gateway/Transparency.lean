import Pingola.Gateway.Provenance

/-!
# Cached answers and upstreams

A cached answer belongs to a key, and a key does not name the upstream of the request. Where all
hosts of a cached route have the same upstream, every hit comes from the upstream of its own
plan; two AdGuard hosts with different upstreams read each other's answers.
-/

namespace Pingola
open ByteText

/-- All hosts that serve a route get it from one upstream. -/
def OneUpstream (config : Config) (route : RouteClass) : Prop :=
  ∀ p ∈ config.hosts.entries, ∀ q ∈ config.hosts.entries,
    ∀ u ∈ upstreamNameForRoute p.2.handler p.2.upstream route,
      ∀ v ∈ upstreamNameForRoute q.2.handler q.2.upstream route, u = v

instance (config : Config) (route : RouteClass) : Decidable (OneUpstream config route) := by
  unfold OneUpstream
  infer_instance

lemma PlanOf.exists_host {config : Config} {plan : PreparedPlan} (h : PlanOf config plan)
    (hroute : plan.route ≠ .navidromeGrpc) : ∃ p ∈ config.hosts.entries,
      plan.upstreamName ∈ upstreamNameForRoute p.2.handler p.2.upstream plan.route := by
  obtain ⟨p, hp, -, upstreams, hname⟩ := h
  refine ⟨p, hp, ?_⟩
  simpa [planUpstreamName, hroute] using hname

lemma OneUpstream.upstreamName_eq {config : Config} {plan plan' : PreparedPlan} {route : RouteClass}
    (h : OneUpstream config route) (hgrpc : route ≠ .navidromeGrpc) (hplan : PlanOf config plan)
    (hplan' : PlanOf config plan') (hroute : plan.route = route) (hroute' : plan'.route = route) :
    plan.upstreamName = plan'.upstreamName := by
  subst hroute
  obtain ⟨p, hp, hname⟩ := hplan.exists_host hgrpc
  obtain ⟨q, hq, hname'⟩ := hplan'.exists_host (hroute' ▸ hgrpc)
  exact h p hp q hq _ hname _ (hroute' ▸ hname')

section
variable {env : Surroundings} {g : Gateway env} {H : AHasher UInt64} {settings : CacheSettings}
  {events : List GatewayEvent} {s : GatewayState} {i : ℕ} {ex ex' : Exchange} {hit : CacheHit}

/-- Exchanges with one key are on one cached route. -/
lemma route_of_requestKey {key : CacheKey UInt64} (h : ex.requestKey H settings = some key)
    (h' : ex'.requestKey H settings = some key) :
    ex.plan.route = ex'.plan.route ∧ (ex.plan.route = .doh ∨ ex.plan.route = .navidromeApi) := by
  rcases cacheKeyFor_namespace h with ⟨hr, hn⟩ | ⟨hr, hn⟩ <;>
    rcases cacheKeyFor_namespace h' with ⟨hr', hn'⟩ | ⟨hr', hn'⟩ <;> simp_all

/-- Every hit of a request was made from the body of a complete 200 response that an upstream
sent to an exchange with the upstream of the request's own plan, if each cached route has one
upstream. -/
theorem hit_from_own_upstream (hdoh : OneUpstream g.runtime.config .doh)
    (hapi : OneUpstream g.runtime.config .navidromeApi)
    (hrun : g.Run H events s) (hex : s.exchanges i = some ex) (hhit : hit ∈ ex.hits) :
    ∃ j exj header value now queryId, hit.source = some j ∧ s.exchanges j = some exj ∧
      exj.plan.upstreamName = ex.plan.upstreamName ∧
      headerOf events j = some header ∧ header.status = 200 ∧ value.body = bodyOf events j ∧
      materializeCachedLookup ex.plan.route value now queryId = some hit.response := by
  have hinv := gatewayInv_of_run hrun
  have hplans := withShared_planOf g.prepared
  obtain ⟨key, j, value, now, queryId, -, hkey, hsource, horigin, hmat⟩ := (hinv.exchanges i ex hex).hits hit hhit
  obtain ⟨exj, header, hexj, -, hkeyj, hbody, hheader, hstatus⟩ := horigin
  refine ⟨j, exj, header, value, now, queryId, hsource, hexj, ?_, hheader, hstatus, hbody.symm, hmat⟩
  have hplan := hplans _ (hinv.exchanges i ex hex).plan
  have hplanj := hplans _ (hinv.exchanges j exj hexj).plan
  obtain ⟨hroutes, hroute | hroute⟩ := route_of_requestKey hkey hkeyj
  · exact hdoh.upstreamName_eq (by simp) hplanj hplan (hroutes ▸ hroute) hroute
  · exact hapi.upstreamName_eq (by simp) hplanj hplan (hroutes ▸ hroute) hroute

end

/-! ### Two AdGuard hosts -/

def parseSocketAddrV4 (text : Bytes) : Option SocketAddr := do
  let (host, port) ← rsplitOnce (byte ':') text
  let octets ← (host.splitOn (byte '.')).mapM (parseUnsigned 256)
  if octets.length = 4 then
    some ⟨.v4 (.ofNat 32 (octets.foldl (fun n octet => n * 256 + octet) 0)), ← parseUnsigned 65536 port⟩
  else none

def exampleSurroundings : Surroundings where
  parseSocketAddr := parseSocketAddrV4
  toSocketAddrs address := (parseSocketAddrV4 address).map ([·])
  hasH3Route _ := false
  http := .reference

/-- The Navidrome host and the two AdGuard hosts of the deployed configuration; `second` is the
handler of the second AdGuard host. -/
def exampleConfig (second : HandlerKind) : Config where
  server :=
    { httpListen := [ascii "0.0.0.0:80"]
      httpsListen := [ascii "0.0.0.0:443"]
      certificate := some (ascii "/certs/origin.pem")
      privateKey := some (ascii "/certs/origin.key") }
  upstreams :=
    ⟨[(ascii "adguard_dns", { address := ascii "10.77.0.1:3333" }),
      (ascii "adguard_dns_doh", { address := ascii "10.77.0.1:1852" }),
      (ascii "adguard_korea", { address := ascii "127.0.0.1:3333" }),
      (ascii "adguard_korea_doh", { address := ascii "127.0.0.1:1852" }),
      (ascii "navidrome", { address := ascii "10.77.0.1:4533" })], by decide +kernel⟩
  hosts :=
    ⟨[(ascii "adguard_dns",
        { domains := [ascii "dns.tae00217.cloud"]
          handler := .adguardDns
          upstream := some (ascii "adguard_dns") }),
      (ascii "adguard_korea",
        { domains := [ascii "korea.tae00217.cloud"]
          handler := second
          upstream := some (ascii "adguard_korea") }),
      (ascii "navidrome_main",
        { domains := [ascii "music.tae00217.cloud"]
          handler := .navidromeMain
          upstream := some (ascii "navidrome") })], by
      have hkeys : [ascii "adguard_dns", ascii "adguard_korea", ascii "navidrome_main"].Pairwise (· < ·) := by
        decide +kernel
      exact List.pairwise_map.mp hkeys⟩

/-- Both AdGuard hosts have the same handler, or each has its own. -/
def exampleHandler (distinct : Bool) : HandlerKind := if distinct then .adguardKorea else .adguardDns

def exampleRuntime (distinct : Bool) : RuntimeConfig exampleSurroundings.parseSocketAddr where
  config := exampleConfig (exampleHandler distinct)
  valid := by cases distinct <;> decide +kernel

lemma exampleRuntime_isOk (distinct : Bool) :
    (withShared exampleSurroundings (exampleRuntime distinct)).isOk = true := by
  cases distinct <;> decide +kernel

def exampleGateway (distinct : Bool) : Gateway exampleSurroundings where
  runtime := exampleRuntime distinct
  routing := (withShared exampleSurroundings (exampleRuntime distinct)).toOption.getD ⟨∅, []⟩
  prepared := by
    have hok := exampleRuntime_isOk distinct
    cases h : withShared exampleSurroundings (exampleRuntime distinct) with
    | error message => simp [h, Except.isOk, Except.toBool] at hok
    | ok routing => rfl

def exampleSession (host target : Bytes) (headers : HeaderMap) : Session where
  request := ⟨methodGet, ⟨false, none, target⟩, .http11, (ascii "host", host) :: headers⟩
  http1 := true
  isTls := true
  directHttp3 := false
  unixSocket := false
  clientIp := some (.v4 0x0a4d0002)

/-- A request that the limiters admit and that becomes the writer of its key. -/
def exampleRequest (i : ℕ) (host target : Bytes) (headers : HeaderMap) (now : ℕ) : GatewayEvent :=
  .request i (exampleSession host target headers) ⟨true, true, true, true⟩ true now

/-- The query for the address of `a`. -/
def exampleQuery : Bytes := ascii "/dns-query?dns=EjQBAAABAAAAAAAAAWEAAAEAAQ"

/-- The answer 1.2.3.4 to it, for 300 seconds. -/
def exampleAnswer : Bytes :=
  [18, 52, 129, 128, 0, 1, 0, 1, 0, 0, 0, 0, 1, 97, 0, 0, 1, 0, 1, 192, 12, 0, 1, 0, 1, 0, 0, 1, 44,
    0, 4, 1, 2, 3, 4]

/-- The first AdGuard host asks its upstream, then the same query reaches the second one. -/
def dnsEvents : List GatewayEvent :=
  [exampleRequest 0 (ascii "dns.tae00217.cloud") exampleQuery [] 0,
    .proxy 0 false 0,
    .responseHeader 0 ⟨200, [(ascii "content-type", dnsContentType)]⟩,
    .responseBody 0 (some exampleAnswer) true 0 [],
    exampleRequest 1 (ascii "korea.tae00217.cloud") exampleQuery [] (fromSecs 1)]

def dnsRun (distinct : Bool) : Option GatewayState :=
  Runs.exec (GatewayState.step (exampleGateway distinct) fnvHasher) (.init (exampleGateway distinct)) dnsEvents

/-- The upstream of an exchange, the sources of its hits and the body of its reply. -/
def observed (s : GatewayState) (i : ℕ) : Option (Bytes × List (Option ℕ) × Option Bytes) :=
  (s.exchanges i).map fun ex =>
    (ex.plan.upstreamName, ex.hits.map CacheHit.source, ex.reply.map Prod.snd)

/-- The second host answers with the answer of the first one, one second older. -/
lemma dnsRun_observed (distinct : Bool) :
    (dnsRun distinct).bind (observed · 0) = some (ascii "adguard_dns_doh", [], none) ∧
      (dnsRun distinct).bind (observed · 1) =
        some (if distinct then ascii "adguard_korea_doh" else ascii "adguard_dns_doh", [some 0],
          some (exampleAnswer.set 28 43)) := by
  cases distinct <;> decide +kernel

lemma dnsRun_spec (distinct : Bool) : ∃ (s : GatewayState) (ex₀ ex₁ : Exchange) (hit : CacheHit),
    (exampleGateway distinct).Run fnvHasher dnsEvents s ∧
    s.exchanges 0 = some ex₀ ∧ s.exchanges 1 = some ex₁ ∧ hit ∈ ex₁.hits ∧ hit.source = some 0 ∧
    ex₀.plan.upstreamName = ascii "adguard_dns_doh" ∧
    ex₁.plan.upstreamName = (if distinct then ascii "adguard_korea_doh" else ascii "adguard_dns_doh") ∧
    ex₁.reply.map Prod.snd = some (exampleAnswer.set 28 43) := by
  obtain ⟨h₀, h₁⟩ := dnsRun_observed distinct
  obtain ⟨s, hs, h₀⟩ := Option.bind_eq_some_iff.mp h₀
  rw [hs, Option.bind_some] at h₁
  obtain ⟨ex₀, hex₀, h₀⟩ := Option.map_eq_some_iff.mp h₀
  obtain ⟨ex₁, hex₁, h₁⟩ := Option.map_eq_some_iff.mp h₁
  simp only [Prod.mk.injEq, List.map_eq_singleton_iff] at h₀ h₁
  obtain ⟨hup₁, ⟨hit, hhits, hsource⟩, hreply⟩ := h₁
  exact ⟨s, ex₀, ex₁, hit, Runs.run_of_exec hs, hex₀, hex₁, by simp [hhits], hsource, h₀.1, hup₁, hreply⟩

/-- With one upstream for both hosts the hit of the second host comes from its own upstream. -/
theorem hit_from_own_upstream_shared : ∃ (s : GatewayState) (ex : Exchange) (hit : CacheHit),
    (exampleGateway false).Run fnvHasher dnsEvents s ∧ s.exchanges 1 = some ex ∧ hit ∈ ex.hits ∧
    ∃ j exj header value now queryId, hit.source = some j ∧ s.exchanges j = some exj ∧
      exj.plan.upstreamName = ex.plan.upstreamName ∧
      headerOf dnsEvents j = some header ∧ header.status = 200 ∧ value.body = bodyOf dnsEvents j ∧
      materializeCachedLookup ex.plan.route value now queryId = some hit.response := by
  obtain ⟨s, -, ex, hit, hrun, -, hex, hmem, -⟩ := dnsRun_spec false
  have hdoh : OneUpstream (exampleGateway false).runtime.config .doh := by decide +kernel
  have hapi : OneUpstream (exampleGateway false).runtime.config .navidromeApi := by decide +kernel
  exact ⟨s, ex, hit, hrun, hex, hmem, hit_from_own_upstream hdoh hapi hrun hex hmem⟩

/-- With the hosts as deployed, a query to the Korean host is answered with what the upstream of
the other host said. -/
theorem hit_from_other_upstream : ∃ (s : GatewayState) (ex exj : Exchange) (hit : CacheHit),
    (exampleGateway true).Run fnvHasher dnsEvents s ∧
    s.exchanges 1 = some ex ∧ hit ∈ ex.hits ∧ hit.source = some 0 ∧ s.exchanges 0 = some exj ∧
    bodyOf dnsEvents 0 = exampleAnswer ∧ ex.reply.map Prod.snd = some (exampleAnswer.set 28 43) ∧
    exj.plan.upstreamName = ascii "adguard_dns_doh" ∧
    ex.plan.upstreamName = ascii "adguard_korea_doh" := by
  obtain ⟨s, exj, ex, hit, hrun, hexj, hex, hmem, hsource, hup, hup', hreply⟩ := dnsRun_spec true
  exact ⟨s, ex, exj, hit, hrun, hex, hmem, hsource, hexj, by decide +kernel, hreply, hup, hup'⟩

end Pingola
