import Pingola.Gateway.HostLookup
import Pingola.UpstreamH3.Registry

/-!
# A plan for every request

What `validate` demands of hosts and upstreams is what `start` and `Gateway::with_shared` need: the registry
starts, the gateway is prepared, every path of a proxied domain has a plan, and the pool of a plan is found
under the name that its peer carries.
-/

namespace Pingola
open ByteText

/-- What start-up takes from its surroundings. -/
structure Platform where
  parseSocketAddr : Bytes → Option SocketAddr
  toSocketAddrs : Bytes → Option (List SocketAddr)
  isIpAddr : Bytes → Bool
  http : HttpCrate

/-- The surroundings of a gateway that is given a registry. -/
def Platform.surroundings (platform : Platform) (registry : List StartedUpstream) : Surroundings where
  parseSocketAddr := platform.parseSocketAddr
  toSocketAddrs := platform.toSocketAddrs
  hasH3Route name := (registry.find? fun u => u.name = name).isSome
  http := platform.http

/-! ### What validation demands -/

section

variable {upstreams : SortedMap Bytes UpstreamConfig} {name : Bytes} {host : HostConfig}

/-- The upstreams that the routes of a proxied host may name are configured. -/
lemma containsKey_of_checkHost (h : checkHost upstreams name host = .ok ()) (hproxy : host.handler.isStatic = false) :
    (∃ upstream, host.upstream = some upstream ∧ upstreams.containsKey upstream = true) ∧
      ∀ required, requiredDohUpstream host.handler = some required → upstreams.containsKey required = true := by
  rw [checkHost] at h
  obtain ⟨-, -, h⟩ := except_bind_eq_ok.mp h
  obtain ⟨-, -, h⟩ := except_bind_eq_ok.mp h
  rw [if_neg (by rw [hproxy]; exact Bool.false_ne_true)] at h
  cases hupstream : host.upstream with
  | none =>
    rw [hupstream] at h
    cases h
  | some upstream =>
    rw [hupstream] at h
    obtain ⟨⟨⟩, hknown, h⟩ := except_bind_eq_ok.mp h
    refine ⟨⟨upstream, rfl, by simpa using bailIf_eq_ok.mp hknown⟩, fun required hrequired => ?_⟩
    rw [hrequired] at h
    simpa using bailIf_eq_ok.mp h

lemma checkHost_of_validateHosts {seen : List (Bytes × Bytes)} {hosts : List (Bytes × HostConfig)}
    (h : validateHosts upstreams seen hosts = .ok ()) (hmem : (name, host) ∈ hosts) :
    checkHost upstreams name host = .ok () := by
  induction hosts generalizing seen with
  | nil => cases hmem
  | cons first hosts ih =>
    rw [validateHosts] at h
    obtain ⟨⟨⟩, hfirst, h⟩ := except_bind_eq_ok.mp h
    obtain ⟨seen', -, h⟩ := except_bind_eq_ok.mp h
    rcases List.mem_cons.mp hmem with rfl | hmem
    · exact hfirst
    · exact ih h hmem

/-- An upstream over HTTP/3 has a name for its certificate. -/
lemma sni_of_validateUpstream {upstream : UpstreamConfig} (h : validateUpstream name upstream = .ok ())
    (hh3 : upstream.protocol.usesHttp3 = true) : upstream.tls = true ∧ upstream.sni.getD [] ≠ [] := by
  rw [validateUpstream] at h
  obtain ⟨-, -, h⟩ := except_bind_eq_ok.mp h
  obtain ⟨⟨⟩, hsni, h⟩ := except_bind_eq_ok.mp h
  -- the ranges of its numbers come between
  iterate 8 obtain ⟨-, -, h⟩ := except_bind_eq_ok.mp h
  obtain ⟨⟨⟩, htls, -⟩ := except_bind_eq_ok.mp h
  have htls : upstream.tls = true := by simpa [hh3] using bailIf_eq_ok.mp htls
  refine ⟨htls, ?_⟩
  simpa [htls] using bailIf_eq_ok.mp hsni

end

/-- What validation says about the parts that the plans are made from. -/
lemma RuntimeConfig.hosts_and_upstreams {parseSocketAddr : Bytes → Option SocketAddr}
    (runtime : RuntimeConfig parseSocketAddr) :
    (∀ name host, (name, host) ∈ runtime.config.hosts.entries →
        checkHost runtime.config.upstreams name host = .ok ()) ∧
      ∀ name upstream, (name, upstream) ∈ runtime.config.upstreams.entries →
        validateUpstream name upstream = .ok () := by
  have h := runtime.valid
  rw [validate] at h
  iterate 3 obtain ⟨-, -, h⟩ := except_bind_eq_ok.mp h
  obtain ⟨⟨⟩, hhosts, h⟩ := except_bind_eq_ok.mp h
  obtain ⟨⟨⟩, hupstreams, -⟩ := except_bind_eq_ok.mp h
  exact ⟨fun name host => checkHost_of_validateHosts hhosts, fun name upstream hmem => forM_eq_ok hupstreams hmem⟩

/-! ### The registry starts -/

section

variable {toSocketAddrs : Bytes → Option (List SocketAddr)} {isIpAddr : Bytes → Bool}

lemma exists_startUpstream {name : Bytes} {upstream : UpstreamConfig}
    (hvalid : validateUpstream name upstream = .ok ())
    (haddress : ∃ address rest, toSocketAddrs upstream.address = some (address :: rest)) :
    ∃ started, startUpstream toSocketAddrs isIpAddr name upstream = .ok started := by
  obtain ⟨address, rest, haddress⟩ := haddress
  rw [startUpstream]
  cases hh3 : upstream.protocol.usesHttp3 with
  | false => exact ⟨none, rfl⟩
  | true =>
    obtain ⟨htls, hsni⟩ := sni_of_validateUpstream hvalid hh3
    obtain ⟨sni, hsome, hne⟩ : ∃ sni, upstream.sni = some sni ∧ sni ≠ [] := by
      cases hs : upstream.sni with
      | none => exact absurd (by rw [hs]; rfl) hsni
      | some sni => exact ⟨sni, rfl, by rwa [hs] at hsni⟩
    have horigin : resolveOrigin toSocketAddrs name upstream = .ok address := by
      rw [resolveOrigin, haddress]
      rfl
    have hserver : upstreamServerName isIpAddr name upstream = .ok sni := by
      rw [upstreamServerName, hsome, Option.filter_some, if_pos (by simp [hne])]
    rw [htls, horigin, hserver]
    exact ⟨_, rfl⟩

lemma exists_startUpstreams {entries : List (Bytes × UpstreamConfig)}
    (h : ∀ name upstream, (name, upstream) ∈ entries →
      ∃ started, startUpstream toSocketAddrs isIpAddr name upstream = .ok started) :
    ∃ registry, startUpstreams toSocketAddrs isIpAddr entries = .ok registry := by
  induction entries with
  | nil => exact ⟨[], rfl⟩
  | cons entry rest ih =>
    obtain ⟨started, hstarted⟩ := h entry.1 entry.2 List.mem_cons_self
    obtain ⟨registry, hregistry⟩ := ih fun name upstream hmem => h name upstream (List.mem_cons_of_mem _ hmem)
    refine ⟨started.toList ++ registry, ?_⟩
    rw [startUpstreams, hstarted, hregistry]
    rfl

end

/-! ### The plans of a domain -/

section

variable {make : RouteClass → Option PreparedPlan} {routes : List RouteClass}

/-- New plans come after those that are there. -/
lemma exists_preparePlans_append (make : RouteClass → Option PreparedPlan) (routes : List RouteClass)
    (plans : List PreparedPlan) : ∃ more, (preparePlans make routes plans).2 = plans ++ more := by
  induction routes generalizing plans with
  | nil => exact ⟨[], (List.append_nil plans).symm⟩
  | cons route routes ih =>
    rw [preparePlans]
    cases make route with
    | none => exact ih plans
    | some plan =>
      obtain ⟨more, hmore⟩ := ih (plans ++ [plan])
      exact ⟨plan :: more, by rw [hmore, List.append_assoc]; rfl⟩

/-- The index of a route leads to its plan. -/
lemma preparePlans_getElem {j : ℕ} {route : RouteClass} {plan : PreparedPlan} (hroute : routes[j]? = some route)
    (hplan : make route = some plan) (plans : List PreparedPlan) :
    ∃ i, (preparePlans make routes plans).1[j]? = some (some i) ∧
      (preparePlans make routes plans).2[i]? = some plan := by
  induction routes generalizing j plans with
  | nil => cases hroute
  | cons first routes ih =>
    rw [preparePlans]
    cases j with
    | zero =>
      obtain rfl := Option.some.inj hroute
      rw [hplan]
      obtain ⟨more, hmore⟩ := exists_preparePlans_append make routes (plans ++ [plan])
      refine ⟨plans.length, rfl, ?_⟩
      dsimp only
      rw [hmore, List.append_assoc, List.getElem?_append_right le_rfl, Nat.sub_self]
      rfl
    | succ j =>
      cases make first with
      | none => exact ih hroute plans
      | some made => exact ih hroute (plans ++ [made])

end

/-! ### The plans of all domains -/

section

variable {env : Surroundings} {config : Config} {upstreams : List PreparedUpstream}
  {entries : List (Bytes × HostConfig × Bytes)} {routing routing' : PreparedRouting}

lemma exists_prepareDomains (h : ∀ entry ∈ entries, (env.http.headerValueFromStr entry.2.2).isSome = true)
    (routing : PreparedRouting) : ∃ routing', prepareDomains env config upstreams entries routing = .ok routing' := by
  induction entries generalizing routing with
  | nil => exact ⟨routing, rfl⟩
  | cons entry entries ih =>
    obtain ⟨value, hvalue⟩ := Option.isSome_iff_exists.mp (h entry List.mem_cons_self)
    rw [prepareDomains, hvalue]
    exact ih (fun entry hentry => h entry (List.mem_cons_of_mem _ hentry)) _

lemma exists_prepareDomains_append (h : prepareDomains env config upstreams entries routing = .ok routing') :
    ∃ more, routing'.plans = routing.plans ++ more := by
  induction entries generalizing routing with
  | nil =>
    obtain rfl := Except.ok.inj h
    exact ⟨[], (List.append_nil _).symm⟩
  | cons entry entries ih =>
    rw [prepareDomains] at h
    split_ifs at h
    obtain ⟨later, hlater⟩ := ih h
    obtain ⟨own, hown⟩ := exists_preparePlans_append
      (preparePlan config upstreams entry.2.1 entry.2.2) RouteClass.all routing.plans
    refine ⟨own ++ later, ?_⟩
    rw [hlater, prepareDomain, hown, List.append_assoc]

lemma all_getElem_index (route : RouteClass) : RouteClass.all[route.index]? = some route := by
  cases route <;> rfl

/-- The host of a domain has an index for each route that a plan is made for, and the index leads to it. -/
lemma prepareDomains_planOf {entry : Bytes × HostConfig × Bytes}
    (h : prepareDomains env config upstreams entries routing = .ok routing') (hentry : entry ∈ entries)
    (hnodup : (entries.map fun entry => entry.2.2).Nodup) :
    ∃ prepared, routing'.hosts.lookup entry.2.2 = some prepared ∧ PreparedFor entry prepared ∧
      ∀ route plan, preparePlan config upstreams entry.2.1 entry.2.2 route = some plan →
        ∃ i, prepared.planOf route = some i ∧ routing'.plans[i]? = some plan := by
  induction entries generalizing routing with
  | nil => cases hentry
  | cons first entries ih =>
    rw [List.map_cons, List.nodup_cons] at hnodup
    rw [prepareDomains] at h
    split_ifs at h
    rcases List.mem_cons.mp hentry with rfl | hentry
    · rw [prepareDomains_lookup_of_not_mem h hnodup.1, prepareDomain, AList.lookup_insert]
      refine ⟨_, rfl, ⟨rfl, rfl, rfl, rfl⟩, fun route plan hplan => ?_⟩
      obtain ⟨i, hindex, hget⟩ := preparePlans_getElem (all_getElem_index route) hplan routing.plans
      obtain ⟨more, hmore⟩ := exists_prepareDomains_append h
      refine ⟨i, by rw [PreparedHost.planOf, hindex]; rfl, ?_⟩
      rw [hmore, prepareDomain, List.getElem?_append_left (List.getElem?_eq_some_iff.mp hget).1]
      exact hget
    · exact ih h hentry hnodup.2

end

/-! ### The upstream of a plan -/

lemma exists_prepareUpstream {env : Surroundings} {name : Bytes} {upstream : UpstreamConfig}
    (haddress : ∃ address rest, env.toSocketAddrs upstream.address = some (address :: rest)) :
    ∃ prepared, prepareUpstream env name upstream = .ok prepared := by
  obtain ⟨address, rest, haddress⟩ := haddress
  rw [prepareUpstream, haddress]
  exact ⟨_, rfl⟩

/-- The plan was prepared from the configured upstream of the given name. -/
def BuiltFrom (env : Surroundings) (config : Config) (plan : PreparedPlan) (name : Bytes) : Prop :=
  ∃ upstream prepared, (name, upstream) ∈ config.upstreams.entries ∧
    prepareUpstream env name upstream = .ok prepared ∧ plan.upstreamName = name ∧
    plan.peer = prepareRoutePeer prepared plan.route ∧ plan.h3 = prepareRouteH3 prepared plan.route

section

variable {env : Surroundings} {config : Config} {upstreams : List PreparedUpstream}

lemma exists_preparePlan
    (hupstreams : config.upstreams.entries.mapM (fun p => prepareUpstream env p.1 p.2) = .ok upstreams)
    {host : HostConfig} {route : RouteClass} {name : Bytes}
    (hname : planUpstreamName upstreams host route = some name) (hknown : config.upstreams.containsKey name = true)
    (domain : Bytes) :
    ∃ plan, preparePlan config upstreams host domain route = some plan ∧ plan.route = route ∧
      BuiltFrom env config plan name := by
  rw [SortedMap.containsKey, SortedMap.get?, Option.isSome_map, Option.isSome_iff_exists] at hknown
  obtain ⟨⟨key, upstream⟩, hentry⟩ := hknown
  obtain rfl : key = name := by simpa using List.find?_some hentry
  obtain ⟨prepared, hprepared, hfind⟩ := find_of_mapM_ok (q := fun u => u.name = key) hupstreams
    (fun p u hu => by rw [(prepareUpstream_spec hu).1]) hentry
  rw [preparePlan, hname, Option.bind_eq_bind, Option.bind_some, hfind]
  exact ⟨_, rfl, rfl, upstream, prepared, List.mem_of_find?_eq_some hentry, hprepared, rfl, rfl, rfl⟩

/-- A dedicated upstream serves the gRPC route only. -/
lemma planUpstreamName_of_ne {host : HostConfig} {route : RouteClass} (h : route ≠ .navidromeGrpc) :
    planUpstreamName upstreams host route = upstreamNameForRoute host.handler host.upstream route := by
  rw [planUpstreamName, if_neg (by simp [h])]

/-- Every path of a proxied host has a route, whose upstream is the configured or the required one. -/
lemma exists_classifyRoute {handler : HandlerKind} (h : handler.isStatic = false) (configured path : Bytes) :
    ∃ route, classifyRoute handler path = some route ∧ route ≠ .navidromeGrpc ∧
      ∃ name, upstreamNameForRoute handler (some configured) route = some name ∧
        (name = configured ∨ requiredDohUpstream handler = some name) := by
  cases handler with
  | static => cases h
  | navidromeMain | navidromeCdn | vaultwarden =>
    rw [classifyRoute]
    split_ifs
    all_goals exact ⟨_, rfl, by decide, _, rfl, .inl rfl⟩
  | couchdb => exact ⟨_, rfl, by decide, _, rfl, .inl rfl⟩
  | adguardDns | adguardKorea =>
    rw [classifyRoute]
    split_ifs
    · exact ⟨_, rfl, by decide, _, rfl, .inr rfl⟩
    · exact ⟨_, rfl, by decide, _, rfl, .inl rfl⟩

/-- The gRPC route of Navidrome has its own upstream if there is one, and else that of the host. -/
lemma exists_planUpstreamName_grpc
    (hupstreams : config.upstreams.entries.mapM (fun p => prepareUpstream env p.1 p.2) = .ok upstreams)
    {host : HostConfig} (hnavidrome : isNavidrome host.handler = true) {upstream : Bytes}
    (hupstream : host.upstream = some upstream) (hknown : config.upstreams.containsKey upstream = true) :
    ∃ name, planUpstreamName upstreams host .navidromeGrpc = some name ∧
      config.upstreams.containsKey name = true := by
  rw [planUpstreamName]
  split_ifs with hdedicated
  · refine ⟨_, rfl, ?_⟩
    simp only [Bool.and_eq_true, List.any_eq_true, decide_eq_true_eq] at hdedicated
    obtain ⟨-, u, hu, hname⟩ := hdedicated
    obtain ⟨p, hp, hprepared⟩ := exists_of_mem_mapM_ok hupstreams hu
    have hkey : p.1 = navidromeGrpcUpstream := (prepareUpstream_spec hprepared).1.symm.trans hname
    rw [SortedMap.containsKey, SortedMap.get?, Option.isSome_map, List.find?_isSome]
    exact ⟨p, hp, decide_eq_true hkey⟩
  · refine ⟨upstream, ?_, hknown⟩
    rw [hupstream]
    cases hhandler : host.handler <;> first | rfl | (rw [hhandler] at hnavidrome; cases hnavidrome)

end

/-! ### Every request -/

section

variable {platform : Platform} {runtime : RuntimeConfig platform.parseSocketAddr} {registry : List StartedUpstream}
  {routing : PreparedRouting}

/-- The pool of a plan is that of the upstream of the plan. -/
lemma poolForPeer_of_mem
    (hnames : ∀ entry ∈ runtime.config.upstreams.entries, entry.1 ≠ [])
    (hshared : withShared (platform.surroundings registry) runtime = .ok routing) {plan : PreparedPlan}
    (hplan : plan ∈ routing.plans) {peer : HttpPeer} (hpeer : plan.h3 = some peer) :
    ∃ pool, poolForPeer registry peer = .ok pool ∧ pool.name = plan.upstreamName ∧ pool ∈ registry := by
  obtain ⟨entry, hentry, upstream, route, hprepared, hname, -, hh3⟩ := exists_preparedUpstream hshared hplan
  obtain ⟨own, hown, hsni, -⟩ := prepareRouteH3_eq_some (hh3.symm.trans hpeer)
  obtain ⟨hroute, hsni', -⟩ := (prepareUpstream_spec hprepared).2.2 own hown
  obtain ⟨pool, hpool⟩ := Option.isSome_iff_exists.mp hroute
  have hne := hnames entry hentry
  have hpoolName : pool.name = entry.1 := by simpa using List.find?_some hpool
  refine ⟨pool, ?_, hpoolName.trans hname.symm, List.mem_of_find?_eq_some hpool⟩
  rw [poolForPeer, hsni.trans hsni', if_neg (by simp [hne]), hpool]

end

/-- When the upstreams have names and addresses and the domains can be written into headers, the gateway
starts. Every path of a proxied domain then has a plan for its route, made from the upstream of the route,
Navidrome has a plan for gRPC as well, and the pool of every peer over HTTP/3 is that of its upstream. -/
theorem every_request_has_plan (platform : Platform) (runtime : RuntimeConfig platform.parseSocketAddr)
    (hnames : ∀ entry ∈ runtime.config.upstreams.entries, entry.1 ≠ [])
    (haddresses : ∀ entry ∈ runtime.config.upstreams.entries, ∃ address rest,
      platform.toSocketAddrs entry.2.address = some (address :: rest))
    (hdomains : ∀ domain ∈ domains runtime.config, (platform.http.headerValueFromStr domain).isSome = true) :
    ∃ registry routing,
      startUpstreams platform.toSocketAddrs platform.isIpAddr runtime.config.upstreams.entries = .ok registry ∧
      withShared (platform.surroundings registry) runtime = .ok routing ∧
      (∀ name host, (name, host) ∈ runtime.config.hosts.entries → host.handler.isStatic = false →
        ∀ domain ∈ host.domains, ∃ prepared, routing.hosts.lookup domain = some prepared ∧
          prepared.name = name ∧ prepared.handler = host.handler ∧
          (∀ path, ∃ i plan upstreamName, prepared.plan path = some i ∧ routing.plans[i]? = some plan ∧
            classifyRoute host.handler path = some plan.route ∧
            upstreamNameForRoute host.handler host.upstream plan.route = some upstreamName ∧
            BuiltFrom (platform.surroundings registry) runtime.config plan upstreamName) ∧
          (isNavidrome host.handler = true → ∃ i plan, prepared.planOf .navidromeGrpc = some i ∧
            routing.plans[i]? = some plan ∧ plan.route = .navidromeGrpc)) ∧
      ∀ plan ∈ routing.plans, ∀ peer, plan.h3 = some peer → ∃ pool upstream,
        poolForPeer registry peer = .ok pool ∧ pool.name = plan.upstreamName ∧
          (plan.upstreamName, upstream) ∈ runtime.config.upstreams.entries ∧
          startUpstream platform.toSocketAddrs platform.isIpAddr plan.upstreamName upstream = .ok (some pool) := by
  obtain ⟨hhosts, hvalid⟩ := runtime.hosts_and_upstreams
  obtain ⟨registry, hregistry⟩ : ∃ registry, startUpstreams platform.toSocketAddrs platform.isIpAddr
      runtime.config.upstreams.entries = .ok registry :=
    exists_startUpstreams fun name upstream hmem =>
      exists_startUpstream (hvalid name upstream hmem) (haddresses _ hmem)
  obtain ⟨upstreams, hupstreams⟩ : ∃ upstreams, runtime.config.upstreams.entries.mapM
      (fun p => prepareUpstream (platform.surroundings registry) p.1 p.2) = .ok upstreams :=
    exists_mapM_ok fun entry hentry => exists_prepareUpstream (haddresses entry hentry)
  obtain ⟨routing, hrouting⟩ : ∃ routing, prepareDomains (platform.surroundings registry) runtime.config upstreams
      (hostDomains runtime.config) ⟨∅, []⟩ = .ok routing :=
    exists_prepareDomains (fun entry hentry => hdomains _ (List.mem_map_of_mem hentry)) _
  have hshared : withShared (platform.surroundings registry) runtime = .ok routing :=
    except_bind_eq_ok.mpr ⟨upstreams, hupstreams, hrouting⟩
  refine ⟨registry, routing, hregistry, hshared, ?_, ?_⟩
  · intro name host hmem hproxy domain hdomain
    obtain ⟨⟨configured, hconfigured, hknown⟩, hrequired⟩ := containsKey_of_checkHost (hhosts name host hmem) hproxy
    have hentry : (name, host, domain) ∈ hostDomains runtime.config :=
      List.mem_flatMap.mpr ⟨(name, host), hmem, List.mem_map_of_mem hdomain⟩
    obtain ⟨prepared, hlookup, hfor, hplans⟩ := prepareDomains_planOf hrouting hentry
      (List.Nodup.of_map _ runtime.domains_spec.2)
    refine ⟨prepared, hlookup, hfor.name, hfor.handler, fun path => ?_, fun hnavidrome => ?_⟩
    · obtain ⟨route, hroute, hgrpc, upstreamName, hname, hsource⟩ := exists_classifyRoute hproxy configured path
      rw [← hconfigured] at hname
      have hupstreamKnown : runtime.config.upstreams.containsKey upstreamName = true := by
        rcases hsource with rfl | hsource
        · exact hknown
        · exact hrequired upstreamName hsource
      obtain ⟨plan, hplan, rfl, hbuilt⟩ := exists_preparePlan hupstreams
        ((planUpstreamName_of_ne hgrpc).trans hname) hupstreamKnown domain
      obtain ⟨i, hindex, hget⟩ := hplans plan.route plan hplan
      refine ⟨i, plan, upstreamName, ?_, hget, hroute, hname, hbuilt⟩
      rw [PreparedHost.plan, hfor.handler, hroute, Option.bind_some, hindex]
    · obtain ⟨upstreamName, hname, hupstreamKnown⟩ :=
        exists_planUpstreamName_grpc hupstreams hnavidrome hconfigured hknown
      obtain ⟨plan, hplan, hroute, -⟩ := exists_preparePlan hupstreams hname hupstreamKnown domain
      obtain ⟨i, hindex, hget⟩ := hplans .navidromeGrpc plan hplan
      exact ⟨i, plan, hindex, hget, hroute⟩
  · intro plan hplan peer hpeer
    obtain ⟨pool, hpool, hname, hmem⟩ := poolForPeer_of_mem hnames hshared hplan hpeer
    obtain ⟨upstream, hentry, hstarted⟩ := exists_startUpstream_of_mem hregistry hmem
    rw [hname] at hentry hstarted
    exact ⟨pool, upstream, hpool, hname, hentry, hstarted⟩

def examplePlatform : Platform where
  parseSocketAddr := parseSocketAddrV4
  toSocketAddrs address := (parseSocketAddrV4 address).map ([·])
  isIpAddr text := (text.splitOn (byte '.')).length == 4
  http := .reference

/-- The upstreams have names, and their addresses resolve. -/
def upstreamsReady (platform : Platform) (config : Config) : Bool :=
  config.upstreams.entries.all fun entry =>
    !entry.1.isEmpty && ((platform.toSocketAddrs entry.2.address).bind List.head?).isSome

lemma of_upstreamsReady (platform : Platform) (config : Config) (h : upstreamsReady platform config = true) :
    (∀ entry ∈ config.upstreams.entries, entry.1 ≠ []) ∧
      ∀ entry ∈ config.upstreams.entries, ∃ address rest,
        platform.toSocketAddrs entry.2.address = some (address :: rest) := by
  rw [upstreamsReady, List.all_eq_true] at h
  refine ⟨fun entry hentry => ?_, fun entry hentry => ?_⟩
  · have hready := h entry hentry
    rw [Bool.and_eq_true, Bool.not_eq_true', List.isEmpty_eq_false_iff] at hready
    exact hready.1
  · have hready := h entry hentry
    rw [Bool.and_eq_true, Option.isSome_iff_exists] at hready
    obtain ⟨-, address, hhead⟩ := hready
    obtain ⟨addresses, haddresses, hhead⟩ := Option.bind_eq_some_iff.mp hhead
    obtain ⟨rest, rfl⟩ := List.head?_eq_some_iff.mp hhead
    exact ⟨address, rest, haddresses⟩

/-- The deployed configuration starts and has a plan for every path of the Navidrome domain. -/
theorem deployed_requests_have_plans :
    ∃ registry routing prepared,
      startUpstreams examplePlatform.toSocketAddrs examplePlatform.isIpAddr
        (exampleRuntime true).config.upstreams.entries = .ok registry ∧
      withShared (examplePlatform.surroundings registry) (exampleRuntime true) = .ok routing ∧
      routing.hosts.lookup (ascii "music.tae00217.cloud") = some prepared ∧
      ∀ path, (prepared.plan path).isSome = true := by
  have hready := of_upstreamsReady examplePlatform (exampleRuntime true).config (by decide +kernel)
  obtain ⟨registry, routing, hregistry, hrouting, hplans, -⟩ := every_request_has_plan examplePlatform
    (exampleRuntime true) hready.1 hready.2 (by decide +kernel)
  obtain ⟨prepared, hlookup, -, -, hpath, -⟩ := hplans (ascii "navidrome_main")
    { domains := [ascii "music.tae00217.cloud"]
      handler := .navidromeMain
      upstream := some (ascii "navidrome") } (.tail _ (.tail _ (.head _))) rfl _ (.head _)
  refine ⟨registry, routing, prepared, hregistry, hrouting, hlookup, fun path => ?_⟩
  obtain ⟨i, plan, upstreamName, hi, -⟩ := hpath path
  rw [hi, Option.isSome_some]

/-- A domain with a control character in it. -/
def controlDomain : Bytes := ascii "sync" ++ 1 :: ascii ".tae00217.cloud"

def controlRuntime : RuntimeConfig examplePlatform.parseSocketAddr where
  config :=
    { exampleConfig .adguardKorea with
      hosts := ⟨[(ascii "couchdb",
        { domains := [controlDomain]
          handler := .couchdb
          upstream := some (ascii "navidrome") })], by simp⟩ }
  valid := by decide +kernel

/-- A validated domain that cannot be written into a header keeps the gateway from starting. -/
theorem control_domain_has_no_plan :
    upstreamsReady examplePlatform controlRuntime.config = true ∧
      controlDomain ∈ domains controlRuntime.config ∧
      (controlRuntime.config.hosts.entries.all fun p => !p.2.handler.isStatic) = true ∧
      (startUpstreams examplePlatform.toSocketAddrs examplePlatform.isIpAddr
        controlRuntime.config.upstreams.entries).toOption.map List.length = some 0 ∧
      (withShared (examplePlatform.surroundings []) controlRuntime).isOk = false := by
  refine ⟨by decide +kernel, by decide +kernel, by decide +kernel, by decide +kernel, by decide +kernel⟩

end Pingola
