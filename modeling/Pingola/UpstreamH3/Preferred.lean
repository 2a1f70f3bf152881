import Pingola.Gateway.Transparency
import Pingola.UpstreamH3.Registry

/-!
# Preferred routes and their pools

Routing, the pool of an upstream and the managers of its shards as one system. A preferred route sends
requests to the pool only when it is available. Without a warmup the managers wait for a request before
they connect, and a pool that has never been connected is not available.
-/

namespace Pingola
open ByteText

/-- A gateway with its registry of upstreams over HTTP/3. -/
structure H3Gateway (env : Surroundings) (isIpAddr : Bytes → Bool) extends Gateway env where
  registry : List StartedUpstream
  started : startUpstreams env.toSocketAddrs isIpAddr runtime.config.upstreams.entries = .ok registry
  routes : ∀ name, env.hasH3Route name = registry.any fun u => u.name = name

/-- `precomputed_upstream_peer`, given what the flag of the upstream holds. -/
def PreparedPlan.upstreamPeer (plan : PreparedPlan) (route : H3Route) (available grpc tcpFallback : Bool) :
    HttpPeer :=
  if grpc then plan.peer
  else
    match plan.h3 with
    | some h3 => if route.shouldUseDirectH3 available tcpFallback then h3 else plan.peer
    | none => plan.peer

/-- A custom protocol selects the connector of the pools. -/
def HttpPeer.isCustom (peer : HttpPeer) : Bool :=
  match peer.alpn with
  | .custom _ => true
  | _ => false

/-- The command that a manager takes from its channel in a step. -/
def ManagerEvent.takes : ManagerEvent → Option Command
  | .receive command _ => some command
  | .work (.command command _) _ => some command
  | _ => none

/-- The handle of a request that was opened sends a further command. -/
def Command.follows (nextId : ℕ) : Command → Bool
  | .opens _ _ _ _ _ => false
  | .body id _ _ => 1 ≤ id && id < nextId
  | .trailers id _ => 1 ≤ id && id < nextId
  | .cancel id => 1 ≤ id && id < nextId

/-- `request` is a client request whose plan is for the upstream, with what the connector would ask the
pool for; `release` the end of a request, which frees its slot. -/
inductive ProxyEvent (n : ℕ) where
  | request (planIndex : ℕ) (grpc tcpFallback : Bool) (request : OpenRequest)
  | follow (shard : Fin n) (command : Command)
  | release (shard : Fin n)
  | manage (shard : Fin n) (e : ManagerEvent)

/-- The managers of an upstream, and the pool that sends to them. -/
structure UpstreamSystem (n : ℕ) where
  managers : Pool (Fin n)
  pool : H3Pool n

namespace UpstreamSystem

def start (u : StartedUpstream) : UpstreamSystem u.size := ⟨.start, u.newPool⟩

/-- The manager of a shard has not returned. -/
def alive {n : ℕ} (s : UpstreamSystem n) (shard : Fin n) : Bool :=
  match (s.managers.shards shard).point with
  | .stopped => false
  | _ => true

section

variable (C : HttpCrate) (plans : List PreparedPlan) (u : StartedUpstream) (s : UpstreamSystem u.size)

/-- A request of a plan goes to the pool if its peer is for the connector of the pools. -/
def proxy (plan : PreparedPlan) (grpc tcpFallback : Bool) (request : OpenRequest) : Option (UpstreamSystem u.size) :=
  if (plan.upstreamPeer u.route s.managers.available grpc tcpFallback).isCustom then
    if (s.pool.shards s.pool.selectShard).commands.length < u.commandCapacity then
      some { s with pool := (s.pool.openRequest s.alive request).1 }
    else none
  else some s

def step : ProxyEvent u.size → Option (UpstreamSystem u.size)
  | .request planIndex grpc tcpFallback request =>
    plans[planIndex]?.bind fun plan =>
      if plan.upstreamName = u.name then s.proxy u plan grpc tcpFallback request else none
  | .follow shard command =>
    let sender := s.pool.shards shard
    if command.follows sender.nextId && sender.commands.length < u.commandCapacity then
      some { s with pool := s.pool.setShard shard { sender with commands := sender.commands ++ [command] } }
    else none
  | .release shard =>
    let sender := s.pool.shards shard
    if sender.requestSlots < u.perShardCapacity then
      some { s with pool := s.pool.setShard shard { sender with requestSlots := sender.requestSlots + 1 } }
    else none
  | .manage shard e =>
    (s.managers.step C u.settings (shard, e)).bind fun managers =>
      (e.takes.elim (some s.pool) (s.pool.take shard)).map fun pool => ⟨managers, pool⟩

/-- A state that the system of an upstream comes to. -/
def Reachable : Prop := Runs.Reaches (fun s e s' => step C plans u s e = some s') (start u) s

end

end UpstreamSystem

/-! ### The peers of a plan -/

lemma isCustom_of_upstreamAlpn {peer : HttpPeer} {upstream : UpstreamConfig} (h : peer.alpn = upstreamAlpn upstream) :
    peer.isCustom = false := by
  rw [HttpPeer.isCustom, h, upstreamAlpn]
  cases upstream.protocol <;> cases upstream.tls <;> rfl

lemma prepareRoutePeer_isCustom {upstream : PreparedUpstream} {route : RouteClass}
    (h : upstream.peer.isCustom = false) : (prepareRoutePeer upstream route).isCustom = false := by
  by_cases hhub : route = .vaultwardenHub
  · simp [prepareRoutePeer, HttpPeer.isCustom, hhub]
  · simpa [prepareRoutePeer, HttpPeer.isCustom, hhub] using h

/-- Of the peers of a plan only the one for HTTP/3 is for the connector of the pools. -/
lemma isCustom_of_mem_plans {env : Surroundings} (g : Gateway env) {plan : PreparedPlan}
    (hplan : plan ∈ g.routing.plans) :
    plan.peer.isCustom = false ∧ ∀ peer, plan.h3 = some peer → peer.isCustom = true := by
  obtain ⟨p, -, upstream, route, hupstream, -, hpeer, hh3⟩ := exists_preparedUpstream g.prepared hplan
  obtain ⟨-, halpn, hcustom⟩ := prepareUpstream_spec hupstream
  rw [hpeer, hh3]
  refine ⟨prepareRoutePeer_isCustom (isCustom_of_upstreamAlpn halpn), fun peer hroute => ?_⟩
  obtain ⟨own, hown, -, hsame⟩ := prepareRouteH3_eq_some hroute
  rw [HttpPeer.isCustom, hsame, (hcustom own hown).2.2]

/-! ### Without a warmup -/

/-- A manager that has not connected, and is not about to. -/
structure Manager.Idle (m : Manager) : Prop where
  connectedOnce : m.connectedOnce = false
  point : m.point = .top ∨ m.point = .waiting ∨ m.point = .stopped

/-- Without a warmup only a command makes an idle manager connect. -/
lemma Manager.Idle.step {C : HttpCrate} {settings : PoolSettings} {m m' : Manager} {available : Bool}
    {e : ManagerEvent} (h : m.Idle) (hwarmup : settings.warmupPath = none) (htakes : e.takes = none)
    (hstep : m.step C settings available e = some m') :
    m'.Idle ∧ m.flag settings available e = available := by
  cases e with
  | choose setup =>
    rcases h.point with hpoint | hpoint | hpoint
    · simp only [Manager.step, hpoint, canResumeEarly, h.connectedOnce, hwarmup, Option.isNone_none,
        Bool.not_false, Bool.false_and, Bool.and_self, Bool.false_eq_true, if_true, if_false,
        Option.some.injEq] at hstep
      subst hstep
      exact ⟨⟨rfl, .inr (.inl rfl)⟩, by simp [flag, canResumeEarly, h.connectedOnce]⟩
    · simp [Manager.step, hpoint] at hstep
    · simp [Manager.step, hpoint] at hstep
  | receive command setup => cases htakes
  | hangUp =>
    rcases h.point with hpoint | hpoint | hpoint
    · simp [Manager.step, hpoint] at hstep
    · simp only [Manager.step, hpoint, Option.some.injEq] at hstep
      subst hstep
      exact ⟨⟨h.connectedOnce, .inr (.inr rfl)⟩, rfl⟩
    · simp [Manager.step, hpoint] at hstep
  | _ => rcases h.point with hpoint | hpoint | hpoint <;> simp [Manager.step, hpoint] at hstep

/-- A preferred route does not use a pool that is not available. -/
lemma PreparedPlan.upstreamPeer_unavailable (plan : PreparedPlan) (grpc tcpFallback : Bool) :
    plan.upstreamPeer ⟨false, true⟩ false grpc tcpFallback = plan.peer := by
  cases grpc <;> cases tcpFallback <;> cases hh3 : plan.h3 <;>
    simp [upstreamPeer, hh3, H3Route.shouldUseDirectH3]

namespace UpstreamSystem

/-- No manager has connected, and no request was opened. -/
structure Cold {n : ℕ} (s : UpstreamSystem n) : Prop where
  available : s.managers.available = false
  idle : ∀ shard, (s.managers.shards shard).Idle
  commands : ∀ shard, (s.pool.shards shard).commands = []
  nextId : ∀ shard, (s.pool.shards shard).nextId = 1

variable {C : HttpCrate} {plans : List PreparedPlan} {u : StartedUpstream} {s s' : UpstreamSystem u.size}

lemma cold_start (u : StartedUpstream) : (start u).Cold :=
  ⟨rfl, fun _ => ⟨rfl, .inl rfl⟩, fun _ => rfl, fun _ => rfl⟩

lemma Cold.manage {shard : Fin u.size} {e : ManagerEvent} (h : s.Cold) (hwarmup : u.settings.warmupPath = none)
    (hstep : s.step C plans u (.manage shard e) = some s') : s'.Cold := by
  obtain ⟨managers, hmanagers, hrest⟩ := Option.bind_eq_some_iff.mp hstep
  obtain ⟨pool, hpool, rfl⟩ := Option.map_eq_some_iff.mp hrest
  cases htakes : e.takes with
  | some command =>
    -- the channel is empty
    rw [htakes, Option.elim_some, H3Pool.take, h.commands shard] at hpool
    cases hpool
  | none =>
    rw [htakes] at hpool
    obtain rfl := Option.some.inj hpool
    obtain ⟨m, hm, havailable, hshards⟩ := Pool.step_eq_some hmanagers
    obtain ⟨hidle, hflag⟩ := (h.idle shard).step hwarmup htakes hm
    refine ⟨?_, fun other => ?_, h.commands, h.nextId⟩
    · rw [havailable, hflag]
      exact h.available
    · rw [hshards]
      by_cases hself : other = shard
      · subst hself
        rw [Function.update_self]
        exact hidle
      · rw [Function.update_of_ne hself]
        exact h.idle other

lemma Cold.step {e : ProxyEvent u.size} (h : s.Cold) (hroute : u.route = ⟨false, true⟩)
    (hwarmup : u.settings.warmupPath = none) (hplans : ∀ plan ∈ plans, plan.peer.isCustom = false)
    (hstep : s.step C plans u e = some s') : s'.Cold := by
  cases e with
  | request planIndex grpc tcpFallback request =>
    obtain ⟨plan, hplan, hproxy⟩ := Option.bind_eq_some_iff.mp hstep
    split_ifs at hproxy
    rw [proxy, hroute, h.available, plan.upstreamPeer_unavailable,
      hplans plan (List.mem_of_getElem? hplan)] at hproxy
    obtain rfl := Option.some.inj hproxy
    exact h
  | follow shard command =>
    -- no request was opened, so no handle can send
    have hnone : command.follows (s.pool.shards shard).nextId = false := by
      rw [h.nextId shard]
      cases command <;> simp [Command.follows] <;> omega
    simp [UpstreamSystem.step, hnone] at hstep
  | release shard =>
    simp only [UpstreamSystem.step] at hstep
    split_ifs at hstep
    obtain rfl := Option.some.inj hstep
    refine ⟨h.available, h.idle, fun other => ?_, fun other => ?_⟩
    · by_cases hself : other = shard
      · subst hself
        simpa [H3Pool.setShard] using h.commands other
      · simpa [H3Pool.setShard, hself] using h.commands other
    · by_cases hself : other = shard
      · subst hself
        simpa [H3Pool.setShard] using h.nextId other
      · simpa [H3Pool.setShard, hself] using h.nextId other
  | manage shard e => exact h.manage hwarmup hstep

/-- Without a warmup the pool of a preferred upstream never comes to be available. -/
lemma unavailable_of_cold (hroute : u.route = ⟨false, true⟩) (hwarmup : u.settings.warmupPath = none)
    (hplans : ∀ plan ∈ plans, plan.peer.isCustom = false) (hreach : s.Reachable C plans u) :
    s.managers.available = false := by
  obtain ⟨es, hrun⟩ := hreach
  have h : s.Cold := by
    refine hrun.invariant (fun _ s => Cold s) ?_ (cold_start u)
    intro past s e s' hstep h
    exact h.step hroute hwarmup hplans hstep
  exact h.available

/-! ### With a warmup -/

lemma reachable_start : (start u).Reachable C plans u := .refl _

lemma Reachable.manage (h : s.Reachable C plans u) (shard : Fin u.size) {e : ManagerEvent} {m : Manager}
    (htakes : e.takes = none) (hm : (s.managers.shards shard).step C u.settings s.managers.available e = some m) :
    Reachable C plans u ⟨⟨(s.managers.shards shard).flag u.settings s.managers.available e,
      Function.update s.managers.shards shard m⟩, s.pool⟩ := by
  refine h.trans (.head (a := .manage shard e) ?_ (.refl _))
  simp [step, htakes, Pool.step, hm]

/-- The loop over a connection goes on. -/
lemma Reachable.work (h : s.Reachable C plans u) {shard : Fin u.size} {c c' : Connection} {e : ConnectionEvent}
    (hpoint : (s.managers.shards shard).point = .running c) (htakes : (ManagerEvent.work e false).takes = none)
    (hstep : c.step C u.settings.toBridgeSettings e = some c') (hdone : c'.point ≠ .done) :
    ∃ s' : UpstreamSystem u.size, s'.Reachable C plans u ∧ (s'.managers.shards shard).point = .running c' ∧
      s'.managers.available = (s.managers.shards shard).flag u.settings s.managers.available (.work e false) ∧
      s'.pool = s.pool := by
  have hm : (s.managers.shards shard).step C u.settings s.managers.available (.work e false) =
      some ((s.managers.shards shard).after c c' e false) := by
    simp [Manager.step, hpoint, hstep]
  refine ⟨_, h.manage shard htakes hm, ?_, rfl, rfl⟩
  simp [Manager.after, hdone]

end UpstreamSystem

/-- The handshake, up to the top of the loop. -/
def Connection.handshake : List ConnectionEvent :=
  [.begin, .drain fun _ => true, .flush false .established, .woken .established]

/-- The handshake of a connection with a warmup, and the start of the next turn. -/
lemma Connection.exec_handshake (C : HttpCrate) {settings : BridgeSettings}
    (hwarmup : settings.warmupPath.isSome = true) :
    ∃ c c' : Connection, Runs.exec (step C settings) (start settings none) handshake = some c ∧
      c.ready = .established ∧ c.draining = false ∧ c.step C settings .begin = some c' ∧
      c'.point = .dispatch 1 := by
  obtain ⟨serverName, path⟩ := settings
  obtain ⟨path, rfl⟩ := Option.isSome_iff_exists.mp hwarmup
  exact ⟨_, _, rfl, rfl, rfl, rfl, rfl⟩

/-- A loop that has ended does not go on. -/
lemma Connection.step_of_done {C : HttpCrate} {settings : BridgeSettings} {c c' : Connection} {e : ConnectionEvent}
    (h : c.step C settings e = some c') : c.point ≠ .done := by
  intro hdone
  have hnext := (step_eq_some h).2.1
  cases e <;> simp [next, canFail, hdone] at hnext

namespace UpstreamSystem

variable {C : HttpCrate} {plans : List PreparedPlan} {u : StartedUpstream} {s s' : UpstreamSystem u.size}

lemma Reachable.loop (h : s.Reachable C plans u) {shard : Fin u.size} {c c' : Connection} {es : List ConnectionEvent}
    (hpoint : (s.managers.shards shard).point = .running c)
    (htakes : ∀ e ∈ es, (ManagerEvent.work e false).takes = none)
    (hexec : Runs.exec (Connection.step C u.settings.toBridgeSettings) c es = some c') (hdone : c'.point ≠ .done) :
    ∃ s' : UpstreamSystem u.size, s'.Reachable C plans u ∧ (s'.managers.shards shard).point = .running c' ∧
      s'.pool = s.pool := by
  induction es generalizing s c with
  | nil =>
    obtain rfl := Option.some.inj hexec
    exact ⟨s, h, hpoint, rfl⟩
  | cons e es ih =>
    obtain ⟨d, hd, hrest⟩ := Option.bind_eq_some_iff.mp hexec
    have hrunning : d.point ≠ .done := by
      cases es with
      | nil =>
        obtain rfl := Option.some.inj hrest
        exact hdone
      | cons e' es =>
        obtain ⟨d', hd', -⟩ := Option.bind_eq_some_iff.mp hrest
        exact Connection.step_of_done hd'
    obtain ⟨t, ht, htpoint, -, hpool⟩ := h.work hpoint (htakes e List.mem_cons_self) hd hrunning
    rw [← hpool]
    exact ih ht htpoint (fun e' he' => htakes e' (List.mem_cons_of_mem e he')) hrest

/-- With a warmup the first shard connects, and sets the flag when it begins a turn. -/
lemma available_of_warmup (hwarmup : u.settings.warmupPath.isSome = true) :
    ∃ s : UpstreamSystem u.size, s.Reachable C plans u ∧ s.managers.available = true ∧ s.pool = u.newPool := by
  obtain ⟨c, c', hexec, hready, hdraining, hbegin, hdispatch⟩ := Connection.exec_handshake C hwarmup
  have hlaunched : Manager.start.step C u.settings false (.choose .ready) =
      some (Manager.start.launch u.settings none .ready) := by
    simp [Manager.step, Manager.start, Manager.canResumeEarly, Option.isNone_eq_false_iff.mpr hwarmup]
  have hrunning : ((Function.update (start u).managers.shards 0
      (Manager.start.launch u.settings none .ready)) 0).point =
      .running (.start u.settings.toBridgeSettings none) := by
    rw [Function.update_self]
    rfl
  have htakes : ∀ e ∈ Connection.handshake, (ManagerEvent.work e false).takes = none := by
    intro e he
    simp only [Connection.handshake, List.mem_cons, List.not_mem_nil, or_false] at he
    rcases he with rfl | rfl | rfl | rfl <;> rfl
  obtain ⟨s, hs, hpoint, hpool⟩ := (reachable_start.manage 0 rfl hlaunched).loop hrunning htakes hexec
    (Connection.step_of_done hbegin)
  obtain ⟨t, ht, -, havailable, hsame⟩ := hs.work hpoint rfl hbegin (by simp [hdispatch])
  refine ⟨t, ht, ?_, hsame.trans hpool⟩
  simp [havailable, Manager.flag, hpoint, hready, hdraining]

end UpstreamSystem

/-! ### Requests to the pool -/

lemma StartedUpstream.commandCapacity_pos (u : StartedUpstream) : 0 < u.commandCapacity := by
  simp only [commandCapacity, perShardCapacity, clamp, maxRequestCommands]
  omega

namespace UpstreamSystem

variable {C : HttpCrate} {plans : List PreparedPlan} {u : StartedUpstream} {plan : PreparedPlan} {peer : HttpPeer}

/-- In some run a request of the plan that is not gRPC is sent to the peer. -/
def SendsTo (C : HttpCrate) (plans : List PreparedPlan) (u : StartedUpstream) (plan : PreparedPlan)
    (peer : HttpPeer) : Prop :=
  ∃ s : UpstreamSystem u.size, s.Reachable C plans u ∧
    ∃ planIndex request, plans[planIndex]? = some plan ∧
      (s.step C plans u (.request planIndex false false request)).isSome = true ∧
      plan.upstreamPeer u.route s.managers.available false false = peer

lemma not_sendsTo_of_cold (hroute : u.route = ⟨false, true⟩) (hwarmup : u.settings.warmupPath = none)
    (hplans : ∀ plan ∈ plans, plan.peer.isCustom = false) (hpeer : peer.isCustom = true) :
    ¬ SendsTo C plans u plan peer := by
  rintro ⟨s, hs, planIndex, request, hplan, -, rfl⟩
  rw [hroute, unavailable_of_cold hroute hwarmup hplans hs, plan.upstreamPeer_unavailable,
    hplans plan (List.mem_of_getElem? hplan)] at hpeer
  cases hpeer

lemma sendsTo_of_warmup (hroute : u.route = ⟨false, true⟩) (hwarmup : u.settings.warmupPath.isSome = true)
    (hplan : plan ∈ plans) (hname : plan.upstreamName = u.name) (hpeer : plan.h3 = some peer) :
    SendsTo C plans u plan peer := by
  obtain ⟨s, hs, havailable, hpool⟩ := available_of_warmup (C := C) hwarmup
  obtain ⟨planIndex, hindex⟩ := List.mem_iff_getElem?.mp hplan
  have hempty : (s.pool.shards s.pool.selectShard).commands.length < u.commandCapacity := by
    rw [hpool]
    exact u.commandCapacity_pos
  refine ⟨s, hs, planIndex, ⟨[], false, true⟩, hindex, ?_, ?_⟩
  · simp only [step, hindex, Option.bind_some, hname, if_true, proxy]
    split_ifs
    · rfl
    · rfl
  · simp [PreparedPlan.upstreamPeer, hpeer, hroute, havailable, H3Route.shouldUseDirectH3]

end UpstreamSystem

/-- A request on a route of a preferred upstream can be sent to the peer for HTTP/3 exactly if the
upstream has a warmup. -/
theorem H3Gateway.preferred_uses_h3_iff_warmup {env : Surroundings} {isIpAddr : Bytes → Bool}
    (g : H3Gateway env isIpAddr) {name : Bytes} {upstream : UpstreamConfig}
    (hupstream : g.runtime.config.upstreams.get? name = some upstream)
    (hpreferred : upstream.protocol = .http3Preferred) {plan : PreparedPlan} (hplan : plan ∈ g.routing.plans)
    (hname : plan.upstreamName = name) {peer : HttpPeer} (hpeer : plan.h3 = some peer) :
    ∃ u, g.registry.find? (fun u => u.name = name) = some u ∧
      (UpstreamSystem.SendsTo env.http g.routing.plans u plan peer ↔ upstream.http3Warmup = true) := by
  obtain ⟨p, hp, rfl⟩ := Option.map_eq_some_iff.mp hupstream
  obtain ⟨started, hstarted, hfind⟩ := find_startUpstreams g.started hp
  obtain ⟨u, rfl, hroute, hwarmup⟩ := startUpstream_preferred hstarted hpreferred
  refine ⟨u, hfind u rfl, ?_⟩
  rw [← hwarmup]
  constructor
  · intro hsends
    by_contra hnone
    apply UpstreamSystem.not_sendsTo_of_cold hroute (by simpa using hnone) _ _ hsends
    · exact fun plan hplan => (isCustom_of_mem_plans g.toGateway hplan).1
    · exact (isCustom_of_mem_plans g.toGateway hplan).2 peer hpeer
  · intro hsome
    exact UpstreamSystem.sendsTo_of_warmup hroute hsome hplan (hname.trans (startUpstream_name hstarted).symm) hpeer

/-! ### Navidrome over HTTP/3 -/

def preferredSurroundings : Surroundings :=
  { exampleSurroundings with hasH3Route := fun name => name = ascii "navidrome" }

/-- The Navidrome host of the deployed configuration, with the warmup as given. -/
def preferredConfig (warmup : Bool) : Config where
  server :=
    { httpListen := [ascii "0.0.0.0:80"]
      httpsListen := [ascii "0.0.0.0:443"]
      certificate := some (ascii "/certs/origin.pem")
      privateKey := some (ascii "/certs/origin.key") }
  upstreams :=
    ⟨[(ascii "navidrome",
        { address := ascii "10.77.0.1:4533"
          tls := true
          protocol := .http3Preferred
          sni := some (ascii "music.tae00217.cloud")
          http3MaxConcurrentStreams := 64
          http3PoolConnections := 2
          http3Warmup := warmup })], by simp⟩
  hosts :=
    ⟨[(ascii "navidrome_main",
        { domains := [ascii "music.tae00217.cloud"]
          handler := .navidromeMain
          upstream := some (ascii "navidrome") })], by simp⟩

def preferredRuntime (warmup : Bool) : RuntimeConfig preferredSurroundings.parseSocketAddr where
  config := preferredConfig warmup
  valid := by cases warmup <;> decide +kernel

lemma preferredRuntime_isOk (warmup : Bool) :
    (withShared preferredSurroundings (preferredRuntime warmup)).isOk = true := by
  cases warmup <;> decide +kernel

/-- The upstream of the example as it starts. -/
def preferredStarted (warmup : Bool) : StartedUpstream where
  name := ascii "navidrome"
  route := ⟨false, true⟩
  settings := ⟨⟨ascii "music.tae00217.cloud", if warmup then some (ascii "/rest/ping") else none⟩, false⟩
  maxStreams := 64
  poolConnections := 2

def preferredGateway (warmup : Bool) : H3Gateway preferredSurroundings fun _ => false where
  runtime := preferredRuntime warmup
  routing := (withShared preferredSurroundings (preferredRuntime warmup)).toOption.getD ⟨∅, []⟩
  prepared := by
    have hok := preferredRuntime_isOk warmup
    cases h : withShared preferredSurroundings (preferredRuntime warmup) with
    | error message => simp [h, Except.isOk, Except.toBool] at hok
    | ok routing => rfl
  registry := [preferredStarted warmup]
  started := by cases warmup <;> rfl
  routes := by
    intro name
    simp [preferredSurroundings, preferredStarted, eq_comm]

lemma preferredGateway_plan (warmup : Bool) :
    ∃ plan ∈ (preferredGateway warmup).routing.plans, plan.upstreamName = ascii "navidrome" ∧
      ∃ peer, plan.h3 = some peer := by
  have hany : ((preferredGateway warmup).routing.plans.any fun plan =>
      plan.upstreamName = ascii "navidrome" && plan.h3.isSome) = true := by
    cases warmup <;> decide +kernel
  obtain ⟨plan, hplan, h⟩ := List.any_eq_true.mp hany
  simp only [Bool.and_eq_true, decide_eq_true_eq] at h
  exact ⟨plan, hplan, h.1, Option.isSome_iff_exists.mp h.2⟩

/-- With its warmup the example sends requests to the peer for HTTP/3. -/
theorem H3Gateway.preferred_uses_h3_navidrome :
    ∃ plan ∈ (preferredGateway true).routing.plans, ∃ peer, plan.h3 = some peer ∧
      ∃ u, (preferredGateway true).registry.find? (fun u => u.name = ascii "navidrome") = some u ∧
        UpstreamSystem.SendsTo .reference (preferredGateway true).routing.plans u plan peer := by
  obtain ⟨plan, hplan, hname, peer, hpeer⟩ := preferredGateway_plan true
  obtain ⟨u, hu, hiff⟩ := (preferredGateway true).preferred_uses_h3_iff_warmup rfl rfl hplan hname hpeer
  exact ⟨plan, hplan, peer, hpeer, u, hu, hiff.mpr rfl⟩

/-- Without the warmup it never does. -/
theorem H3Gateway.preferred_never_uses_h3 :
    ∃ plan ∈ (preferredGateway false).routing.plans, ∃ peer, plan.h3 = some peer ∧
      ∃ u, (preferredGateway false).registry.find? (fun u => u.name = ascii "navidrome") = some u ∧
        ¬ UpstreamSystem.SendsTo .reference (preferredGateway false).routing.plans u plan peer := by
  obtain ⟨plan, hplan, -, peer, hpeer⟩ := preferredGateway_plan false
  refine ⟨plan, hplan, peer, hpeer, preferredStarted false, rfl, ?_⟩
  apply UpstreamSystem.not_sendsTo_of_cold rfl rfl
  · exact fun plan hplan => (isCustom_of_mem_plans (preferredGateway false).toGateway hplan).1
  · exact (isCustom_of_mem_plans (preferredGateway false).toGateway hplan).2 peer hpeer

end Pingola
