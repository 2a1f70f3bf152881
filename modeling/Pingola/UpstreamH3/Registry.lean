import Pingola.Gateway.Plans
import Pingola.UpstreamH3.Connector
import Pingola.UpstreamH3.Pool

/-!
# Upstreams over HTTP/3

`start` of `upstream_h3.rs`, which builds a route and a pool for each upstream over HTTP/3, and the side
of `H3Pool` that hands requests to the shards.
-/

namespace Pingola
open ByteText

deriving instance DecidableEq for Command

def maxH3PoolConnections : ℕ := 8

def maxPendingRequests : ℕ := 512

def maxRequestCommands : ℕ := 128

def clamp (lo hi n : ℕ) : ℕ := max lo (min n hi)

/-- What `start` keeps of an upstream. -/
structure StartedUpstream where
  name : Bytes
  route : H3Route
  settings : PoolSettings
  maxStreams : ℕ
  poolConnections : ℕ

section

variable (toSocketAddrs : Bytes → Option (List SocketAddr)) (isIpAddr : Bytes → Bool)

def resolveOrigin (name : Bytes) (upstream : UpstreamConfig) : Except Bytes SocketAddr :=
  match toSocketAddrs upstream.address with
  | none => .error (ascii "HTTP/3 upstream address resolution failed: name=" ++ name ++ ascii " address=" ++
      upstream.address)
  | some addresses =>
    match addresses.head? with
    | some address => .ok address
    | none => .error (ascii "HTTP/3 upstream " ++ name ++ ascii " resolved to no addresses")

def upstreamServerName (name : Bytes) (upstream : UpstreamConfig) : Except Bytes Bytes :=
  match upstream.sni.filter fun value => !value.isEmpty with
  | some sni => .ok sni
  | none =>
    let isBracket (b : UInt8) : Bool := b == byte '[' || b == byte ']'
    let host := ((rsplitOnce (byte ':') upstream.address).map Prod.fst).getD upstream.address
    let authority := (host.dropWhile isBracket).rdropWhile isBracket
    if isIpAddr authority && upstream.verifyCertificate then
      .error (ascii "HTTP/3 upstream " ++ name ++ ascii " with certificate verification requires sni")
    else .ok authority

/-- A round of the loop of `start`. -/
def startUpstream (name : Bytes) (upstream : UpstreamConfig) : Except Bytes (Option StartedUpstream) := do
  if !upstream.protocol.usesHttp3 then
    return none
  bailIf (!upstream.tls) (ascii "HTTP/3 upstream " ++ name ++ ascii " requires tls: true")
  let _origin ← resolveOrigin toSocketAddrs name upstream
  let serverName ← upstreamServerName isIpAddr name upstream
  return some
    { name
      route := ⟨upstream.protocol == .http3, upstream.protocol == .http3Preferred⟩
      settings :=
        { serverName
          warmupPath := if upstream.http3Warmup then some upstream.http3WarmupPath else none
          enableEarlyData := upstream.http3EarlyData }
      maxStreams := upstream.http3MaxConcurrentStreams
      poolConnections := clamp 1 maxH3PoolConnections upstream.http3PoolConnections }

def startUpstreams : List (Bytes × UpstreamConfig) → Except Bytes (List StartedUpstream)
  | [] => .ok []
  | (name, upstream) :: rest => do
    let started ← startUpstream toSocketAddrs isIpAddr name upstream
    let registry ← startUpstreams rest
    return started.toList ++ registry

end

/-- `H3UpstreamConnector::pool_for_peer`; a pool is known by its upstream. -/
def poolForPeer (registry : List StartedUpstream) (peer : HttpPeer) : Except Bytes StartedUpstream :=
  let name := peer.sni
  if name.isEmpty then .error (ascii "upstream HTTP/3 peer is missing upstream name")
  else
    match registry.find? fun u => u.name = name with
    | some pool => .ok pool
    | none => .error (ascii "upstream HTTP/3 pool is unavailable: upstream=" ++ name)

/-- The sending side of a shard: its command channel, the next id and the free request slots. -/
structure PoolShard where
  commands : List Command
  nextId : ℕ
  requestSlots : ℕ

structure H3Pool (n : ℕ) where
  shards : Fin n → PoolShard
  roundRobin : ℕ

namespace StartedUpstream

variable (u : StartedUpstream)

/-- The number of shards. -/
def size : ℕ := clamp 1 maxH3PoolConnections u.poolConnections

instance : NeZero u.size := ⟨by simp only [size, clamp]; omega⟩

def perShardCapacity : ℕ :=
  clamp 1 maxPendingRequests ((clamp 1 maxPendingRequests u.maxStreams + u.size - 1) / u.size)

def commandCapacity : ℕ := min (u.perShardCapacity * 2) maxRequestCommands

/-- `H3Pool::new`. -/
def newPool : H3Pool u.size := ⟨fun _ => ⟨[], 1, u.perShardCapacity⟩, 0⟩

end StartedUpstream

namespace H3Pool

variable {n : ℕ} (pool : H3Pool n)

def setShard (shard : Fin n) (s : PoolShard) : H3Pool n := { pool with shards := Function.update pool.shards shard s }

def selectShard [NeZero n] : Fin n := Fin.ofNat n pool.roundRobin

/-- `open`, once the channel has room. A shard that is not `alive` has lost its manager. The result is
the shard and the id of the request. -/
def openRequest [NeZero n] (alive : Fin n → Bool) (request : OpenRequest) :
    H3Pool n × Except Bytes (Fin n × ℕ) :=
  let index := pool.selectShard
  let shard := pool.shards index
  let pool := { pool with roundRobin := (pool.roundRobin + 1) % 2 ^ 64 }
  if shard.requestSlots = 0 then (pool, .error (ascii "upstream HTTP/3 request capacity is exhausted"))
  else
    let id := shard.nextId
    let shard := { shard with nextId := (id + 1) % 2 ^ 64 }
    if alive index then
      (pool.setShard index
        { shard with commands := shard.commands ++ [request.command id], requestSlots := shard.requestSlots - 1 },
        .ok (index, id))
    else (pool.setShard index shard, .error (ascii "upstream HTTP/3 worker is unavailable"))

/-- The oldest command of a shard is taken from its channel. -/
def take (shard : Fin n) (command : Command) : Option (H3Pool n) :=
  match (pool.shards shard).commands with
  | [] => none
  | oldest :: rest =>
    if oldest = command then some (pool.setShard shard { pool.shards shard with commands := rest }) else none

end H3Pool

/-! ### What starts -/

section

variable {toSocketAddrs : Bytes → Option (List SocketAddr)} {isIpAddr : Bytes → Bool} {name : Bytes}
  {upstream : UpstreamConfig} {started : Option StartedUpstream}

lemma startUpstream_name {u : StartedUpstream}
    (h : startUpstream toSocketAddrs isIpAddr name upstream = .ok (some u)) : u.name = name := by
  rw [startUpstream] at h
  split at h
  · cases h
  · obtain ⟨-, -, h⟩ := except_bind_eq_ok.mp h
    obtain ⟨origin, -, h⟩ := except_bind_eq_ok.mp h
    obtain ⟨serverName, -, h⟩ := except_bind_eq_ok.mp h
    obtain rfl := Option.some.inj (Except.ok.inj h)
    rfl

/-- A preferred upstream has a preferred route, and a warmup as configured. -/
lemma startUpstream_preferred (h : startUpstream toSocketAddrs isIpAddr name upstream = .ok started)
    (hpreferred : upstream.protocol = .http3Preferred) :
    ∃ u, started = some u ∧ u.route = ⟨false, true⟩ ∧
      u.settings.warmupPath.isSome = upstream.http3Warmup := by
  rw [startUpstream, hpreferred] at h
  obtain ⟨-, -, h⟩ := except_bind_eq_ok.mp h
  obtain ⟨origin, -, h⟩ := except_bind_eq_ok.mp h
  obtain ⟨serverName, -, h⟩ := except_bind_eq_ok.mp h
  obtain rfl := Except.ok.inj h
  refine ⟨_, rfl, rfl, ?_⟩
  cases hwarmup : upstream.http3Warmup <;> simp

/-- What is started stands in the configuration under its name. -/
lemma exists_startUpstream_of_mem {entries : List (Bytes × UpstreamConfig)} {registry : List StartedUpstream}
    (h : startUpstreams toSocketAddrs isIpAddr entries = .ok registry) {u : StartedUpstream} (hu : u ∈ registry) :
    ∃ upstream, (u.name, upstream) ∈ entries ∧
      startUpstream toSocketAddrs isIpAddr u.name upstream = .ok (some u) := by
  induction entries generalizing registry with
  | nil =>
    obtain rfl := Except.ok.inj h
    cases hu
  | cons entry rest ih =>
    obtain ⟨name, upstream⟩ := entry
    obtain ⟨started, hstarted, h⟩ := except_bind_eq_ok.mp h
    obtain ⟨later, hlater, h⟩ := except_bind_eq_ok.mp h
    obtain rfl := Except.ok.inj h
    rcases List.mem_append.mp hu with hu | hu
    · obtain rfl := Option.mem_toList.mp hu
      rw [startUpstream_name hstarted]
      exact ⟨upstream, List.mem_cons_self, hstarted⟩
    · obtain ⟨upstream', hmem, hstarted'⟩ := ih hlater hu
      exact ⟨upstream', List.mem_cons_of_mem _ hmem, hstarted'⟩

/-- An upstream starts under its name. -/
lemma find_startUpstreams {entries : List (Bytes × UpstreamConfig)} {registry : List StartedUpstream}
    (h : startUpstreams toSocketAddrs isIpAddr entries = .ok registry) {p : Bytes × UpstreamConfig}
    (hp : entries.find? (fun p => p.1 = name) = some p) :
    ∃ started, startUpstream toSocketAddrs isIpAddr name p.2 = .ok started ∧
      ∀ u, started = some u → registry.find? (fun u => u.name = name) = some u := by
  induction entries generalizing registry with
  | nil => cases hp
  | cons entry rest ih =>
    obtain ⟨key, upstream⟩ := entry
    obtain ⟨started, hstarted, h⟩ := except_bind_eq_ok.mp h
    obtain ⟨later, hlater, h⟩ := except_bind_eq_ok.mp h
    obtain rfl := Except.ok.inj h
    by_cases hkey : key = name
    · subst hkey
      rw [List.find?_cons_of_pos (by simp)] at hp
      obtain rfl := Option.some.inj hp
      refine ⟨started, hstarted, ?_⟩
      rintro u rfl
      exact List.find?_cons_of_pos (by simp [startUpstream_name hstarted])
    · rw [List.find?_cons_of_neg (by simp [hkey])] at hp
      obtain ⟨started', hstarted', hfind⟩ := ih hlater hp
      refine ⟨started', hstarted', fun u hu => ?_⟩
      cases started with
      | none => exact hfind u hu
      | some other =>
        refine (List.find?_cons_of_neg ?_).trans (hfind u hu)
        simp [startUpstream_name hstarted, hkey]

end

end Pingola
