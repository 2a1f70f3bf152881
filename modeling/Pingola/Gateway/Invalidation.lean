import Pingola.Gateway.Representation

/-!
# Invalidation of the Navidrome cache

The gateway together with the Navidrome server behind it. The server has a version that each
`star`, `unstar` and `setRating` raises; it handles the request of an exchange once, between
`proxy_upstream_filter` and the response header, and a response shows the version it was made
from. A successful mutation purges the Navidrome entries when its response has ended.
-/

namespace Pingola
open ByteText

namespace GatewayState
variable {env : Surroundings} (g : Gateway env) (H : AHasher UInt64)

/-- The event ends the response of a mutation that the server has accepted. -/
def purges (s : GatewayState) : GatewayEvent → Bool
  | .responseBody i chunk true _ _ =>
    (s.exchanges i).any fun ex => ex.phase = .proxied && ex.responded &&
      ex.pendingInsert.any fun pending => pending.status = 200 &&
        pending.action = .invalidate .navidrome &&
        !navidromeResponseIsError (pending.body ++ chunk.getD [])
  | _ => false

/-- The checks of `store_pending_insert` and `insert` before the body of a Navidrome response is stored. -/
def navidromeStored (cache : CacheRuntime) (pending : PendingCacheInsert) (body : Bytes) : Bool :=
  pending.status = 200 && isJson pending.contentType &&
    (navidromeResponseTtl body none cache.navidrome).any fun ttl =>
      cache.store.enabled && decide ((buildCachedNavidrome body ttl 0).estimatedWeight ≤ cache.store.memoryLimit)

variable {g H} {s t : GatewayState} {ev : GatewayEvent} {i : ℕ} {ex ex' : Exchange}

/-- What is inserted has passed the checks. -/
lemma navidromeStored_of_storePendingInsert {cache cache' : CacheRuntime} {pending : PendingCacheInsert}
    {key : CacheKey UInt64} {body : Bytes} {now : ℕ} {victims : List UInt64}
    (haction : pending.action = .store key) (hkey : key.cacheNamespace = .navidrome)
    (hstatus : pending.status = 200)
    (h : storePendingInsert cache { pending with body := body } now victims = some (true, cache')) :
    navidromeStored cache pending body = true := by
  simp only [storePendingInsert, haction, hkey] at h
  split_ifs at h with hjson
  · simp at h
  cases httl : navidromeResponseTtl body none cache.navidrome with
  | none => simp [httl] at h
  | some ttl =>
    simp only [httl] at h
    obtain ⟨⟨inserted, store⟩, hinsert, heq⟩ := Option.map_eq_some_iff.mp h
    obtain ⟨rfl, -⟩ := Prod.mk.inj heq
    unfold PingolaCache.insert at hinsert
    split_ifs at hinsert with henabled hweight
    · simp at hinsert
    · simp at hinsert
    · have hfits : (buildCachedNavidrome body ttl 0).estimatedWeight ≤ cache.store.memoryLimit :=
        Nat.le_of_not_lt hweight
      have hjson' : isJson pending.contentType = true := by simpa using hjson
      have henabled' : cache.store.enabled = true := by simpa using henabled
      simp [navidromeStored, hstatus, httl, hfits, hjson', henabled']

/-- Exchange `i` goes on; the cache at most loses entries. -/
structure Quiet (s t : GatewayState) (i : ℕ) : Prop where
  cache : Shrinks s.cache t.cache
  lastStored : t.lastStored = s.lastStored
  others : ∀ j, j ≠ i → t.exchanges j = s.exchanges j
  responded : ∀ ex', t.exchanges i = some ex' → ex'.responded = true →
    ∃ ex, s.exchanges i = some ex ∧ ex.responded = true

lemma quiet_put {cache : CacheRuntime} (hcache : Shrinks s.cache cache)
    (hresponded : ex'.responded = true → ∃ ex, s.exchanges i = some ex ∧ ex.responded = true) :
    Quiet s (({ s with cache := cache } : GatewayState).put i ex') i where
  cache := hcache
  lastStored := rfl
  others j hj := Function.update_of_ne hj _ _
  responded ex hex hr := by
    obtain rfl : ex' = ex := by simpa [put] using hex
    exact hresponded hr

lemma prepareFor_shrinks (s : GatewayState) (ex : Exchange) (now : ℕ) :
    ∃ cache, (s.prepareFor H ex now).2 = { s with cache := cache } ∧ Shrinks s.cache cache := by
  refine ⟨_, rfl, ?_⟩
  rcases prepareLookup_cases (H := H) s.cache ex.plan.route ex.plan.handler ex.session.request
    ex.dnsRequestBody now with hbypass | ⟨key, -, hcache, -⟩
  · rw [hbypass]
    exact .refl _
  · rw [hcache]
    exact shrinks_lookup s.cache key now

lemma quiet_arrive {session : Session} {plan : PreparedPlan} {writer : Bool} {now : ℕ} :
    Quiet s (s.arrive g H i session plan writer now) i := by
  unfold arrive
  dsimp only
  split_ifs
  · exact quiet_put (.refl _) (by simp)
  · unfold tryServe
    generalize hnew : ({ session := session, plan := plan, phase := .filtered } : Exchange) = ex
    have hresponded : ex.responded = false := by rw [← hnew]
    obtain ⟨cache, hstate, hcache⟩ := prepareFor_shrinks (H := H) s ex.identify now
    rw [hstate]
    dsimp only
    split
    · exact quiet_put hcache (by simp [Exchange.identify, hresponded])
    · exact quiet_put hcache (by simp [Exchange.sendCached, Exchange.record, Exchange.identify, hresponded])
    · split_ifs <;> exact quiet_put hcache (by simp [Exchange.identify, hresponded])
  · exact quiet_put (.refl _) (by simp)

lemma quiet_serveAgain {key : CacheKey UInt64} {now : ℕ} {next : GatewayState → GatewayState}
    (hex : s.exchanges i = some ex)
    (hnext : ∀ cache, Shrinks s.cache cache → Quiet s (next { s with cache := cache }) i) :
    Quiet s (s.serveAgain g i ex key now next) i := by
  unfold serveAgain
  dsimp only
  split
  · exact quiet_put (shrinks_lookup s.cache key now) fun hr => ⟨ex, hex, hr⟩
  · exact hnext _ (shrinks_lookup s.cache key now)

lemma quiet_proxyUpstream {success : Bool} {now : ℕ} (hex : s.exchanges i = some ex) :
    Quiet s (s.proxyUpstream g H i ex success now) i := by
  have hkept : ∀ {cache}, Shrinks s.cache cache →
      Quiet s (({ s with cache := cache } : GatewayState).startProxy H i ex) i := by
    intro cache hcache
    exact quiet_put hcache fun hr => ⟨ex, hex, hr⟩
  unfold proxyUpstream
  split
  · exact quiet_put (.refl _) fun hr => ⟨ex, hex, hr⟩
  · split
    · exact quiet_serveAgain hex fun cache hcache => hkept hcache
    · exact hkept (.refl _)

lemma quiet_receiveBody {chunk : Option Bytes} {endOfStream writer : Bool} {now : ℕ}
    (hex : s.exchanges i = some ex) : Quiet s (s.receiveBody H i ex chunk endOfStream writer now) i := by
  unfold receiveBody
  split_ifs
  · exact quiet_put (.refl _) fun hr => ⟨ex, hex, hr⟩
  · unfold lookupBody
    obtain ⟨cache, hstate, hcache⟩ :=
      prepareFor_shrinks (H := H) s (ex.collect chunk endOfStream).identify now
    rw [hstate]
    dsimp only
    split
    all_goals exact quiet_put hcache fun hr => ⟨ex, hex, hr⟩
  · exact quiet_put (.refl _) fun hr => ⟨ex, hex, hr⟩

/-- The response of an exchange ends with status 200, and what was pending is carried out. -/
structure Completed (s t : GatewayState) (i : ℕ) (chunk : Option Bytes) (now : ℕ) (victims : List UInt64)
    (ex : Exchange) (pending : PendingCacheInsert) (inserted : Bool) : Prop where
  exchange : s.exchanges i = some ex
  proxied : ex.phase = .proxied
  responded : ex.responded = true
  pendingInsert : ex.pendingInsert = some pending
  status : pending.status = 200
  store : storePendingInsert s.cache { pending with body := pending.body ++ chunk.getD [] } now victims =
    some (inserted, t.cache)
  lastStored : t.lastStored = s.storedAfter i pending.action inserted
  exchanges : t.exchanges = Function.update s.exchanges i
    (some { ex with phase := .closed, pendingInsert := none })

lemma receiveResponse_cases {chunk : Option Bytes} {endOfStream : Bool} {now : ℕ} {victims : List UInt64}
    (hex : s.exchanges i = some ex) (hphase : ex.phase = .proxied) (hresponded : ex.responded = true)
    (h : s.receiveResponse i ex chunk endOfStream now victims = some t) :
    (Quiet s t i ∧ s.purges (.responseBody i chunk endOfStream now victims) = false) ∨
      (endOfStream = true ∧ ∃ pending inserted, Completed s t i chunk now victims ex pending inserted) := by
  have hkept : ∀ {ex' : Exchange}, ex'.responded = ex.responded → Quiet s (s.put i ex') i := fun heq =>
    quiet_put (.refl _) fun hr => ⟨ex, hex, heq ▸ hr⟩
  cases receives_of_receiveResponse h with
  | goesOn => exact .inl ⟨hkept rfl, rfl⟩
  | closes hother =>
    refine .inl ⟨hkept rfl, ?_⟩
    cases hpending : ex.pendingInsert with
    | none => simp [purges, hex, hpending]
    | some pending => simp [purges, hex, hpending, hother pending hpending]
  | stores hpending hstatus hstore =>
    exact .inr ⟨rfl, _, _, hex, hphase, hresponded, hpending, hstatus, hstore, rfl, rfl⟩

/-- What a step can do: an exchange goes on, a response begins, or a response is completed. -/
lemma step_cases (h : GatewayState.step g H s ev = some t) :
    (Quiet s t ev.index ∧ s.purges ev = false) ∨
    (∃ i header ex, ev = .responseHeader i header ∧ s.exchanges i = some ex ∧
      t = s.receiveHeader i ex header) ∨
    ∃ i chunk now victims ex pending inserted, ev = .responseBody i chunk true now victims ∧
      Completed s t i chunk now victims ex pending inserted := by
  cases GatewayState.steps_of_step g H h with
  | arrive => exact .inl ⟨quiet_arrive, rfl⟩
  | refuse hnew =>
    exact .inl ⟨⟨.refl _, rfl, fun _ _ => rfl, fun ex hex => by simp [GatewayEvent.index, hnew] at hex⟩, rfl⟩
  | wake hex =>
    refine .inl ⟨quiet_serveAgain hex fun cache hcache => ?_, rfl⟩
    exact quiet_put hcache fun hr => ⟨_, hex, hr⟩
  | giveUp hex => exact .inl ⟨quiet_put (.refl _) fun hr => ⟨_, hex, hr⟩, rfl⟩
  | proxy hex => exact .inl ⟨quiet_proxyUpstream hex, rfl⟩
  | requestBody hex => exact .inl ⟨quiet_receiveBody hex, rfl⟩
  | @responseHeader i ex header hex => exact .inr (.inl ⟨i, header, ex, rfl, hex, rfl⟩)
  | @responseBody i ex chunk endOfStream now victims _ hex hphase hresponded hreceive =>
    rcases receiveResponse_cases hex hphase hresponded hreceive with
      hquiet | ⟨rfl, pending, inserted, hcompleted⟩
    · exact .inl hquiet
    · exact .inr (.inr ⟨i, chunk, now, victims, ex, pending, inserted, rfl, hcompleted⟩)
  | abort hex => exact .inl ⟨quiet_put (.refl _) fun hr => ⟨_, hex, hr⟩, rfl⟩

/-- A purge leaves no entry of its namespace. -/
lemma namespace_of_lookup_purgeNamespace {c : PingolaCache} {n : CacheNamespace} {k : UInt64} {e : StoredEntry}
    (h : (c.purgeNamespace n).2.data.lookup k = some e) : e.cacheNamespace ≠ n := by
  intro hn
  rw [PingolaCache.purgeNamespace, (PingolaCache.lookup_purgeKeys _ c).1] at h
  split_ifs at h with hkey
  have hmem := AList.mem_lookup_iff.mp h
  exact hkey (List.mem_map.mpr ⟨_, List.mem_filter.mpr ⟨hmem, by simp [hn]⟩, rfl⟩)

/-- A completed response purges the Navidrome entries, or stores its own body, or at most removes
entries. -/
lemma Completed.cases {chunk : Option Bytes} {now : ℕ} {victims : List UInt64} {pending : PendingCacheInsert}
    {inserted : Bool} (h : Completed s t i chunk now victims ex pending inserted) :
    (s.purges (.responseBody i chunk true now victims) = true ∧
      ∀ k e, t.cache.store.data.lookup k = some e → e.cacheNamespace ≠ .navidrome) ∨
    (s.purges (.responseBody i chunk true now victims) = false ∧
      ((∃ key body, pending.action = .store key ∧ inserted = true ∧ Stores s.cache t.cache key body ∧
          t.lastStored = Function.update s.lastStored key.storageKey (some i)) ∨
        Shrinks s.cache t.cache ∧ t.lastStored = s.lastStored)) := by
  have hpurges : s.purges (.responseBody i chunk true now victims) =
      (decide (pending.action = .invalidate .navidrome) &&
        !navidromeResponseIsError (pending.body ++ chunk.getD [])) := by
    simp [purges, h.exchange, h.proxied, h.responded, h.pendingInsert, h.status]
  by_cases hpurge : pending.action = .invalidate .navidrome ∧
      navidromeResponseIsError (pending.body ++ chunk.getD []) = false
  · refine .inl ⟨by simp [hpurges, hpurge], fun k e he => ?_⟩
    have hstore := h.store
    simp only [storePendingInsert, hpurge, Bool.false_eq_true, if_false, Option.some.injEq,
      Prod.mk.injEq] at hstore
    rw [← hstore.2] at he
    exact namespace_of_lookup_purgeNamespace he
  · refine .inr ⟨?_, ?_⟩
    · rw [hpurges]
      by_contra hne
      exact hpurge (by simpa using hne)
    · rw [h.lastStored]
      rcases s.storedAfter_cases i h.store with ⟨key, haction, rfl, hstores, hlast⟩ | hshrinks
      · exact .inl ⟨key, _, haction, rfl, hstores, hlast⟩
      · exact .inr hshrinks

end GatewayState

/-! ### The server behind the gateway -/

/-- The gateway and the Navidrome server: the version of the server, the version that each request
was answered from (or that it made), and the mutations that have purged the cache. -/
structure OriginState where
  gateway : GatewayState
  version : ℕ
  served : ℕ → Option ℕ
  purged : List ℕ

inductive OriginEvent where
  | gateway (ev : GatewayEvent)
  /-- The server handles the request of an exchange. -/
  | serve (i : ℕ)

/-- The request changes what the server answers to others. -/
def Exchange.mutates (ex : Exchange) : Bool :=
  ex.plan.route = .navidromeApi && navidromeInvalidatesCache ex.session.request.uri.path

namespace OriginState
variable {env : Surroundings} (g : Gateway env) (H : AHasher UInt64)

def init : OriginState := ⟨.init g, 0, fun _ => none, []⟩

/-- A response begins after the server has handled the request. -/
def enabled (s : OriginState) : GatewayEvent → Bool
  | .responseHeader i _ => (s.served i).isSome
  | _ => true

def step (s : OriginState) : OriginEvent → Option OriginState
  | .gateway ev =>
    if s.enabled ev then
      (GatewayState.step g H s.gateway ev).map fun t =>
        { s with
          gateway := t
          purged := if s.gateway.purges ev then s.purged ++ [ev.index] else s.purged }
    else none
  | .serve i =>
    (s.gateway.exchanges i).bind fun ex =>
      if ex.phase = .proxied && !ex.responded && (s.served i).isNone then
        let version := if ex.mutates then s.version + 1 else s.version
        some { s with version := version, served := Function.update s.served i (some version) }
      else none

/-- No response of the Navidrome API is stored after the purge of a mutation that the server
applied after it had answered this request. A response that fails a check before it is stored may come late. -/
def timely (s : OriginState) : OriginEvent → Bool
  | .gateway (.responseBody i chunk true _ _) =>
    (s.gateway.exchanges i).all fun ex => ex.pendingInsert.all fun pending =>
      match pending.action with
      | .store ⟨.navidrome, _⟩ =>
        !GatewayState.navidromeStored s.gateway.cache pending (pending.body ++ chunk.getD []) ||
          s.purged.all fun m => (s.served i).all fun read => (s.served m).all fun applied => applied ≤ read
      | _ => true
  | _ => true

/-- The Navidrome entries show every mutation that has purged the cache. -/
structure Fresh (s : OriginState) : Prop where
  responded : ∀ i ex, s.gateway.exchanges i = some ex → ex.responded = true → ∃ read, s.served i = some read
  purged : ∀ m ∈ s.purged, ∃ applied, s.served m = some applied
  entries : ∀ k e, s.gateway.cache.store.data.lookup k = some e → e.cacheNamespace = .navidrome →
    ∃ j read, s.gateway.lastStored k = some j ∧ s.served j = some read ∧
      ∀ m ∈ s.purged, ∀ applied, s.served m = some applied → applied ≤ read

variable {g H} {s t : OriginState}

lemma fresh_init : Fresh (init g) where
  responded i ex hex := by simp [init, GatewayState.init] at hex
  purged m hm := by simp [init] at hm
  entries k e he := by
    have hempty : (init g).gateway.cache.store.data.lookup k = none := AList.lookup_empty k
    simp [hempty] at he

/-- The entries of a cache that has only lost some stay fresh. -/
lemma Fresh.shrunk (h : Fresh s) {gateway : GatewayState}
    (hcache : Shrinks s.gateway.cache gateway.cache) (hlast : gateway.lastStored = s.gateway.lastStored)
    (hresponded : ∀ i ex, gateway.exchanges i = some ex → ex.responded = true →
      ∃ read, s.served i = some read) : Fresh { s with gateway := gateway } where
  responded := hresponded
  purged := h.purged
  entries k e he hns := by
    change ∃ j read, gateway.lastStored k = some j ∧ _
    rw [hlast]
    exact h.entries k e (hcache.data k e he) hns

lemma Fresh.quiet (h : Fresh s) {gateway : GatewayState} {i : ℕ} (hquiet : s.gateway.Quiet gateway i) :
    Fresh { s with gateway := gateway } := by
  refine h.shrunk hquiet.cache hquiet.lastStored fun j ex hj hr => ?_
  by_cases hji : j = i
  · subst hji
    obtain ⟨ex', hex', hr'⟩ := hquiet.responded ex hj hr
    exact h.responded j ex' hex' hr'
  · rw [hquiet.others j hji] at hj
    exact h.responded j ex hj hr

lemma Fresh.header (h : Fresh s) {i : ℕ} {ex : Exchange} {header : ResponseHeader}
    (hserved : (s.served i).isSome = true) :
    Fresh { s with gateway := s.gateway.receiveHeader i ex header } := by
  refine h.shrunk (.refl _) rfl fun j ex' hj hr => ?_
  by_cases hji : j = i
  · subst hji
    exact Option.isSome_iff_exists.mp hserved
  · have hj' : s.gateway.exchanges j = some ex' := by
      rw [← hj]
      exact (Function.update_of_ne hji _ _).symm
    exact h.responded j ex' hj' hr

lemma Fresh.completed (h : Fresh s) {gateway : GatewayState} {i : ℕ} {chunk : Option Bytes} {now : ℕ}
    {victims : List UInt64} {ex : Exchange} {pending : PendingCacheInsert} {inserted : Bool}
    (hdone : s.gateway.Completed gateway i chunk now victims ex pending inserted)
    (htimely : s.timely (.gateway (.responseBody i chunk true now victims)) = true) :
    Fresh { s with
      gateway := gateway
      purged := if s.gateway.purges (.responseBody i chunk true now victims) then s.purged ++ [i]
        else s.purged } := by
  obtain ⟨read, hread⟩ := h.responded i ex hdone.exchange hdone.responded
  have hresponded : ∀ j ex', gateway.exchanges j = some ex' → ex'.responded = true →
      ∃ read, s.served j = some read := by
    intro j ex' hj hr
    by_cases hji : j = i
    · exact ⟨read, by rw [hji, hread]⟩
    · rw [hdone.exchanges, Function.update_of_ne hji] at hj
      exact h.responded j ex' hj hr
  rcases hdone.cases with ⟨hpurges, hempty⟩ | ⟨hpurges, ⟨key, body, haction, rfl, hstores, hlast⟩ | ⟨hcache, hlast⟩⟩
  · -- the purge of mutation `i`: no entry is left that could be stale
    rw [if_pos hpurges]
    refine ⟨hresponded, fun m hm => ?_, fun k e he hns => absurd hns (hempty k e he)⟩
    rcases List.mem_append.mp hm with hm | hm
    · exact h.purged m hm
    · exact ⟨read, by rw [List.mem_singleton.mp hm, hread]⟩
  · rw [if_neg (by simp [hpurges])]
    refine ⟨hresponded, h.purged, fun k e he hns => ?_⟩
    change ∃ j read, gateway.lastStored k = some j ∧ _
    rw [hlast]
    rcases hstores.data k e he with ⟨rfl, hkey, -⟩ | ⟨hne, he⟩
    · refine ⟨i, read, Function.update_self _ _ _, hread, fun m hm applied happlied => ?_⟩
      have hnavidrome : pending.action = .store ⟨.navidrome, key.hash⟩ := by
        rw [haction, ← hns, hkey]
      have hstored : GatewayState.navidromeStored s.gateway.cache pending (pending.body ++ chunk.getD []) = true :=
        GatewayState.navidromeStored_of_storePendingInsert hnavidrome rfl hdone.status hdone.store
      have hall := htimely
      simp only [timely, hdone.exchange, hdone.pendingInsert, hnavidrome, Option.all_some, hread,
        hstored, Bool.not_true, Bool.false_or, List.all_eq_true] at hall
      have hm' := hall m hm
      rw [show s.served m = some applied from happlied] at hm'
      simpa using hm'
    · rw [Function.update_of_ne hne]
      exact h.entries k e he hns
  · rw [if_neg (by simp [hpurges])]
    exact h.shrunk hcache hlast hresponded

/-- The server handles a request that it has not handled before. -/
lemma Fresh.serve (h : Fresh s) {i version : ℕ} (hnew : s.served i = none) :
    Fresh { s with version := version, served := Function.update s.served i (some version) } := by
  have hkept : ∀ j read, s.served j = some read →
      Function.update s.served i (some version) j = some read := by
    intro j read hj
    have hne : j ≠ i := by
      rintro rfl
      simp [hnew] at hj
    rw [Function.update_of_ne hne, hj]
  refine ⟨fun j ex hj hr => ?_, fun m hm => ?_, fun k e he hns => ?_⟩
  · obtain ⟨read, hread⟩ := h.responded j ex hj hr
    exact ⟨read, hkept j read hread⟩
  · obtain ⟨applied, happlied⟩ := h.purged m hm
    exact ⟨applied, hkept m applied happlied⟩
  · obtain ⟨j, read, hlast, hread, hle⟩ := h.entries k e he hns
    refine ⟨j, read, hlast, hkept j read hread, fun m hm applied happlied => ?_⟩
    obtain ⟨applied', happlied'⟩ := h.purged m hm
    obtain rfl : applied' = applied := Option.some.inj ((hkept m applied' happlied').symm.trans happlied)
    exact hle m hm applied' happlied'

lemma step_cases {ev : OriginEvent} (h : s.step g H ev = some t) :
    (∃ ev' gateway, ev = .gateway ev' ∧ s.enabled ev' = true ∧
      GatewayState.step g H s.gateway ev' = some gateway ∧
      t = { s with
        gateway := gateway
        purged := if s.gateway.purges ev' then s.purged ++ [ev'.index] else s.purged }) ∨
    ∃ i version, ev = .serve i ∧ s.served i = none ∧
      t = { s with version := version, served := Function.update s.served i (some version) } := by
  cases ev with
  | gateway ev =>
    simp only [OriginState.step] at h
    by_cases henabled : s.enabled ev = true
    · rw [if_pos henabled] at h
      obtain ⟨gateway, hgateway, rfl⟩ := Option.map_eq_some_iff.mp h
      exact .inl ⟨ev, gateway, rfl, henabled, hgateway, rfl⟩
    · simp [henabled] at h
  | serve i =>
    obtain ⟨ex, -, h⟩ := Option.bind_eq_some_iff.mp h
    by_cases hcond : (ex.phase = .proxied && !ex.responded && (s.served i).isNone) = true
    · rw [if_pos hcond] at h
      have hnew : s.served i = none := by simpa using (Bool.and_eq_true_iff.mp hcond).2
      exact .inr ⟨i, _, rfl, hnew, (Option.some.inj h).symm⟩
    · simp [hcond] at h

lemma Fresh.step (h : Fresh s) {ev : OriginEvent} (htimely : s.timely ev = true) (hstep : s.step g H ev = some t) :
    Fresh t := by
  rcases step_cases hstep with ⟨ev, gateway, rfl, henabled, hgateway, rfl⟩ | ⟨i, version, rfl, hnew, rfl⟩
  · rcases GatewayState.step_cases hgateway with ⟨hquiet, hpurges⟩ | ⟨i, header, ex, rfl, hex, rfl⟩ |
      ⟨i, chunk, now, victims, ex, pending, inserted, rfl, hdone⟩
    · rw [if_neg (by simp [hpurges])]
      exact h.quiet hquiet
    · exact h.header henabled
    · exact h.completed hdone htimely
  · exact h.serve hnew

/-- The events of the gateway. -/
def gatewayEvents (events : List OriginEvent) : List GatewayEvent :=
  events.filterMap fun
    | .gateway ev => some ev
    | .serve _ => none

lemma gateway_run {events : List OriginEvent}
    (h : Runs.Run (fun s ev t => s.step g H ev = some t ∧ s.timely ev = true) (init g) events s) :
    g.Run H (gatewayEvents events) s.gateway := by
  refine h.invariant (fun past (s : OriginState) => g.Run H (gatewayEvents past) s.gateway) ?_ .nil
  intro past s ev t hstep hpast
  rcases step_cases hstep.1 with ⟨ev, gateway, rfl, -, hgateway, rfl⟩ | ⟨i, version, rfl, -, rfl⟩
  · have hevents : gatewayEvents (past ++ [.gateway ev]) = gatewayEvents past ++ [ev] := by
      simp [gatewayEvents]
    rw [hevents]
    exact hpast.append (.cons hgateway .nil)
  · simpa [gatewayEvents] using hpast

/-- In every run in which no Navidrome response is stored after the purge of a mutation that the
server applied after answering it: once a mutation has purged the cache, every Navidrome hit is
the body of an exchange that the server answered with the mutation applied. -/
theorem no_stale_navidrome_hit {events : List OriginEvent} {s : OriginState}
    (hrun : Runs.Run (fun s ev t => s.step g H ev = some t ∧ s.timely ev = true) (init g) events s) {m : ℕ}
    (hm : m ∈ s.purged) {key : CacheKey UInt64} (hkey : key.cacheNamespace = .navidrome) {now : ℕ}
    {value : CachedValue} (hhit : (s.gateway.cache.store.lookup key now).1 = .hit value) :
    ∃ j applied read, s.gateway.lastStored key.storageKey = some j ∧
      value.body = bodyOf (gatewayEvents events) j ∧
      s.served m = some applied ∧ s.served j = some read ∧ applied ≤ read := by
  have hfresh : Fresh s := hrun.invariant (fun _ s => Fresh s)
    (fun _ _ _ _ hstep hs => hs.step hstep.2 hstep.1) fresh_init
  obtain ⟨e, he, hns, rfl, -⟩ := PingolaCache.lookup_eq_hit hhit
  obtain ⟨j, read, hlast, hread, hle⟩ := hfresh.entries _ e he (hns.trans hkey)
  obtain ⟨applied, happlied⟩ := hfresh.purged m hm
  obtain ⟨j', hlast', ex, header, -, -, -, hbody, -⟩ :=
    (gatewayInv_of_run (gateway_run hrun)).origin_of_hit hhit
  obtain rfl : j' = j := Option.some.inj (hlast'.symm.trans hlast)
  exact ⟨j', applied, read, hlast, hbody.symm, happlied, hread, hle m hm applied happlied⟩

end OriginState

/-! ### A fill that outlives a purge -/

def exampleStar : Bytes := ascii "/rest/star.view?u=alice&p=secret&id=1&f=json"

/-- A request goes upstream and is handled there. -/
def sent (i : ℕ) (target : Bytes) : List OriginEvent :=
  [.gateway (exampleRequest i (ascii "music.tae00217.cloud") target [] 0), .gateway (.proxy i false 0), .serve i]

/-- Its response arrives. -/
def answered (i : ℕ) (document : Bytes) : List OriginEvent :=
  [.gateway (.responseHeader i ⟨200, [(ascii "content-type", jsonContentType)]⟩),
    .gateway (.responseBody i (some document) true 0 [])]

def failedDocument : Bytes := ascii "\x7b\"subsonic-response\":\x7b\"status\":\"failed\"\x7d\x7d"

/-- An album is starred while a request for it is under way that fails; then a client asks for it again. -/
def starredFirst : List OriginEvent :=
  sent 2 exampleAlbum ++ sent 1 exampleStar ++ answered 1 exampleDocument ++ answered 2 failedDocument ++
    sent 0 exampleAlbum ++ answered 0 exampleDocument

/-- The album is read before it is starred, and its response arrives after that of the star. -/
def starredMeanwhile : List OriginEvent :=
  sent 0 exampleAlbum ++ sent 1 exampleStar ++ answered 1 exampleDocument ++ answered 0 exampleDocument

/-- What a lookup of the album finds, and the versions that the album and the star were answered
from. -/
structure FoundAlbum where
  cacheNamespace : CacheNamespace
  source : Option ℕ
  read : Option ℕ
  applied : Option ℕ
  purged : List ℕ
  deriving DecidableEq

def findAlbum (s : OriginState) : Option FoundAlbum := do
  let ex ← s.gateway.exchanges 0
  let key ← ex.requestKey fnvHasher (exampleGateway true).settings
  match (s.gateway.cache.store.lookup key 0).1 with
  | .hit _ =>
    some ⟨key.cacheNamespace, s.gateway.lastStored key.storageKey, s.served 0, s.served 1, s.purged⟩
  | _ => none

lemma findAlbum_eq_some {s : OriginState} {found : FoundAlbum} (h : findAlbum s = some found) :
    ∃ key value, (s.gateway.cache.store.lookup key 0).1 = .hit value ∧
      key.cacheNamespace = found.cacheNamespace ∧ s.gateway.lastStored key.storageKey = found.source ∧
      s.served 0 = found.read ∧ s.served 1 = found.applied ∧ s.purged = found.purged := by
  obtain ⟨ex, -, h⟩ := Option.bind_eq_some_iff.mp h
  obtain ⟨key, -, h⟩ := Option.bind_eq_some_iff.mp h
  split at h
  · rename_i value hvalue
    obtain rfl := Option.some.inj h
    exact ⟨key, value, hvalue, rfl, rfl, rfl, rfl, rfl⟩
  · simp at h

theorem no_stale_navidrome_hit_starred : ∃ (s : OriginState) (key : CacheKey UInt64) (value : CachedValue),
    1 ∈ s.purged ∧ (s.gateway.cache.store.lookup key 0).1 = .hit value ∧
    ∃ j applied read, s.gateway.lastStored key.storageKey = some j ∧
      value.body = bodyOf (OriginState.gatewayEvents starredFirst) j ∧
      s.served 1 = some applied ∧ s.served j = some read ∧ applied ≤ read := by
  have hfound : (Runs.exec (fun s ev => if s.timely ev then s.step (exampleGateway true) fnvHasher ev else none)
      (.init (exampleGateway true)) starredFirst).bind findAlbum =
        some ⟨.navidrome, some 0, some 1, some 1, [1]⟩ := by
    decide +kernel
  obtain ⟨s, hs, hfound⟩ := Option.bind_eq_some_iff.mp hfound
  obtain ⟨key, value, hhit, hkey, -, -, -, hpurged⟩ := findAlbum_eq_some hfound
  have hm : 1 ∈ s.purged := by simp [hpurged]
  exact ⟨s, key, value, hm, hhit,
    OriginState.no_stale_navidrome_hit (Runs.run_of_exec_guarded hs) hm hkey hhit⟩

/-- After the purge of the star a lookup hits the album as it was before the star. -/
theorem stale_navidrome_hit_after_purge : ∃ (s : OriginState) (key : CacheKey UInt64) (value : CachedValue),
    Runs.Run (fun s ev t => s.step (exampleGateway true) fnvHasher ev = some t)
      (.init (exampleGateway true)) starredMeanwhile s ∧
    1 ∈ s.purged ∧ key.cacheNamespace = .navidrome ∧
    (s.gateway.cache.store.lookup key 0).1 = .hit value ∧
    s.gateway.lastStored key.storageKey = some 0 ∧ s.served 0 = some 0 ∧ s.served 1 = some 1 := by
  have hfound : (Runs.exec (OriginState.step (exampleGateway true) fnvHasher)
      (.init (exampleGateway true)) starredMeanwhile).bind findAlbum =
        some ⟨.navidrome, some 0, some 0, some 1, [1]⟩ := by
    decide +kernel
  obtain ⟨s, hs, hfound⟩ := Option.bind_eq_some_iff.mp hfound
  obtain ⟨key, value, hhit, hkey, hlast, hread, happlied, hpurged⟩ := findAlbum_eq_some hfound
  exact ⟨s, key, value, Runs.run_of_exec hs, by simp [hpurged], hkey, hhit, hlast, hread, happlied⟩

end Pingola
