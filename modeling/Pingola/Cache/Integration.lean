import Pingola.Cache.Dns
import Pingola.Cache.Navidrome
import Pingola.Cache.Sequential
import Pingola.Http.Header
import Pingola.Routing

/-!
# Cache hit and miss paths

The functions of `cache/integration.rs`. A function that changes the cache returns the new one.
-/

namespace Pingola
open ByteText

structure CacheRuntime where
  store : PingolaCache
  dns : DnsCachePolicy
  navidrome : NavidromeCachePolicy

structure CachedHttpResponse where
  status : ℕ
  contentType : Bytes
  body : Bytes
  deriving DecidableEq

inductive PreparedCacheLookup where
  | miss (key : CacheKey UInt64)
  | hit (response : CachedHttpResponse)
  | bypass
  deriving DecidableEq

def dnsContentType : Bytes := ascii "application/dns-message"

def jsonContentType : Bytes := ascii "application/json"

inductive PendingCacheAction where
  | store (key : CacheKey UInt64)
  | invalidate (n : CacheNamespace)
  deriving DecidableEq

structure PendingCacheInsert where
  action : PendingCacheAction
  body : Bytes
  status : ℕ
  contentType : Option Bytes
  deriving DecidableEq

/-- The DNS message of a request: its body where one was collected, else the `dns` parameter. -/
def dohWire (request : RequestHeader) (dnsBody : Option Bytes) : Option Bytes :=
  dnsBody.or (parseDohQuery request.method (request.uri.pathAndQueryText.getD (ascii "/")) [])

variable (H : AHasher UInt64)

def prepareDnsLookup (cache : CacheRuntime) (request : RequestHeader) (dnsBody : Option Bytes)
    (now : ℕ) : PreparedCacheLookup × CacheRuntime :=
  if !cache.dns.enabled then (.bypass, cache)
  else
    match dohWire request dnsBody with
    | none => (.bypass, cache)
    | some wire =>
      match dnsQueryKey H wire with
      | none => (.bypass, cache)
      | some query =>
        let queryId := u16At wire 0
        let key := cacheKeyForQuery H query
        let (found, store) := cache.store.lookup key now
        match found with
        | .hit value =>
          match ageDnsResponseForQuery value.body value.storedAt now queryId with
          | some body => (.hit ⟨200, dnsContentType, body⟩, { cache with store := store })
          | none => (.miss key, { cache with store := store })
        | .miss | .expired => (.miss key, { cache with store := store })

def prepareNavidromeLookup (cache : CacheRuntime) (request : RequestHeader) (now : ℕ) :
    PreparedCacheLookup × CacheRuntime :=
  if !cache.navidrome.enabled then (.bypass, cache)
  else
    match navidromeCacheable H request.method request.uri.path request.uri.query cache.navidrome with
    | none => (.bypass, cache)
    | some cacheable =>
      let key := navidromeCacheKey H cacheable
      let (found, store) := cache.store.lookup key now
      match found with
      | .hit value => (.hit ⟨200, jsonContentType, value.body⟩, { cache with store := store })
      | .miss | .expired => (.miss key, { cache with store := store })

def prepareLookup (cache : CacheRuntime) (route : RouteClass) (handler : HandlerKind)
    (request : RequestHeader) (dnsBody : Option Bytes) (now : ℕ) : PreparedCacheLookup × CacheRuntime :=
  if !cache.store.enabled then (.bypass, cache)
  else
    match route with
    | .doh => prepareDnsLookup H cache request dnsBody now
    | .navidromeApi =>
      if isNavidrome handler then prepareNavidromeLookup H cache request now else (.bypass, cache)
    | _ => (.bypass, cache)

def beginPendingInsert (cache : CacheRuntime) (route : RouteClass) (handler : HandlerKind)
    (request : RequestHeader) (dnsBody : Option Bytes) : Option PendingCacheInsert :=
  if !cache.store.enabled then none
  else
    match route with
    | .doh =>
      if !cache.dns.enabled then none
      else do
        let wire ← dohWire request dnsBody
        let query ← dnsQueryKey H wire
        some ⟨.store (cacheKeyForQuery H query), [], 200, some dnsContentType⟩
    | .navidromeApi =>
      if isNavidrome handler then
        if !cache.navidrome.enabled then none
        else
          match navidromeCacheable H request.method request.uri.path request.uri.query
            cache.navidrome with
          | some cacheable => some ⟨.store (navidromeCacheKey H cacheable), [], 200, none⟩
          | none =>
            if navidromeInvalidatesCache request.uri.path then
              some ⟨.invalidate .navidrome, [], 200, none⟩
            else none
      else none
    | _ => none

/-- The media type of a content type is JSON. -/
def isJson (contentType : Option Bytes) : Bool :=
  (contentType.bind headerValueToStr).any fun value =>
    ((value.splitOn (byte ';')).head?).any fun mime =>
      eqIgnoreAsciiCase (trim mime) (ascii "application/json")

def storePendingInsert (cache : CacheRuntime) (pending : PendingCacheInsert) (now : ℕ)
    (victims : List UInt64) : Option (Bool × CacheRuntime) :=
  match pending.action with
  | .invalidate .navidrome =>
    if navidromeResponseIsError pending.body then some (false, cache)
    else some (true, { cache with store := (cache.store.purgeNamespace .navidrome).2 })
  | .invalidate .dns => some (false, cache)
  | .store key =>
    match key.cacheNamespace with
    | .dns =>
      match dnsCacheable pending.body cache.dns with
      | .notCacheable => some (false, cache)
      | .cacheable ttl =>
        (cache.store.insert key (buildCachedDns pending.body ttl now) victims).map fun p =>
          (p.1, { cache with store := p.2 })
    | .navidrome =>
      if !isJson pending.contentType then some (false, cache)
      else
        match navidromeResponseTtl pending.body none cache.navidrome with
        | none => some (false, cache)
        | some ttl =>
          (cache.store.insert key (buildCachedNavidrome pending.body ttl now) victims).map fun p =>
            (p.1, { cache with store := p.2 })

def dnsRequestNeedsBody (method : Bytes) : Bool := method == ascii "POST"

/-- `Gateway::materialize_cached_lookup`. -/
def materializeCachedLookup (route : RouteClass) (value : CachedValue) (now : ℕ)
    (dnsQueryId : Option ℕ) : Option CachedHttpResponse :=
  match route with
  | .doh =>
    (ageDnsResponseForQuery value.body value.storedAt now (dnsQueryId.getD 0)).map fun body =>
      ⟨200, dnsContentType, body⟩
  | .navidromeApi => some ⟨200, jsonContentType, value.body⟩
  | _ => none

/-! ### Keys -/

/-- What does not change while the cache runs. -/
structure CacheSettings where
  enabled : Bool
  dns : DnsCachePolicy
  navidrome : NavidromeCachePolicy

def CacheRuntime.settings (cache : CacheRuntime) : CacheSettings :=
  ⟨cache.store.enabled, cache.dns, cache.navidrome⟩

/-- The key under which a request is looked up and its response stored. -/
def cacheKeyFor (settings : CacheSettings) (route : RouteClass) (handler : HandlerKind)
    (request : RequestHeader) (dnsBody : Option Bytes) : Option (CacheKey UInt64) :=
  if !settings.enabled then none
  else
    match route with
    | .doh =>
      if settings.dns.enabled then
        ((dohWire request dnsBody).bind (dnsQueryKey H)).map (cacheKeyForQuery H)
      else none
    | .navidromeApi =>
      if isNavidrome handler && settings.navidrome.enabled then
        (navidromeCacheable H request.method request.uri.path request.uri.query
          settings.navidrome).map (navidromeCacheKey H)
      else none
    | _ => none

variable {H} {cache cache' : CacheRuntime} {route : RouteClass} {handler : HandlerKind}
  {request : RequestHeader} {dnsBody : Option Bytes} {now : ℕ} {key : CacheKey UInt64}

/-- Only the API route of Navidrome has keys of its namespace. -/
lemma cacheKeyFor_namespace {settings : CacheSettings}
    (h : cacheKeyFor H settings route handler request dnsBody = some key) :
    (route = .doh ∧ key.cacheNamespace = .dns) ∨
      (route = .navidromeApi ∧ key.cacheNamespace = .navidrome) := by
  unfold cacheKeyFor at h
  cases hen : settings.enabled with
  | false => simp [hen] at h
  | true =>
    simp only [hen, Bool.not_true, Bool.false_eq_true, if_false] at h
    cases route with
    | doh =>
      simp only at h
      split_ifs at h
      obtain ⟨query, -, rfl⟩ := Option.map_eq_some_iff.mp h
      exact .inl ⟨rfl, rfl⟩
    | navidromeApi =>
      simp only at h
      split_ifs at h
      obtain ⟨cacheable, -, rfl⟩ := Option.map_eq_some_iff.mp h
      exact .inr ⟨rfl, rfl⟩
    | _ => simp at h

/-- What a lookup can do to a cache: some entries may go. -/
structure Shrinks (cache cache' : CacheRuntime) : Prop where
  settings : cache'.settings = cache.settings
  data : ∀ k e, cache'.store.data.lookup k = some e → cache.store.data.lookup k = some e

lemma Shrinks.refl (cache : CacheRuntime) : Shrinks cache cache := ⟨rfl, fun _ _ h => h⟩

lemma shrinks_lookup (cache : CacheRuntime) (key : CacheKey UInt64) (now : ℕ) :
    Shrinks cache { cache with store := (cache.store.lookup key now).2 } := by
  rcases cache.store.lookup_snd key now with h | h
  · rw [h]
    exact .refl cache
  · rw [h]
    refine ⟨?_, fun k e he => ?_⟩
    · simp [CacheRuntime.settings, PingolaCache.remove, PingolaCache.removeStorageKey_enabled]
    · rw [PingolaCache.remove, PingolaCache.lookup_removeStorageKey] at he
      split_ifs at he
      exact he

/-- The outcome of a lookup under a key: a miss, or a hit with the materialised value. -/
def LookedUp (cache : CacheRuntime) (route : RouteClass) (now : ℕ) (key : CacheKey UInt64)
    (r : PreparedCacheLookup × CacheRuntime) : Prop :=
  r.2 = { cache with store := (cache.store.lookup key now).2 } ∧
    (r.1 = .miss key ∨ ∃ value queryId response, (cache.store.lookup key now).1 = .hit value ∧
      materializeCachedLookup route value now (some queryId) = some response ∧ r.1 = .hit response)

lemma prepareDnsLookup_cases (cache : CacheRuntime) (request : RequestHeader) (dnsBody : Option Bytes)
    (now : ℕ) : prepareDnsLookup H cache request dnsBody now = (.bypass, cache) ∨
    ∃ query, (dohWire request dnsBody).bind (dnsQueryKey H) = some query ∧ cache.dns.enabled = true ∧
      LookedUp cache .doh now (cacheKeyForQuery H query) (prepareDnsLookup H cache request dnsBody now) := by
  unfold prepareDnsLookup
  cases hdns : cache.dns.enabled with
  | false => exact .inl rfl
  | true =>
    cases hwire : dohWire request dnsBody with
    | none => exact .inl rfl
    | some wire =>
      cases hquery : dnsQueryKey H wire with
      | none => exact .inl (by simp [hquery])
      | some query =>
        refine .inr ⟨query, hquery, rfl, ?_⟩
        simp only [Bool.not_true, Bool.false_eq_true, if_false, hquery]
        cases hfound : (cache.store.lookup (cacheKeyForQuery H query) now).1 with
        | hit value =>
          cases hage : ageDnsResponseForQuery value.body value.storedAt now (u16At wire 0) with
          | none => simp [LookedUp, hage]
          | some body =>
            simp only [hage]
            refine ⟨rfl, .inr ⟨value, u16At wire 0, ⟨200, dnsContentType, body⟩, hfound, ?_, rfl⟩⟩
            simp [materializeCachedLookup, hage]
        | miss => exact ⟨rfl, .inl rfl⟩
        | expired => exact ⟨rfl, .inl rfl⟩

lemma prepareNavidromeLookup_cases (cache : CacheRuntime) (request : RequestHeader) (now : ℕ) :
    prepareNavidromeLookup H cache request now = (.bypass, cache) ∨
    ∃ cacheable, navidromeCacheable H request.method request.uri.path request.uri.query
        cache.navidrome = some cacheable ∧ cache.navidrome.enabled = true ∧
      LookedUp cache .navidromeApi now (navidromeCacheKey H cacheable)
        (prepareNavidromeLookup H cache request now) := by
  unfold prepareNavidromeLookup
  cases hnav : cache.navidrome.enabled with
  | false => exact .inl rfl
  | true =>
    cases hcacheable : navidromeCacheable H request.method request.uri.path request.uri.query
      cache.navidrome with
    | none => exact .inl rfl
    | some cacheable =>
      refine .inr ⟨cacheable, rfl, rfl, ?_⟩
      simp only [Bool.not_true, Bool.false_eq_true, if_false]
      cases hfound : (cache.store.lookup (navidromeCacheKey H cacheable) now).1 with
      | hit value => exact ⟨rfl, .inr ⟨value, 0, ⟨200, jsonContentType, value.body⟩, hfound, rfl, rfl⟩⟩
      | miss => exact ⟨rfl, .inl rfl⟩
      | expired => exact ⟨rfl, .inl rfl⟩

/-- `prepare_lookup` is a lookup under the key of the request. -/
lemma prepareLookup_cases (cache : CacheRuntime) (route : RouteClass) (handler : HandlerKind)
    (request : RequestHeader) (dnsBody : Option Bytes) (now : ℕ) :
    prepareLookup H cache route handler request dnsBody now = (.bypass, cache) ∨
    ∃ key, cacheKeyFor H cache.settings route handler request dnsBody = some key ∧
      LookedUp cache route now key (prepareLookup H cache route handler request dnsBody now) := by
  unfold prepareLookup cacheKeyFor CacheRuntime.settings
  cases hen : cache.store.enabled with
  | false => exact .inl rfl
  | true =>
    simp only [Bool.not_true, Bool.false_eq_true, if_false]
    cases route with
    | doh =>
      rcases prepareDnsLookup_cases (H := H) cache request dnsBody now with h | ⟨query, hquery, hdns, h⟩
      · exact .inl h
      · exact .inr ⟨_, by simp [hdns, hquery], h⟩
    | navidromeApi =>
      cases hnav : isNavidrome handler with
      | false => exact .inl rfl
      | true =>
        rcases prepareNavidromeLookup_cases (H := H) cache request now with h | ⟨cacheable, hc, hen, h⟩
        · exact .inl h
        · exact .inr ⟨_, by simp [hen, hc], h⟩
    | _ => exact .inl rfl

/-- A pending insert stores under the key of the request, starting from an empty body. -/
lemma beginPendingInsert_store {pending : PendingCacheInsert}
    (h : beginPendingInsert H cache route handler request dnsBody = some pending) :
    pending.body = [] ∧ ∀ key, pending.action = .store key →
      cacheKeyFor H cache.settings route handler request dnsBody = some key := by
  unfold beginPendingInsert at h
  unfold cacheKeyFor CacheRuntime.settings
  cases hen : cache.store.enabled with
  | false => simp [hen] at h
  | true =>
    simp only [hen, Bool.not_true, Bool.false_eq_true, if_false] at h ⊢
    cases route with
    | doh =>
      simp only at h ⊢
      split_ifs at h with hdns
      obtain ⟨wire, hwire, h⟩ := Option.bind_eq_some_iff.mp h
      obtain ⟨query, hquery, h⟩ := Option.bind_eq_some_iff.mp h
      obtain rfl := Option.some.inj h
      refine ⟨rfl, fun key hkey => ?_⟩
      obtain rfl := PendingCacheAction.store.inj hkey
      simp_all
    | navidromeApi =>
      simp only at h ⊢
      cases hcacheable : navidromeCacheable H request.method request.uri.path request.uri.query
        cache.navidrome with
      | some cacheable =>
        simp only [hcacheable] at h
        split_ifs at h with hnav hen'
        obtain rfl := Option.some.inj h
        refine ⟨rfl, fun key hkey => ?_⟩
        obtain rfl := PendingCacheAction.store.inj hkey
        simp_all
      | none =>
        simp only [hcacheable] at h
        split_ifs at h
        obtain rfl := Option.some.inj h
        exact ⟨rfl, fun key hkey => by simp at hkey⟩
    | _ => simp at h

/-- A body has been stored under a key: whatever is there under another key was there before. -/
structure Stores (cache cache' : CacheRuntime) (key : CacheKey UInt64) (body : Bytes) : Prop where
  settings : cache'.settings = cache.settings
  data : ∀ k e, cache'.store.data.lookup k = some e →
    (k = key.storageKey ∧ e.cacheNamespace = key.cacheNamespace ∧ e.value.body = body) ∨
      (k ≠ key.storageKey ∧ cache.store.data.lookup k = some e)

/-- How a pending insert ends: its body is stored under its key, or entries at most go away. -/
def Completes (cache cache' : CacheRuntime) (pending : PendingCacheInsert) (inserted : Bool) : Prop :=
  (∃ key, pending.action = .store key ∧ inserted = true ∧ Stores cache cache' key pending.body) ∨
    ((∀ key, pending.action = .store key → inserted = false) ∧ Shrinks cache cache')

variable {pending : PendingCacheInsert} {victims : List UInt64} {inserted : Bool}

lemma completes_refused (h : some (false, cache) = some (inserted, cache')) :
    Completes cache cache' pending inserted := by
  obtain ⟨rfl, rfl⟩ := Prod.mk.inj (Option.some.inj h)
  exact .inr ⟨fun _ _ => rfl, .refl cache⟩

lemma completes_insert {value : CachedValue} (haction : pending.action = .store key)
    (hbody : value.body = pending.body)
    (h : ((cache.store.insert key value victims).map fun p =>
      ((p.1, { cache with store := p.2 }) : Bool × CacheRuntime)) = some (inserted, cache')) :
    Completes cache cache' pending inserted := by
  obtain ⟨⟨r, store⟩, hins, heq⟩ := Option.map_eq_some_iff.mp h
  obtain ⟨rfl, rfl⟩ := Prod.mk.inj heq
  obtain ⟨-, hen, ⟨hr, rfl, -⟩ | ⟨hr, -, hdata⟩⟩ := PingolaCache.insert_data hins
  · exact .inr ⟨fun _ _ => hr, .refl cache⟩
  · refine .inl ⟨key, haction, hr, by simp [CacheRuntime.settings, hen], fun k e he => ?_⟩
    rw [show _ = _ from hdata k] at he
    split_ifs at he with hv hk
    · obtain rfl := Option.some.inj he
      exact .inl ⟨hk, rfl, hbody⟩
    · exact .inr ⟨hk, he⟩

lemma shrinks_purgeNamespace (cache : CacheRuntime) (n : CacheNamespace) :
    Shrinks cache { cache with store := (cache.store.purgeNamespace n).2 } := by
  obtain ⟨hlook, -, hen⟩ := PingolaCache.lookup_purgeKeys
    ((cache.store.data.entries.filter fun e => e.2.cacheNamespace = n).map Sigma.fst) cache.store
  refine ⟨by simp [CacheRuntime.settings, PingolaCache.purgeNamespace, hen], fun k e he => ?_⟩
  rw [PingolaCache.purgeNamespace, hlook] at he
  split_ifs at he
  exact he

lemma storePendingInsert_completes
    (h : storePendingInsert cache pending now victims = some (inserted, cache')) :
    Completes cache cache' pending inserted := by
  unfold storePendingInsert at h
  split at h
  · rename_i haction
    split_ifs at h
    · exact completes_refused h
    · obtain ⟨rfl, rfl⟩ := Prod.mk.inj (Option.some.inj h)
      exact .inr ⟨fun key hkey => by simp [haction] at hkey, shrinks_purgeNamespace cache .navidrome⟩
  · exact completes_refused h
  · rename_i key haction
    split at h
    · split at h
      · exact completes_refused h
      · exact completes_insert haction rfl h
    · split_ifs at h
      · exact completes_refused h
      · split at h
        · exact completes_refused h
        · exact completes_insert haction rfl h

end Pingola
