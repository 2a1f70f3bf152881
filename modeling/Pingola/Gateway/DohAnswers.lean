import Pingola.Cache.DnsAging
import Pingola.Cache.DnsKey
import Pingola.Gateway.ResponseFilter

/-!
# DNS answers from the cache

An answer that a client gets from the cache is followed back to its upstream: which exchange it was fetched for,
when it was complete, when the client asked, and what has been changed in it since.
-/

namespace Pingola
open ByteText

/-- The response of an exchange was complete at the instant. -/
def CompletedAt (events : List GatewayEvent) (j t : ℕ) : Prop :=
  ∃ chunk victims, .responseBody j chunk true t victims ∈ events

/-- A hook of the exchange read the clock. -/
def AskedAt (events : List GatewayEvent) (i t : ℕ) : Prop :=
  (∃ session admission writer, .request i session admission writer t ∈ events) ∨
    (∃ success, .proxy i success t ∈ events) ∨
    ∃ chunk endOfStream writer, .requestBody i chunk endOfStream writer t ∈ events

lemma CompletedAt.append {events : List GatewayEvent} {j t : ℕ} (h : CompletedAt events j t) (ev : GatewayEvent) :
    CompletedAt (events ++ [ev]) j t := by
  obtain ⟨chunk, victims, hmem⟩ := h
  exact ⟨chunk, victims, List.mem_append_left _ hmem⟩

lemma AskedAt.append {events : List GatewayEvent} {i t : ℕ} (h : AskedAt events i t) (ev : GatewayEvent) :
    AskedAt (events ++ [ev]) i t := by
  rcases h with ⟨session, admission, writer, hmem⟩ | ⟨success, hmem⟩ | ⟨chunk, endOfStream, writer, hmem⟩
  · exact .inl ⟨session, admission, writer, List.mem_append_left _ hmem⟩
  · exact .inr (.inl ⟨success, List.mem_append_left _ hmem⟩)
  · exact .inr (.inr ⟨chunk, endOfStream, writer, List.mem_append_left _ hmem⟩)

variable {env : Surroundings} (g : Gateway env) (H : AHasher UInt64) (settings : CacheSettings)

/-- The times of a value that an exchange has stored. -/
structure Timed (events : List GatewayEvent) (j : ℕ) (value : CachedValue) : Prop where
  completed : CompletedAt events j value.storedAt
  bounded : value.freshUntil ≤ value.storedAt + settings.dns.maxTtl

/-- What the history of a hit says about times and transaction ids. -/
def Answered (events : List GatewayEvent) (origin : ℕ → CacheKey UInt64 → Bytes → Prop) (i : ℕ) (ex : Exchange)
    (hit : CacheHit) : Prop :=
  ∃ key j value now wire, ex.requestKey H settings = some key ∧ hit.source = some j ∧ origin j key value.body ∧
    Timed settings events j value ∧ AskedAt events i now ∧ now < value.freshUntil ∧
    dohWire ex.session.request ex.dnsRequestBody = some wire ∧
    ageDnsResponseForQuery value.body value.storedAt now (u16At wire 0) = some hit.response.body

structure DohExchange (events : List GatewayEvent) (origin : ℕ → CacheKey UInt64 → Bytes → Prop) (i : ℕ)
    (ex : Exchange) : Prop where
  identified : ex.cacheKey ≠ none →
    ∃ wire, dohWire ex.session.request ex.dnsRequestBody = some wire ∧ ex.dnsQueryId = some (u16At wire 0)
  waiting : ∀ now, ex.phase = .coalescing now → AskedAt events i now
  answered : ∀ hit ∈ ex.hits, Answered H settings events origin i ex hit

structure DohInv (events : List GatewayEvent) (s : GatewayState) : Prop where
  data : ∀ k e, s.cache.store.data.lookup k = some e → e.cacheNamespace = .dns →
    ∀ j, s.lastStored k = some j → Timed settings events j e.value
  exchanges : ∀ i ex, s.exchanges i = some ex → ex.plan.route = .doh →
    DohExchange H settings events (Origin H settings events s) i ex

section
variable {g H settings} {events : List GatewayEvent} {ev : GatewayEvent} {s t : GatewayState}
  {i j : ℕ} {ex ex' : Exchange} {O O' : ℕ → CacheKey UInt64 → Bytes → Prop}

/-! ### The past grows -/

lemma Timed.append {value : CachedValue} (h : Timed settings events j value) (ev : GatewayEvent) :
    Timed settings (events ++ [ev]) j value :=
  ⟨h.completed.append ev, h.bounded⟩

lemma Answered.append {hit : CacheHit} (h : Answered H settings events O i ex hit)
    (hO : ∀ j key body, O j key body → O' j key body) (ev : GatewayEvent) :
    Answered H settings (events ++ [ev]) O' i ex hit := by
  obtain ⟨key, j, value, now, wire, hkey, hsource, horigin, htimed, hasked, hrest⟩ := h
  exact ⟨key, j, value, now, wire, hkey, hsource, hO _ _ _ horigin, htimed.append ev, hasked.append ev, hrest⟩

lemma DohExchange.append (h : DohExchange H settings events O i ex)
    (hO : ∀ j key body, O j key body → O' j key body) (ev : GatewayEvent) :
    DohExchange H settings (events ++ [ev]) O' i ex where
  identified := h.identified
  waiting now hphase := (h.waiting now hphase).append ev
  answered hit hhit := (h.answered hit hhit).append hO ev

/-- A step that moves one exchange. -/
lemma DohInv.moved (h : DohInv H settings events s) (hmoves : Moves s t ev ex')
    (hdata : ∀ k e, t.cache.store.data.lookup k = some e → e.cacheNamespace = .dns →
      ∀ j, t.lastStored k = some j → Timed settings (events ++ [ev]) j e.value)
    (hex' : ex'.plan.route = .doh →
      DohExchange H settings (events ++ [ev]) (Origin H settings (events ++ [ev]) t) ev.index ex') :
    DohInv H settings (events ++ [ev]) t := by
  refine ⟨hdata, fun j ex hj hroute => ?_⟩
  by_cases hne : j = ev.index
  · subst hne
    obtain rfl : ex' = ex := Option.some.inj (hmoves.self.symm.trans hj)
    exact hex' hroute
  · rw [hmoves.others j hne] at hj
    exact (h.exchanges j ex hj hroute).append (fun _ _ _ => hmoves.origin) ev

/-- A step that moves one exchange and stores nothing. -/
lemma DohInv.shrunk (h : DohInv H settings events s) {cache : CacheRuntime} (ev : GatewayEvent) (moved : Exchange)
    (hidx : ev.index = i) (hopen : s.Unclosed i)
    (hcache : Shrinks s.cache cache)
    (hmoved : moved.plan.route = .doh →
      ∀ origin, (∀ j key body, Origin H settings events s j key body → origin j key body) →
        DohExchange H settings (events ++ [ev]) origin i moved) :
    DohInv H settings (events ++ [ev]) (({ s with cache := cache } : GatewayState).put i moved) := by
  subst hidx
  have hmoves := moves_put ev moved cache s.lastStored hopen
  refine h.moved hmoves (fun k e he hns j hj => ?_) fun hroute => hmoved hroute _ fun _ _ _ => hmoves.origin
  exact (h.data k e (hcache.data k e he) hns j hj).append ev

/-- A step after which the exchange asks the same question and has the same hits. -/
lemma DohInv.silent (h : DohInv H settings events s) {cache : CacheRuntime} (ev : GatewayEvent)
    (hidx : ev.index = i) (hopen : s.Unclosed i)
    (hcache : Shrinks s.cache cache)
    (hex' : ex'.plan.route = .doh → DohExchange H settings events (Origin H settings events s) i ex') :
    DohInv H settings (events ++ [ev]) (({ s with cache := cache } : GatewayState).put i ex') :=
  h.shrunk ev _ hidx hopen hcache fun hroute _ horigin => (hex' hroute).append horigin ev

/-! ### Lookups -/

/-- The query of an exchange that has a key. -/
lemma exists_wire_of_requestKey {key : CacheKey UInt64} (hroute : ex.plan.route = .doh)
    (h : ex.requestKey H settings = some key) :
    ∃ wire query, dohWire ex.session.request ex.dnsRequestBody = some wire ∧ dnsQueryKey H wire = some query ∧
      key = cacheKeyForQuery H query ∧ key.cacheNamespace = .dns := by
  unfold Exchange.requestKey cacheKeyFor at h
  rw [hroute] at h
  dsimp only at h
  split_ifs at h
  obtain ⟨query, hquery, rfl⟩ := Option.map_eq_some_iff.mp h
  obtain ⟨wire, hwire, hquery⟩ := Option.bind_eq_some_iff.mp hquery
  exact ⟨wire, query, hwire, hquery, rfl, rfl⟩

/-- A question is longer than its transaction id. -/
lemma length_of_dnsQueryKey {wire : Bytes} {query : DnsQueryKey} (h : dnsQueryKey H wire = some query) :
    12 ≤ wire.length := by
  by_contra hshort
  rw [dnsQueryKey, if_pos (Nat.lt_of_not_le hshort)] at h
  cases h

lemma identified_of_requestKey {key : CacheKey UInt64} (hroute : ex.plan.route = .doh)
    (h : ex.requestKey H settings = some key) :
    ∃ wire, dohWire ex.session.request ex.dnsRequestBody = some wire ∧ ex.identify.dnsQueryId = some (u16At wire 0) := by
  obtain ⟨wire, query, hwire, hquery, -, -⟩ := exists_wire_of_requestKey hroute h
  have hlong := length_of_dnsQueryKey hquery
  refine ⟨wire, hwire, ?_⟩
  rw [Exchange.identify, if_pos hroute, dnsTransactionId, hwire, Option.bind_some, if_pos (by omega)]

lemma prepareFor_hit {now : ℕ} {response : CachedHttpResponse} (hroute : ex.plan.route = .doh)
    (hfound : (s.prepareFor H ex now).1 = .hit response) :
    ∃ wire value key, dohWire ex.session.request ex.dnsRequestBody = some wire ∧
      ex.requestKey H s.cache.settings = some key ∧ (s.cache.store.lookup key now).1 = .hit value ∧
      ageDnsResponseForQuery value.body value.storedAt now (u16At wire 0) = some response.body := by
  unfold GatewayState.prepareFor prepareLookup at hfound
  unfold Exchange.requestKey cacheKeyFor CacheRuntime.settings
  rw [hroute] at hfound ⊢
  dsimp only at hfound ⊢
  unfold prepareDnsLookup at hfound
  split_ifs at hfound with henabled hdns
  rw [if_neg henabled, if_pos (by simpa using hdns)]
  split at hfound
  · cases hfound
  case h_2 wire hwire =>
    rw [hwire, Option.bind_some]
    split at hfound
    · cases hfound
    case h_2 query hquery =>
      rw [hquery, Option.map_some]
      dsimp only at hfound
      split at hfound
      case h_1 value hvalue =>
        split at hfound
        case h_1 body hage =>
          obtain rfl := PreparedCacheLookup.hit.inj hfound
          exact ⟨wire, value, _, rfl, rfl, hvalue, hage⟩
        case h_2 => cases hfound
      all_goals cases hfound

lemma DohExchange.recorded {hit : CacheHit} (h : DohExchange H settings events O i ex)
    (hhit : Answered H settings events O i ex hit) : DohExchange H settings events O i (ex.record hit) where
  identified := h.identified
  waiting := h.waiting
  answered hit' hmem := by
    rcases List.mem_append.mp hmem with hold | hnew
    · exact h.answered hit' hold
    · obtain rfl := List.mem_singleton.mp hnew
      exact hhit

/-- A part of the query arrives; nothing has been looked up before its end. -/
lemma DohExchange.collects (hinv : ExchangeInv g H settings events O i ex) (h : DohExchange H settings events O i ex)
    (hphase : ex.phase = .proxied) (hopen : ex.bodyEnded = false) (chunk : Option Bytes) (ended : Bool) :
    DohExchange H settings events O i (ex.collect chunk ended) := by
  by_cases hbody : ex.dnsRequestBody = none
  · have hsame : (ex.collect chunk ended).dnsRequestBody = ex.dnsRequestBody := by
      simp [Exchange.collect, hbody]
    refine ⟨fun hkey => ?_, h.waiting, fun hit hmem => ?_⟩
    · rw [hsame]
      exact h.identified hkey
    · obtain ⟨key, j, value, now, wire, hkey, hrest⟩ := h.answered hit hmem
      refine ⟨key, j, value, now, wire, ?_, ?_⟩
      · rw [Exchange.requestKey, hsame]
        exact hkey
      · rw [hsame]
        exact hrest
  · obtain ⟨hhits, hkey⟩ := hinv.collecting hbody hopen
    refine ⟨fun hsome => absurd hkey hsome, fun _ hcoalescing => ?_, fun hit hmem => ?_⟩
    · have hcoalescing' : ex.phase = .coalescing _ := hcoalescing
      rw [hphase] at hcoalescing'
      cases hcoalescing'
    · have hmem' : hit ∈ ex.hits := hmem
      rw [hhits] at hmem'
      cases hmem'

lemma dnsCacheable_le_maxTtl {response : Bytes} {policy : DnsCachePolicy} {ttl : ℕ}
    (h : dnsCacheable response policy = .cacheable ttl) : ttl ≤ policy.maxTtl := by
  unfold dnsCacheable at h
  dsimp only at h
  split_ifs at h
  split at h
  · split at h
    · cases h
    · split_ifs at h
      rw [← DnsCacheDecision.cacheable.inj h]
      exact Nat.min_le_right _ _
  · rw [← DnsCacheDecision.cacheable.inj h]
    exact Nat.min_le_right _ _
  · cases h

/-- The times of an answer that has just been stored. -/
lemma times_of_stored {cache cache' : CacheRuntime} {pending : PendingCacheInsert} {now : ℕ} {victims : List UInt64}
    {key : CacheKey UInt64} {e : StoredEntry} (haction : pending.action = .store key)
    (h : storePendingInsert cache pending now victims = some (true, cache'))
    (he : cache'.store.data.lookup key.storageKey = some e) (hns : e.cacheNamespace = .dns) :
    e.value.storedAt = now ∧ e.value.freshUntil ≤ now + cache.dns.maxTtl := by
  have hinserted : ∀ value store, cache.store.insert key value victims = some (true, store) →
      store.data.lookup key.storageKey = some e → e = ⟨key.cacheNamespace, value, value.estimatedWeight⟩ := by
    intro value store hinsert hlookup
    obtain ⟨-, -, ⟨hrefused, -, -⟩ | ⟨-, -, hdata⟩⟩ := PingolaCache.insert_data hinsert
    · cases hrefused
    · rw [hdata] at hlookup
      by_cases hvictim : key.storageKey ∈ victims
      · rw [if_pos hvictim] at hlookup
        cases hlookup
      · rw [if_neg hvictim, if_pos rfl] at hlookup
        exact (Option.some.inj hlookup).symm
  unfold storePendingInsert at h
  rw [haction] at h
  dsimp only at h
  cases hkind : key.cacheNamespace with
  | dns =>
    rw [hkind] at h
    dsimp only at h
    split at h
    · cases h
    · rename_i ttl httl
      obtain ⟨⟨inserted, store⟩, hinsert, hresult⟩ := Option.map_eq_some_iff.mp h
      obtain ⟨rfl, rfl⟩ := Prod.mk.inj hresult
      rw [hinserted _ _ hinsert he]
      exact ⟨rfl, Nat.add_le_add_left (dnsCacheable_le_maxTtl httl) now⟩
  | navidrome =>
    rw [hkind] at h
    dsimp only at h
    split_ifs at h
    · cases h
    split at h
    · cases h
    · obtain ⟨⟨inserted, store⟩, hinsert, hresult⟩ := Option.map_eq_some_iff.mp h
      obtain ⟨rfl, rfl⟩ := Prod.mk.inj hresult
      rw [hinserted _ _ hinsert he, hkind] at hns
      cases hns

/-! ### Steps -/

variable (hinv : GatewayInv g H settings events s) (h : DohInv H settings events s)
include hinv h

/-- What a lookup under a key of DNS finds, with its times. -/
lemma timed_of_lookup {key : CacheKey UInt64} {now : ℕ} {value : CachedValue} (hns : key.cacheNamespace = .dns)
    (hfound : (s.cache.store.lookup key now).1 = .hit value) :
    ∃ j, s.lastStored key.storageKey = some j ∧ Origin H settings events s j key value.body ∧
      Timed settings events j value ∧ now < value.freshUntil := by
  obtain ⟨j, hlast, horigin⟩ := hinv.origin_of_hit hfound
  obtain ⟨e, he, hens, rfl, hfresh⟩ := PingolaCache.lookup_eq_hit hfound
  exact ⟨j, hlast, horigin, h.data _ e he (hens.trans hns) j hlast, hfresh⟩

/-- The hit of a first lookup. -/
lemma answered_of_prepareFor {now : ℕ} {response : CachedHttpResponse} {key : CacheKey UInt64}
    (hroute : ex.plan.route = .doh)
    (hkey : ex.requestKey H settings = some key) (hfound : (s.prepareFor H ex now).1 = .hit response)
    (hO : ∀ j key body, Origin H settings events s j key body → O j key body)
    (hasked : AskedAt (events ++ [ev]) i now) :
    Answered H settings (events ++ [ev]) O i ex (s.hit (some key) response) := by
  obtain ⟨wire, value, key', hwire, hkey', hvalue, hage⟩ := prepareFor_hit hroute hfound
  rw [hinv.unchanged, hkey] at hkey'
  obtain rfl := Option.some.inj hkey'
  obtain ⟨-, -, -, -, -, hns⟩ := exists_wire_of_requestKey hroute hkey
  obtain ⟨j, hlast, horigin, htimed, hfresh⟩ := timed_of_lookup hinv h hns hvalue
  exact ⟨key, j, value, now, wire, hkey, hlast, hO _ _ _ horigin, htimed.append ev, hasked, hfresh, hwire, hage⟩

/-- The hit of a waiter's second lookup. -/
lemma answered_of_lookupAgain {now : ℕ} {response : CachedHttpResponse} {key : CacheKey UInt64}
    (hroute : ex.plan.route = .doh)
    (hkey : ex.requestKey H settings = some key) (hex : DohExchange H settings events O i ex)
    (hcacheKey : ex.cacheKey = some key) (hfound : (s.lookupAgain ex key now).1 = some response)
    (hO : ∀ j key body, Origin H settings events s j key body → O' j key body)
    (hasked : AskedAt (events ++ [ev]) i now) :
    Answered H settings (events ++ [ev]) O' i ex (s.hit (some key) response) := by
  obtain ⟨wire, hwire, hid⟩ := hex.identified (by rw [hcacheKey]; exact Option.some_ne_none key)
  obtain ⟨-, -, -, -, -, hns⟩ := exists_wire_of_requestKey hroute hkey
  rw [GatewayState.lookupAgain] at hfound
  dsimp only at hfound
  split at hfound
  case h_1 value hvalue =>
    rw [hroute, hid] at hfound
    obtain ⟨body, hage, rfl⟩ := Option.map_eq_some_iff.mp hfound
    obtain ⟨j, hlast, horigin, htimed, hfresh⟩ := timed_of_lookup hinv h hns hvalue
    exact ⟨key, j, value, now, wire, hkey, hlast, hO _ _ _ horigin, htimed.append ev, hasked, hfresh, hwire, hage⟩
  all_goals cases hfound

lemma DohInv.tryServe {session : Session} {plan : PreparedPlan} {admission : Admission} {writer : Bool} {now : ℕ}
    (hnew : s.exchanges i = none) :
    DohInv H settings (events ++ [.request i session admission writer now])
      (s.tryServe g H i { session := session, plan := plan, phase := .filtered } writer now) := by
  have hopen : s.Unclosed i := by simp [GatewayState.Unclosed, hnew]
  have hasked : AskedAt (events ++ [.request i session admission writer now]) i now :=
    .inl ⟨session, admission, writer, List.mem_append_right _ (List.mem_singleton_self _)⟩
  generalize hex : ({ session := session, plan := plan, phase := .filtered } : Exchange) = ex
  have hfresh : ∀ origin, DohExchange H settings (events ++ [.request i session admission writer now]) origin i
      ex.identify := by
    rw [← hex]
    exact fun _ => ⟨fun hne => absurd rfl hne, fun _ hphase => (by cases hphase), fun _ hmem => (by cases hmem)⟩
  obtain ⟨cache, hstate, hcache, hfound⟩ := prepareFor_cases hinv ex.identify now
  have hput := fun moved => h.shrunk (.request i session admission writer now) moved rfl hopen hcache
  simp only [GatewayState.tryServe, hstate]
  rcases hfound with hbypass | ⟨key, hkey, hmiss | ⟨response, hhit, -⟩⟩
  · rw [hbypass]
    exact hput _ fun _ origin _ => hfresh origin
  · rw [hmiss]
    have hidentified : ex.plan.route = .doh → ∃ wire, dohWire ex.session.request ex.dnsRequestBody = some wire ∧
        ex.identify.dnsQueryId = some (u16At wire 0) := fun hroute => identified_of_requestKey hroute hkey
    dsimp only
    split_ifs
    · refine hput _ fun hroute origin _ => ?_
      exact ⟨fun _ => hidentified hroute, (hfresh origin).waiting, (hfresh origin).answered⟩
    · refine hput _ fun hroute origin _ => ?_
      refine ⟨fun _ => hidentified hroute, fun now' hphase => ?_, (hfresh origin).answered⟩
      rw [← ExchangePhase.coalescing.inj hphase]
      exact hasked
  · rw [hhit]
    dsimp only
    rw [hinv.unchanged, hkey]
    refine hput _ fun hdoh origin horigin => ?_
    have hroute : ex.identify.plan.route = .doh := hdoh
    have hrecorded := (hfresh origin).recorded (answered_of_prepareFor hinv h hroute hkey hhit horigin hasked)
    exact ⟨hrecorded.identified, fun _ hphase => (by cases hphase), hrecorded.answered⟩

/-- A waiter that looks again is answered from the cache or goes on as before. -/
lemma DohInv.serveAgain {key : CacheKey UInt64} {now : ℕ} {next : GatewayState → GatewayState} (ev : GatewayEvent)
    (hidx : ev.index = i) (hex : s.exchanges i = some ex) (hclosed : ex.phase ≠ .closed)
    (hkey : ex.cacheKey = some key) (hasked : ex.plan.route = .doh → AskedAt (events ++ [ev]) i now)
    (hnext : ∀ cache, Shrinks s.cache cache → DohInv H settings (events ++ [ev]) (next { s with cache := cache })) :
    DohInv H settings (events ++ [ev]) (s.serveAgain g i ex key now next) := by
  have hopen := unclosed_of_phase hex hclosed
  have hrequest := (hinv.exchanges i ex hex).cacheKey key hkey
  obtain ⟨cache, hstate, hcache, hfound⟩ := lookupAgain_cases hinv hrequest now
  simp only [GatewayState.serveAgain, hstate]
  rcases hfound with hnone | ⟨response, hhit, -⟩
  · rw [hnone]
    exact hnext cache hcache
  · rw [hhit]
    refine h.shrunk ev _ hidx hopen hcache fun hdoh origin horigin => ?_
    have hroute : ex.plan.route = .doh := hdoh
    have hold := h.exchanges i ex hex hroute
    have hanswered := answered_of_lookupAgain hinv h hroute hrequest hold hkey hhit horigin (hasked hroute)
    have hrecorded := (hold.append horigin ev).recorded hanswered
    exact ⟨hrecorded.identified, fun _ hphase => (by cases hphase), hrecorded.answered⟩

lemma DohInv.proxyUpstream {success : Bool} {now : ℕ} (hex : s.exchanges i = some ex) (hphase : ex.phase = .filtered) :
    DohInv H settings (events ++ [.proxy i success now]) (s.proxyUpstream g H i ex success now) := by
  have hopen := unclosed_of_phase hex (by simp [hphase])
  have hasked : AskedAt (events ++ [.proxy i success now]) i now :=
    .inr (.inl ⟨success, List.mem_append_right _ (List.mem_singleton_self _)⟩)
  have hstart : ∀ cache, Shrinks s.cache cache → DohInv H settings (events ++ [.proxy i success now])
      (({ s with cache := cache } : GatewayState).startProxy H i ex) := by
    intro cache hcache
    refine h.silent _ rfl hopen hcache fun hroute => ?_
    exact { h.exchanges i ex hex hroute with waiting := fun _ hproxied => (by cases hproxied) }
  unfold GatewayState.proxyUpstream
  split
  · refine h.silent _ rfl hopen (.refl _) fun hroute => ?_
    exact { h.exchanges i ex hex hroute with waiting := fun _ hclosed => (by cases hclosed) }
  · split
    · rename_i key hkey
      have hkey' : ex.cacheKey = some key := by
        split_ifs at hkey
        exact hkey
      exact h.serveAgain hinv (.proxy i success now) rfl hex (by simp [hphase]) hkey' (fun _ => hasked) hstart
    · exact hstart s.cache (.refl _)

lemma DohInv.receiveBody {chunk : Option Bytes} {endOfStream writer : Bool} {now : ℕ} (hex : s.exchanges i = some ex)
    (hphase : ex.phase = .proxied) (hended : ex.bodyEnded = false) :
    DohInv H settings (events ++ [.requestBody i chunk endOfStream writer now])
      (s.receiveBody H i ex chunk endOfStream writer now) := by
  have hopen := unclosed_of_phase hex (by simp [hphase])
  have hasked : AskedAt (events ++ [.requestBody i chunk endOfStream writer now]) i now :=
    .inr (.inr ⟨chunk, endOfStream, writer, List.mem_append_right _ (List.mem_singleton_self _)⟩)
  have hcollected := (hinv.exchanges i ex hex).collects hphase hended chunk endOfStream
  have hcollects : ex.plan.route = .doh → DohExchange H settings events (Origin H settings events s) i
      (ex.collect chunk endOfStream) := fun hroute =>
    (h.exchanges i ex hex hroute).collects (hinv.exchanges i ex hex) hphase hended chunk endOfStream
  unfold GatewayState.receiveBody
  split_ifs with hlarge hpost
  · refine h.silent _ rfl hopen (.refl _) fun hroute => ?_
    exact { h.exchanges i ex hex hroute with waiting := fun _ hclosed => (by cases hclosed) }
  · generalize hcollect : ex.collect chunk endOfStream = exc at hcollected hcollects ⊢
    have hplan : exc.plan = ex.plan := by rw [← hcollect]; rfl
    have hproxied : exc.phase = .proxied := by rw [← hcollect]; exact hphase
    have hidentify : exc.plan.route = .doh → exc.cacheKey ≠ none →
        ∃ wire, dohWire exc.session.request exc.dnsRequestBody = some wire ∧
          exc.identify.dnsQueryId = some (u16At wire 0) := by
      intro hroute hsome
      obtain ⟨key, hkey⟩ := Option.ne_none_iff_exists'.mp hsome
      exact identified_of_requestKey hroute (hcollected.cacheKey key hkey)
    obtain ⟨cache, hstate, hcache, hfound⟩ := prepareFor_cases hinv exc.identify now
    have hput := fun moved =>
      h.shrunk (.requestBody i chunk endOfStream writer now) moved rfl hopen hcache
    simp only [GatewayState.lookupBody, hstate]
    rcases hfound with hbypass | ⟨key, hkey, hmiss | ⟨response, hhit, -⟩⟩
    · rw [hbypass]
      refine hput _ fun hroute origin horigin => ?_
      have hold := (hcollects (hplan ▸ hroute)).append horigin (.requestBody i chunk endOfStream writer now)
      exact ⟨hidentify hroute, hold.waiting, hold.answered⟩
    · rw [hmiss]
      refine hput _ fun hdoh origin horigin => ?_
      have hroute : exc.plan.route = .doh := hdoh
      have hold := (hcollects (hplan ▸ hroute)).append horigin (.requestBody i chunk endOfStream writer now)
      exact ⟨fun _ => identified_of_requestKey hroute hkey, hold.waiting, hold.answered⟩
    · rw [hhit]
      dsimp only
      rw [hinv.unchanged, hkey]
      refine hput _ fun hdoh origin horigin => ?_
      have hroute : exc.plan.route = .doh := hdoh
      have hold := (hcollects (hplan ▸ hroute)).append horigin (.requestBody i chunk endOfStream writer now)
      have hidentified : DohExchange H settings (events ++ [.requestBody i chunk endOfStream writer now]) origin i
          exc.identify := ⟨hidentify hroute, hold.waiting, hold.answered⟩
      have hrecorded := hidentified.recorded (answered_of_prepareFor hinv h hroute hkey hhit horigin hasked)
      exact ⟨hrecorded.identified, hrecorded.waiting, hrecorded.answered⟩
  · exact h.silent _ rfl hopen (.refl _) hcollects

lemma DohInv.receiveResponse {chunk : Option Bytes} {endOfStream : Bool} {now : ℕ} {victims : List UInt64}
    (hex : s.exchanges i = some ex) (hphase : ex.phase = .proxied)
    (hstep : s.receiveResponse i ex chunk endOfStream now victims = some t) :
    DohInv H settings (events ++ [.responseBody i chunk endOfStream now victims]) t := by
  have hopen := unclosed_of_phase hex (by simp [hphase])
  have hclosed : ex.plan.route = .doh → DohExchange H settings events (Origin H settings events s) i
      { ex with phase := .closed, pendingInsert := none } := fun hroute =>
    { h.exchanges i ex hex hroute with waiting := fun _ hclosed => (by cases hclosed) }
  cases GatewayState.receives_of_receiveResponse hstep with
  | goesOn => exact h.silent _ rfl hopen (.refl _) fun hroute => { h.exchanges i ex hex hroute with }
  | closes => exact h.silent _ rfl hopen (.refl _) hclosed
  | @stores pending inserted cache hpending hstatus hstore =>
    have hmoves := moves_put (.responseBody i chunk true now victims)
      { ex with phase := .closed, pendingInsert := none } cache (s.storedAfter i pending.action inserted) hopen
    have hcompleted : CompletedAt (events ++ [.responseBody i chunk true now victims]) i now :=
      ⟨chunk, victims, List.mem_append_right _ (List.mem_singleton_self _)⟩
    refine h.moved hmoves (fun k e he hns j hj => ?_) fun hroute =>
      (hclosed hroute).append (fun _ _ _ => hmoves.origin) _
    replace hj : s.storedAfter i pending.action inserted k = some j := hj
    rcases s.storedAfter_cases i hstore with ⟨key, haction, rfl, hstores, hlast⟩ | ⟨hshrinks, hlast⟩
    · rw [hlast] at hj
      rcases hstores.data k e he with ⟨rfl, -, -⟩ | ⟨hne, he⟩
      · obtain rfl : i = j := by simpa using hj
        obtain ⟨hstored, hbound⟩ := times_of_stored haction hstore he hns
        have hdns : s.cache.dns = settings.dns := congrArg CacheSettings.dns hinv.unchanged
        exact ⟨hstored ▸ hcompleted, by rw [hstored, ← hdns]; exact hbound⟩
      · rw [Function.update_of_ne hne] at hj
        exact (h.data k e he hns j hj).append _
    · rw [hlast] at hj
      exact (h.data k e (hshrinks.data k e he) hns j hj).append _

lemma DohInv.arrive {session : Session} {admission : Admission} {plan : PreparedPlan} {writer : Bool} {now : ℕ}
    (hnew : s.exchanges i = none) :
    DohInv H settings (events ++ [.request i session admission writer now])
      (s.arrive g H i session plan writer now) := by
  have hopen : s.Unclosed i := by simp [GatewayState.Unclosed, hnew]
  have hplain : ∀ dnsBody, DohInv H settings (events ++ [.request i session admission writer now])
      (s.put i { session := session, plan := plan, phase := .filtered, dnsRequestBody := dnsBody }) := fun _ =>
    h.silent _ rfl hopen (.refl _) fun _ =>
      ⟨fun hne => absurd rfl hne, fun _ hphase => (by cases hphase), fun _ hmem => (by cases hmem)⟩
  unfold GatewayState.arrive
  dsimp only
  split_ifs
  · exact hplain (some [])
  · exact h.tryServe hinv hnew
  · exact hplain none

lemma DohInv.step (hstep : s.step g H ev = some t) : DohInv H settings (events ++ [ev]) t := by
  have hnext : ∀ {i ex now success cache}, s.exchanges i = some ex → ex.phase = .coalescing now →
      Shrinks s.cache cache → DohInv H settings (events ++ [.waited i success])
        (({ s with cache := cache } : GatewayState).put i { ex with phase := .filtered }) := by
    intro i ex now success cache hex hphase hcache
    refine h.silent _ rfl (unclosed_of_phase hex (by simp [hphase])) hcache fun hroute => ?_
    exact { h.exchanges i ex hex hroute with waiting := fun _ hfiltered => (by cases hfiltered) }
  cases GatewayState.steps_of_step g H hstep with
  | arrive hnew hproceed => exact h.arrive hinv hnew
  | @refuse i session admission writer now hnew =>
    have horigin : ∀ j key body, Origin H settings events s j key body →
        Origin H settings (events ++ [.request i session admission writer now]) s j key body := by
      intro j key body ho
      refine ho.mono fun ex hex _ => ⟨hex, ?_⟩
      rintro rfl
      exact absurd (hnew.symm.trans hex) (Option.some_ne_none ex).symm
    refine ⟨fun k e he hns j hj => (h.data k e he hns j hj).append _, fun j ex hex hroute => ?_⟩
    exact (h.exchanges j ex hex hroute).append horigin _
  | @wake i ex now key hex hphase hkey =>
    exact h.serveAgain hinv (.waited i true) rfl hex (by simp [hphase]) hkey
      (fun hroute => ((h.exchanges i ex hex hroute).waiting now hphase).append _) fun _ => hnext hex hphase
  | giveUp hex hphase => exact hnext hex hphase (.refl _)
  | proxy hex hphase => exact h.proxyUpstream hinv hex hphase
  | requestBody hex hphase hended => exact h.receiveBody hinv hex hphase hended
  | responseHeader hex hphase =>
    exact h.silent _ rfl (unclosed_of_phase hex (by simp [hphase])) (.refl _) fun hroute =>
      { h.exchanges _ _ hex hroute with }
  | responseBody hex hphase _ hreceive => exact h.receiveResponse hinv hex hphase hreceive
  | abort hex hopen =>
    refine h.silent _ rfl (unclosed_of_phase hex hopen) (.refl _) fun hroute => ?_
    exact { h.exchanges _ _ hex hroute with waiting := fun _ hclosed => (by cases hclosed) }

end

variable {g H} {events : List GatewayEvent} {s : GatewayState}

lemma dohInv_of_run (hrun : g.Run H events s) : DohInv H g.settings events s := by
  have hboth : GatewayInv g H g.settings events s ∧ DohInv H g.settings events s := by
    refine Runs.Run.invariant (fun events s => GatewayInv g H g.settings events s ∧ DohInv H g.settings events s) ?_
      hrun ⟨gatewayInv_init, ?_⟩
    · rintro past s ev t hstep ⟨hinv, hdoh⟩
      exact ⟨hinv.step hstep, hdoh.step hinv hstep⟩
    · refine ⟨fun k e he => ?_, fun i ex hex => (by cases hex)⟩
      simp [GatewayState.init, buildCacheRuntime, PingolaCache.new] at he
  exact hboth.2

/-! ### Answers -/

/-- A DNS answer from the cache has its own length and is not kept by the client. -/
lemma cachedResponseHeader_spec (session : Session) {plan : PreparedPlan} (hroute : plan.route = .doh)
    (response : CachedHttpResponse) :
    (cachedResponseHeader g session plan response).status = response.status ∧
      MultiMap.getAll (cachedResponseHeader g session plan response).headers contentLengthName =
        [natText response.body.length] ∧
      MultiMap.getAll (cachedResponseHeader g session plan response).headers (ascii "cache-control") =
        [ascii "no-store"] := by
  have hdecorated : cachedResponseHeader g session plan response = decorateResponse g session plan
      (stripDohCachingHeaders ((ResponseHeader.insertTypedHeader ⟨response.status, []⟩ (ascii "content-type")
        response.contentType).insertTypedHeader contentLengthName (natText response.body.length))) := by
    unfold cachedResponseHeader
    dsimp only
    rw [if_pos hroute]
    rfl
  rw [hdecorated]
  refine ⟨by rw [decorateResponse_eq]; rfl, ?_, ?_⟩
  · rw [getAll_decorateResponse, if_pos (getAll_addedFields_of_not_fixed (by decide)),
      getAll_stripDohCachingHeaders _ (by decide)]
    exact MultiMap.getAll_insert_self _ _ _
  · rw [getAll_decorateResponse, if_pos (getAll_addedFields_of_not_fixed (by decide))]
    exact MultiMap.getAll_insert_self _ _ _

/-- No two queries of the exchanges share a key by chance. -/
def DistinctKeys (H : AHasher UInt64) (s : GatewayState) : Prop :=
  ∀ i j ex ex' wire wire' query query', s.exchanges i = some ex → s.exchanges j = some ex' →
    dohWire ex.session.request ex.dnsRequestBody = some wire →
    dohWire ex'.session.request ex'.dnsRequestBody = some wire' →
    dnsQueryKey H wire = some query → dnsQueryKey H wire' = some query' →
    cacheKeyForQuery H query = cacheKeyForQuery H query' → query = query'

/-- Every answer from the cache is the answer that an upstream gave to a query with the same key, which asks for the
same dotted name, type and class with the same RD and CD bits, with the transaction id of the client. Each TTL has
gone down by the whole seconds since then and none has run out. -/
theorem doh_answer_from_cache (hdistinct : DistinctKeys H s) (hrun : g.Run H events s) {i : ℕ} {ex : Exchange}
    (hex : s.exchanges i = some ex) (hroute : ex.plan.route = .doh) {header : ResponseHeader} {body : Bytes}
    (hreply : ex.reply = some (header, body)) :
    ∃ wire query j exj wire' upstream storedAt now owners,
      dohWire ex.session.request ex.dnsRequestBody = some wire ∧ dnsQueryKey H wire = some query ∧
      s.exchanges j = some exj ∧ dohWire exj.session.request exj.dnsRequestBody = some wire' ∧
      dnsQueryKey H wire' = some query ∧
      (∃ q q', Asks wire q ∧ Asks wire' q' ∧ q.dottedName = q'.dottedName ∧ q.qtype = q'.qtype ∧
        q.qclass = q'.qclass ∧ q.rd = q'.rd ∧ q.cd = q'.cd) ∧
      headerOf events j = some upstream ∧ upstream.status = 200 ∧
      CompletedAt events j storedAt ∧ AskedAt events i now ∧ now < storedAt + g.settings.dns.maxTtl ∧
      messageOwners (bodyOf events j) = some owners ∧
      AgedFor (elapsedSecs storedAt now) (u16At wire 0) owners (bodyOf events j) body ∧
      header.status = 200 ∧
      MultiMap.getAll header.headers (ascii "content-length") = [natText body.length] ∧
      MultiMap.getAll header.headers (ascii "cache-control") = [ascii "no-store"] := by
  have hinv := gatewayInv_of_run hrun
  obtain ⟨hit, hmem, heq⟩ := (hinv.exchanges i ex hex).reply _ hreply
  obtain ⟨rfl, rfl⟩ := Prod.mk.inj heq
  obtain ⟨key, j, value, now, wire, hkey, -, horigin, htimed, hasked, hfresh, hwire, hage⟩ :=
    ((dohInv_of_run hrun).exchanges i ex hex hroute).answered hit hmem
  obtain ⟨exj, upstream, hexj, -, hkeyj, hbody, hupstream, hstatus⟩ := horigin
  obtain ⟨wire', query, hwire', hquery, hkeyq, hns⟩ := exists_wire_of_requestKey hroute hkey
  obtain rfl := Option.some.inj (hwire.symm.trans hwire')
  have hroutej : exj.plan.route = .doh := by
    rcases cacheKeyFor_namespace hkeyj with ⟨hdoh, -⟩ | ⟨-, hapi⟩
    · exact hdoh
    · rw [hns] at hapi
      cases hapi
  obtain ⟨wirej, queryj, hwirej, hqueryj, hkeyqj, -⟩ := exists_wire_of_requestKey hroutej hkeyj
  obtain rfl := hdistinct i j ex exj wire wirej query queryj hex hexj hwire hwirej hquery hqueryj
    (hkeyq.symm.trans hkeyqj)
  obtain ⟨owners, howners, -, haged⟩ := (ageDnsResponseForQuery_eq_some_iff (u16At_lt wire 0)).mp hage
  obtain ⟨_, _, _, _, _, -, -, -, -, hmaterialized⟩ := (hinv.exchanges i ex hex).hits hit hmem
  rw [hroute] at hmaterialized
  obtain ⟨aged, -, hresponse⟩ := Option.map_eq_some_iff.mp hmaterialized
  have hok : hit.response.status = 200 := by rw [← hresponse]
  obtain ⟨hheader, hlength, hcache⟩ := cachedResponseHeader_spec (g := g) ex.session hroute hit.response
  rw [← hbody] at howners haged
  have hasks : ∃ q q', Asks wire q ∧ Asks wirej q' ∧ q.dottedName = q'.dottedName ∧ q.qtype = q'.qtype ∧
      q.qclass = q'.qclass ∧ q.rd = q'.rd ∧ q.cd = q'.cd := by
    obtain ⟨q, hq, hkeyOf⟩ := dnsQueryKey_eq_some hquery
    obtain ⟨q', hq', hkeyOf'⟩ := dnsQueryKey_eq_some hqueryj
    have hsame : q.key H = q'.key H := by rw [← hkeyOf, ← hkeyOf']
    exact ⟨q, q', hq, hq', congrArg DnsQueryKey.qname hsame, congrArg DnsQueryKey.qtype hsame,
      congrArg DnsQueryKey.qclass hsame, congrArg DnsQueryKey.rd hsame, congrArg DnsQueryKey.cd hsame⟩
  exact ⟨wire, query, j, exj, wirej, upstream, value.storedAt, now, owners, hwire, hquery, hexj, hwirej, hqueryj,
    hasks, hupstream, hstatus, htimed.completed, hasked, hfresh.trans_le htimed.bounded, howners, haged,
    hheader.trans hok, hlength, hcache⟩

/-! ### Two hosts -/

namespace GatewayState

lemma exchanges_put {s : GatewayState} {i j : ℕ} (hne : j ≠ i) (ex : Exchange) :
    (s.put i ex).exchanges j = s.exchanges j := Function.update_of_ne hne _ _

lemma exchanges_serveAgain {s : GatewayState} {i j : ℕ} (hne : j ≠ i) {ex : Exchange} {key : CacheKey UInt64} {now : ℕ}
    {next : GatewayState → GatewayState} (hnext : ∀ s, (next s).exchanges j = s.exchanges j) :
    (s.serveAgain g i ex key now next).exchanges j = s.exchanges j := by
  unfold serveAgain
  dsimp only
  split
  · exact exchanges_put hne _
  · exact hnext _

lemma exchanges_tryServe {s : GatewayState} {i j : ℕ} (hne : j ≠ i) {ex : Exchange} {writer : Bool} {now : ℕ} :
    (s.tryServe g H i ex writer now).exchanges j = s.exchanges j := by
  unfold tryServe
  dsimp only
  split
  · exact exchanges_put hne _
  · exact exchanges_put hne _
  · split
    · exact exchanges_put hne _
    · exact exchanges_put hne _

/-- A step leaves the exchanges of other events alone. -/
lemma exchanges_step {s t : GatewayState} {ev : GatewayEvent} (h : s.step g H ev = some t) {j : ℕ}
    (hne : j ≠ ev.index) : t.exchanges j = s.exchanges j := by
  cases steps_of_step g H h with
  | arrive =>
    unfold arrive
    dsimp only
    split_ifs
    · exact exchanges_put hne _
    · exact exchanges_tryServe hne
    · exact exchanges_put hne _
  | refuse => rfl
  | wake => exact exchanges_serveAgain hne fun s => exchanges_put hne _
  | giveUp => exact exchanges_put hne _
  | proxy =>
    unfold proxyUpstream
    split
    · exact exchanges_put hne _
    · split
      · exact exchanges_serveAgain hne fun s => exchanges_put hne _
      · exact exchanges_put hne _
  | requestBody =>
    unfold receiveBody lookupBody
    dsimp only
    split_ifs
    · exact exchanges_put hne _
    · split
      · exact exchanges_put hne _
      · exact exchanges_put hne _
      · exact exchanges_put hne _
    · exact exchanges_put hne _
  | responseHeader => exact exchanges_put hne _
  | responseBody _ _ _ hreceive =>
    cases receives_of_receiveResponse hreceive with
    | goesOn => exact exchanges_put hne _
    | closes => exact exchanges_put hne _
    | stores => exact exchanges_put hne _
  | abort => exact exchanges_put hne _

end GatewayState

lemma exchanges_of_run (hrun : g.Run H events s) {j : ℕ} (hne : ∀ ev ∈ events, j ≠ ev.index) : s.exchanges j = none := by
  refine Runs.Run.invariant (fun past s => (∀ ev ∈ past, j ≠ ev.index) → s.exchanges j = none)
    (fun past s ev t hstep ih hpast => ?_) hrun (fun _ => rfl) hne
  rw [GatewayState.exchanges_step hstep (hpast ev (by simp))]
  exact ih fun ev hev => hpast ev (List.mem_append_left _ hev)

/-- The query of both hosts. -/
def sharedQuery : Bytes := [18, 52, 1, 0, 0, 1, 0, 0, 0, 0, 0, 0, 1, 97, 0, 0, 1, 0, 1]

lemma dnsRun_wires : ∀ i < 2, (((dnsRun true).bind (·.exchanges i)).map fun ex =>
    (ex.plan.route, dohWire ex.session.request ex.dnsRequestBody)) = some (.doh, some sharedQuery) := by
  decide +kernel

lemma dnsRun_distinctKeys (hs : dnsRun true = some s) : DistinctKeys fnvHasher s := by
  have hwire : ∀ i ex, s.exchanges i = some ex →
      dohWire ex.session.request ex.dnsRequestBody = some sharedQuery := by
    intro i ex hex
    by_cases hi : i < 2
    · have hobserved := dnsRun_wires i hi
      rw [hs, Option.bind_some, hex] at hobserved
      exact (Prod.mk.inj (Option.some.inj hobserved)).2
    · have hnone : s.exchanges i = none := by
        refine exchanges_of_run (Runs.run_of_exec hs) fun ev hev heq => hi ?_
        have hindex : ∀ ev ∈ dnsEvents, ev.index < 2 := by decide
        exact heq ▸ hindex ev hev
      rw [hnone] at hex
      cases hex
  intro i j ex ex' wire wire' query query' hex hex' hw hw' hq hq' _
  obtain rfl : wire = sharedQuery := Option.some.inj (hw.symm.trans (hwire i ex hex))
  obtain rfl : wire' = sharedQuery := Option.some.inj (hw'.symm.trans (hwire j ex' hex'))
  exact Option.some.inj (hq.symm.trans hq')

theorem dns_answer_of_other_host : ∃ s ex header, (exampleGateway true).Run fnvHasher dnsEvents s ∧
    DistinctKeys fnvHasher s ∧ s.exchanges 1 = some ex ∧ ex.plan.route = .doh ∧
    ex.reply = some (header, exampleAnswer.set 28 43) ∧
    ∃ j storedAt now owners, CompletedAt dnsEvents j storedAt ∧ AskedAt dnsEvents 1 now ∧
      AgedFor (elapsedSecs storedAt now) (u16At sharedQuery 0) owners (bodyOf dnsEvents j) (exampleAnswer.set 28 43) := by
  obtain ⟨-, hobserved⟩ := dnsRun_observed true
  obtain ⟨s, hs, hobserved⟩ := Option.bind_eq_some_iff.mp hobserved
  obtain ⟨ex, hex, hobserved⟩ := Option.map_eq_some_iff.mp hobserved
  have hreply : ex.reply.map Prod.snd = some (exampleAnswer.set 28 43) := (Prod.mk.inj (Prod.mk.inj hobserved).2).2
  obtain ⟨⟨header, body⟩, hreply, rfl⟩ := Option.map_eq_some_iff.mp hreply
  have hwires := dnsRun_wires 1 (by decide)
  rw [hs, Option.bind_some, hex] at hwires
  obtain ⟨hroute, hwire⟩ := Prod.mk.inj (Option.some.inj hwires)
  have hrun := Runs.run_of_exec hs
  have hdistinct := dnsRun_distinctKeys hs
  obtain ⟨wire, _, j, _, _, _, storedAt, now, owners, hwire', -, -, -, -, -, -, -, hcompleted, hasked, -, -, haged, -⟩ :=
    doh_answer_from_cache hdistinct hrun hex hroute hreply
  obtain rfl : wire = sharedQuery := Option.some.inj (hwire'.symm.trans hwire)
  exact ⟨s, ex, header, hrun, hdistinct, hex, hroute, hreply, j, storedAt, now, owners, hcompleted, hasked, haged⟩

end Pingola
