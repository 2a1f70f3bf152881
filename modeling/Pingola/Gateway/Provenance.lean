import Pingola.Gateway.Exchange

/-!
# Where cached responses come from

In every run of the gateway each cached entry holds the body that one exchange received from its
upstream, and each hit of another exchange is made from such an entry under its own key.
-/

namespace Pingola
open ByteText

namespace GatewayEvent

def index : GatewayEvent → ℕ
  | .request i .. | .waited i _ | .proxy i .. | .requestBody i .. | .responseHeader i _
  | .responseBody i .. | .abort i => i

/-- The bytes that an event adds to the response of an exchange. -/
def bodyPart (i : ℕ) : GatewayEvent → Bytes
  | .responseBody j chunk _ _ _ => if j = i then chunk.getD [] else []
  | _ => []

def headerPart (i : ℕ) : GatewayEvent → Option ResponseHeader
  | .responseHeader j header => if j = i then some header else none
  | _ => none

lemma bodyPart_of_ne {i : ℕ} {ev : GatewayEvent} (h : ev.index ≠ i) : ev.bodyPart i = [] := by
  cases ev <;> simp_all [bodyPart, index]

lemma headerPart_of_ne {i : ℕ} {ev : GatewayEvent} (h : ev.index ≠ i) : ev.headerPart i = none := by
  cases ev <;> simp_all [headerPart, index]

end GatewayEvent

/-- The body that the upstream of an exchange has sent. -/
def bodyOf (events : List GatewayEvent) (i : ℕ) : Bytes := events.flatMap (·.bodyPart i)

/-- The last response header that the upstream of an exchange has sent. -/
def headerOf (events : List GatewayEvent) (i : ℕ) : Option ResponseHeader :=
  (events.filterMap (·.headerPart i)).getLast?

section
variable {events : List GatewayEvent} {ev : GatewayEvent} {i : ℕ}

lemma bodyOf_append : bodyOf (events ++ [ev]) i = bodyOf events i ++ ev.bodyPart i := by
  simp [bodyOf]

lemma headerOf_append : headerOf (events ++ [ev]) i = (ev.headerPart i).or (headerOf events i) := by
  unfold headerOf
  cases h : ev.headerPart i <;> simp [h, List.filterMap_append]

lemma bodyOf_append_of_ne (h : ev.index ≠ i) : bodyOf (events ++ [ev]) i = bodyOf events i := by
  rw [bodyOf_append, GatewayEvent.bodyPart_of_ne h, List.append_nil]

lemma headerOf_append_of_ne (h : ev.index ≠ i) : headerOf (events ++ [ev]) i = headerOf events i := by
  rw [headerOf_append, GatewayEvent.headerPart_of_ne h, Option.none_or]

end

variable {env : Surroundings} (g : Gateway env) (H : AHasher UInt64) (settings : CacheSettings)

/-- A finished exchange under a key, whose upstream answered 200 with this body. -/
def Origin (events : List GatewayEvent) (s : GatewayState) (j : ℕ) (key : CacheKey UInt64)
    (body : Bytes) : Prop :=
  ∃ ex header, s.exchanges j = some ex ∧ ex.phase = .closed ∧ ex.requestKey H settings = some key ∧
    bodyOf events j = body ∧ headerOf events j = some header ∧ header.status = 200

/-- What the history of a hit says: its response is made from the body of an origin under its
key. -/
def Sourced (origin : ℕ → CacheKey UInt64 → Bytes → Prop) (ex : Exchange) (hit : CacheHit) : Prop :=
  ∃ key j value now queryId, hit.key = some key ∧ ex.requestKey H settings = some key ∧
    hit.source = some j ∧ origin j key value.body ∧
    materializeCachedLookup ex.plan.route value now queryId = some hit.response

structure ExchangeInv (events : List GatewayEvent) (origin : ℕ → CacheKey UInt64 → Bytes → Prop)
    (i : ℕ) (ex : Exchange) : Prop where
  plan : ex.plan ∈ g.routing.plans
  proxied : ∀ p, ex.pendingInsert = some p → ex.phase = .proxied ∧ p.body = bodyOf events i ∧
    ∀ key, p.action = .store key → ex.requestKey H settings = some key ∧ ex.dnsRequestBody = none
  status : ∀ p, ex.pendingInsert = some p → ex.responded = true →
    ∃ header, headerOf events i = some header ∧ p.status = header.status
  filtering : ex.phase ≠ .proxied → ex.phase ≠ .closed → bodyOf events i = [] ∧
    ex.responded = false ∧ ex.bodyEnded = false ∧ ∀ body, ex.dnsRequestBody = some body → body = []
  cacheKey : ∀ key, ex.cacheKey = some key → ex.requestKey H settings = some key
  doh : ex.dnsRequestBody ≠ none → ex.plan.route = .doh
  collecting : ex.dnsRequestBody ≠ none → ex.bodyEnded = false → ex.hits = [] ∧ ex.cacheKey = none
  hits : ∀ hit ∈ ex.hits, Sourced H settings origin ex hit
  cacheHit : ∀ response, ex.cacheHit = some response → ∃ hit ∈ ex.hits, hit.response = response
  reply : ∀ r, ex.reply = some r → ∃ hit ∈ ex.hits,
    r = (cachedResponseHeader g ex.session ex.plan hit.response, hit.response.body)

structure GatewayInv (events : List GatewayEvent) (s : GatewayState) : Prop where
  unchanged : s.cache.settings = settings
  fresh : ∀ i, s.exchanges i = none → bodyOf events i = []
  data : ∀ k e, s.cache.store.data.lookup k = some e → ∃ j key, s.lastStored k = some j ∧
    key.storageKey = k ∧ key.cacheNamespace = e.cacheNamespace ∧
    Origin H settings events s j key e.value.body
  exchanges : ∀ i ex, s.exchanges i = some ex →
    ExchangeInv g H settings events (Origin H settings events s) i ex

section
variable {g H settings} {events events' : List GatewayEvent} {ev : GatewayEvent} {s t : GatewayState}
  {i j : ℕ} {ex ex' : Exchange} {O O' : ℕ → CacheKey UInt64 → Bytes → Prop}

lemma Sourced.mono {hit : CacheHit} (h : Sourced H settings O ex hit)
    (hO : ∀ j key body, O j key body → O' j key body)
    (hkey : ex'.requestKey H settings = ex.requestKey H settings) (hplan : ex'.plan = ex.plan) :
    Sourced H settings O' ex' hit := by
  obtain ⟨key, j, value, now, queryId, hhit, hex, hsource, horigin, hmat⟩ := h
  exact ⟨key, j, value, now, queryId, hhit, hkey.trans hex, hsource, hO _ _ _ horigin, hplan ▸ hmat⟩

lemma ExchangeInv.mono (h : ExchangeInv g H settings events O i ex)
    (hO : ∀ j key body, O j key body → O' j key body) (hbody : bodyOf events' i = bodyOf events i)
    (hheader : headerOf events' i = headerOf events i) : ExchangeInv g H settings events' O' i ex :=
  { h with
    proxied := by rw [hbody]; exact h.proxied
    status := by rw [hheader]; exact h.status
    filtering := by rw [hbody]; exact h.filtering
    hits := fun hit hmem => (h.hits hit hmem).mono hO rfl rfl }

/-- A closed exchange that an event leaves alone stays an origin. -/
lemma Origin.mono {key : CacheKey UInt64} {body : Bytes} (h : Origin H settings events s j key body)
    (hkeep : ∀ ex, s.exchanges j = some ex → ex.phase = .closed →
      t.exchanges j = some ex ∧ ev.index ≠ j) : Origin H settings (events ++ [ev]) t j key body := by
  obtain ⟨ex, header, hex, hclosed, hkey, hbody, hheader, hstatus⟩ := h
  obtain ⟨ht, hne⟩ := hkeep ex hex hclosed
  exact ⟨ex, header, ht, hclosed, hkey, by rw [bodyOf_append_of_ne hne, hbody],
    by rw [headerOf_append_of_ne hne, hheader], hstatus⟩

def GatewayState.Unclosed (s : GatewayState) (i : ℕ) : Prop :=
  ∀ ex, s.exchanges i = some ex → ex.phase ≠ .closed

lemma unclosed_of_phase (hex : s.exchanges i = some ex) (hphase : ex.phase ≠ .closed) : s.Unclosed i := by
  simpa [GatewayState.Unclosed, hex] using hphase

/-- An event that gives exchange `i`, which is not closed, a new value. -/
structure Moves (s t : GatewayState) (ev : GatewayEvent) (ex' : Exchange) : Prop where
  others : ∀ j, j ≠ ev.index → t.exchanges j = s.exchanges j
  self : t.exchanges ev.index = some ex'
  open_ : ∀ ex, s.exchanges ev.index = some ex → ex.phase ≠ .closed

lemma moves_put (ev : GatewayEvent) (ex' : Exchange) (cache : CacheRuntime) (last : UInt64 → Option ℕ)
    (hopen : s.Unclosed ev.index) :
    Moves s (({ s with cache := cache, lastStored := last } : GatewayState).put ev.index ex') ev ex' :=
  ⟨fun _ hj => Function.update_of_ne hj _ _, Function.update_self _ _ _, hopen⟩

lemma Moves.origin (h : Moves s t ev ex') {key : CacheKey UInt64} {body : Bytes}
    (horigin : Origin H settings events s j key body) : Origin H settings (events ++ [ev]) t j key body := by
  refine horigin.mono fun ex hex hclosed => ?_
  have hne : ev.index ≠ j := by
    rintro rfl
    exact h.open_ ex hex hclosed
  exact ⟨by rw [h.others j hne.symm, hex], hne⟩

/-- A step that moves one exchange and stores nothing keeps the invariant if the exchange has its
part of it. -/
lemma GatewayInv.moved (h : GatewayInv g H settings events s) (hmoves : Moves s t ev ex')
    (hsettings : t.cache.settings = s.cache.settings)
    (hdata : ∀ k e, t.cache.store.data.lookup k = some e → ∃ j key, t.lastStored k = some j ∧
      key.storageKey = k ∧ key.cacheNamespace = e.cacheNamespace ∧
      Origin H settings (events ++ [ev]) t j key e.value.body)
    (hex' : ExchangeInv g H settings (events ++ [ev]) (Origin H settings (events ++ [ev]) t) ev.index ex') :
    GatewayInv g H settings (events ++ [ev]) t where
  unchanged := hsettings.trans h.unchanged
  fresh j hj := by
    have hne : ev.index ≠ j := by
      rintro rfl
      simp [hmoves.self] at hj
    rw [bodyOf_append_of_ne hne]
    exact h.fresh j (by rw [← hmoves.others j hne.symm, hj])
  data := hdata
  exchanges j ex hj := by
    by_cases hne : j = ev.index
    · subst hne
      obtain rfl : ex' = ex := by simpa [hmoves.self] using hj
      exact hex'
    · rw [hmoves.others j hne] at hj
      exact (h.exchanges j ex hj).mono (fun _ _ _ => hmoves.origin)
        (bodyOf_append_of_ne (Ne.symm hne)) (headerOf_append_of_ne (Ne.symm hne))

lemma GatewayInv.shrunk (h : GatewayInv g H settings events s) {cache : CacheRuntime}
    (hidx : ev.index = i) (hopen : s.Unclosed i)
    (hcache : Shrinks s.cache cache)
    (hex' : ∀ origin, (∀ j key body, Origin H settings events s j key body → origin j key body) →
      ExchangeInv g H settings (events ++ [ev]) origin i ex') :
    GatewayInv g H settings (events ++ [ev]) (({ s with cache := cache } : GatewayState).put i ex') := by
  subst hidx
  have hmoves := moves_put ev ex' cache s.lastStored hopen
  refine h.moved hmoves hcache.settings (fun k e he => ?_) (hex' _ fun _ _ _ => hmoves.origin)
  obtain ⟨j, key, hlast, hkey, hns, horigin⟩ := h.data k e (hcache.data k e he)
  exact ⟨j, key, hlast, hkey, hns, hmoves.origin horigin⟩

/-- A hit is made from the body of the exchange that stored last under its key. -/
lemma GatewayInv.origin_of_hit (h : GatewayInv g H settings events s) {key : CacheKey UInt64} {now : ℕ}
    {value : CachedValue} (hfound : (s.cache.store.lookup key now).1 = .hit value) :
    ∃ j, s.lastStored key.storageKey = some j ∧ Origin H settings events s j key value.body := by
  obtain ⟨e, he, hns, rfl, -⟩ := PingolaCache.lookup_eq_hit hfound
  obtain ⟨j, key', hlast, hkey, hns', horigin⟩ := h.data _ e he
  obtain rfl := CacheKey.storageKey_inj (hns'.trans hns) hkey
  exact ⟨j, hlast, horigin⟩

/-! ### What each hook does to an exchange -/

lemma exchangeInv_new {session : Session} {plan : PreparedPlan} {dnsBody : Option Bytes}
    (hplan : plan ∈ g.routing.plans) (hbody : bodyOf events i = [])
    (hdns : ∀ body, dnsBody = some body → body = [] ∧ plan.route = .doh) :
    ExchangeInv g H settings events O i
      { session := session, plan := plan, phase := .filtered, dnsRequestBody := dnsBody } where
  plan := hplan
  proxied p hp := by simp at hp
  status p hp := by simp at hp
  filtering _ _ := ⟨hbody, rfl, rfl, fun body hb => (hdns body hb).1⟩
  cacheKey key hk := by simp at hk
  doh hne := by
    obtain ⟨body, hb⟩ := Option.ne_none_iff_exists'.mp hne
    exact (hdns body hb).2
  collecting _ _ := ⟨rfl, rfl⟩
  hits hit hmem := by simp at hmem
  cacheHit r hr := by simp at hr
  reply r hr := by simp at hr

lemma requestKey_of_empty (hroute : ex.plan.route = .doh) (hbody : ex.dnsRequestBody = some []) :
    ex.requestKey H settings = none := by
  have hquery : dnsQueryKey H [] = none := by simp [dnsQueryKey]
  simp [Exchange.requestKey, cacheKeyFor, hroute, hbody, dohWire, hquery]

section

variable (h : ExchangeInv g H settings events O i ex)
include h

lemma ExchangeInv.pendingInsert_eq_none (hphase : ex.phase ≠ .proxied) : ex.pendingInsert = none := by
  rw [Option.eq_none_iff_forall_ne_some]
  intro p hp
  exact hphase (h.proxied p hp).1

lemma ExchangeInv.identify : ExchangeInv g H settings events O i ex.identify :=
  { h with }

lemma ExchangeInv.missed {key : CacheKey UInt64} (hkey : ex.requestKey H settings = some key)
    (hcollected : ex.dnsRequestBody = none ∨ ex.bodyEnded = true) (waiter : Bool) :
    ExchangeInv g H settings events O i { ex with cacheKey := some key, waiter := waiter } :=
  { h with
    cacheKey := by
      rintro _ ⟨⟩
      exact hkey
    collecting := by
      intro hbody hopen
      simp_all }

/-- A wait in `request_filter` begins or ends. -/
lemma ExchangeInv.pauses (hproxied : ex.phase ≠ .proxied) (hclosed : ex.phase ≠ .closed) (phase : ExchangePhase) :
    ExchangeInv g H settings events O i { ex with phase := phase } :=
  { h with
    proxied := fun p hp => absurd (h.proxied p hp).1 hproxied
    filtering := fun _ _ => h.filtering hproxied hclosed }

lemma ExchangeInv.closes : ExchangeInv g H settings events O i { ex with phase := .closed, pendingInsert := none } :=
  { h with
    proxied := by simp
    status := by simp
    filtering := by simp }

lemma ExchangeInv.recorded {hit : CacheHit} (hhit : Sourced H settings O ex hit)
    (hcollected : ex.dnsRequestBody = none ∨ ex.bodyEnded = true) :
    ExchangeInv g H settings events O i (ex.record hit) := by
  have hkept : ∀ {P : CacheHit → Prop}, (∃ hit' ∈ ex.hits, P hit') → ∃ hit' ∈ (ex.record hit).hits, P hit' := by
    rintro P ⟨hit', hmem, hP⟩
    exact ⟨hit', List.mem_append_left _ hmem, hP⟩
  exact { h with
    collecting := by
      intro hbody hopen
      simp_all [Exchange.record]
    hits := by
      intro hit' hmem
      rcases List.mem_append.mp hmem with hmem | hmem
      · exact h.hits hit' hmem
      · obtain rfl := List.mem_singleton.mp hmem
        exact hhit
    cacheHit := fun r hr => hkept (h.cacheHit r hr)
    reply := fun r hr => hkept (h.reply r hr) }

lemma ExchangeInv.sent (hpending : ex.pendingInsert = none) {hit : CacheHit} (hhit : hit ∈ ex.hits) :
    ExchangeInv g H settings events O i (ex.sendCached g hit.response) :=
  { h with
    proxied := by simp [Exchange.sendCached, hpending]
    status := by simp [Exchange.sendCached, hpending]
    filtering := by simp [Exchange.sendCached]
    reply := fun r hr => ⟨hit, hhit, (Option.some.inj hr).symm⟩ }

lemma ExchangeInv.found {hit : CacheHit} (hhit : hit ∈ ex.hits) :
    ExchangeInv g H settings events O i { ex with cacheHit := some hit.response } :=
  { h with cacheHit := fun _ hr => ⟨hit, hhit, Option.some.inj hr⟩ }

/-- No DNS message has a key before its body has arrived. -/
lemma ExchangeInv.proxies (hphase : ex.phase = .filtered) {cache : CacheRuntime}
    (hcache : cache.settings = settings) :
    ExchangeInv g H settings events O i { ex with
      phase := .proxied
      pendingInsert := ex.pendingInsert.or
        (beginPendingInsert H cache ex.plan.route ex.plan.handler ex.session.request ex.dnsRequestBody) } := by
  have hnone := h.pendingInsert_eq_none (by simp [hphase])
  obtain ⟨hbody, hresponded, -, hempty⟩ := h.filtering (by simp [hphase]) (by simp [hphase])
  refine { h with
    proxied := fun p hp => ?_
    status := fun p _ hr => ?_
    filtering := fun hne => absurd rfl hne }
  · rw [hnone, Option.none_or] at hp
    obtain ⟨hpbody, hpkey⟩ := beginPendingInsert_store hp
    refine ⟨rfl, by rw [hpbody, hbody], fun key hkey => ?_⟩
    have hreq : ex.requestKey H settings = some key := by
      rw [← hcache]
      exact hpkey key hkey
    refine ⟨hreq, ?_⟩
    change ex.dnsRequestBody = none
    rw [Option.eq_none_iff_forall_ne_some]
    intro body hdns
    obtain rfl := hempty body hdns
    rw [requestKey_of_empty (h.doh (by simp [hdns])) hdns] at hreq
    simp at hreq
  · simp [hresponded] at hr

/-- A part of the request body arrives. -/
lemma ExchangeInv.collects (hphase : ex.phase = .proxied) (hopen : ex.bodyEnded = false) (chunk : Option Bytes)
    (ended : Bool) : ExchangeInv g H settings events O i (ex.collect chunk ended) := by
  have hkeep : ex.dnsRequestBody = none →
      (ex.collect chunk ended).requestKey H settings = ex.requestKey H settings := by
    intro hnone
    simp [Exchange.requestKey, Exchange.collect, hnone]
  have hnone : ex.hits ≠ [] ∨ ex.cacheKey ≠ none → ex.dnsRequestBody = none := by
    intro hor
    by_contra hne
    obtain ⟨hhits, hkey⟩ := h.collecting hne hopen
    exact hor.elim (· hhits) (· hkey)
  refine { h with
    proxied := fun p hp => ?_
    filtering := fun hne => absurd hphase hne
    cacheKey := fun key hk => ?_
    doh := fun hne => ?_
    collecting := fun hne _ => ?_
    hits := fun hit hmem => ?_ }
  · obtain ⟨-, hbody, hstore⟩ := h.proxied p hp
    refine ⟨hphase, hbody, fun key hkey => ?_⟩
    obtain ⟨hreq, hdns⟩ := hstore key hkey
    exact ⟨by rw [hkeep hdns, hreq], by simp [Exchange.collect, hdns]⟩
  · rw [hkeep (hnone (.inr (by simp [show ex.cacheKey = some key from hk])))]
    exact h.cacheKey key hk
  · exact h.doh (by simpa [Exchange.collect] using hne)
  · exact h.collecting (by simpa [Exchange.collect] using hne) hopen
  · exact (h.hits hit hmem).mono (fun _ _ _ ho => ho)
      (hkeep (hnone (.inl (List.ne_nil_of_mem hmem)))) rfl

lemma ExchangeInv.header (hphase : ex.phase = .proxied) (header : ResponseHeader)
    (contentType : PendingCacheInsert → Option Bytes) :
    ExchangeInv g H settings (events ++ [.responseHeader i header]) O i { ex with
      responded := true
      pendingInsert := ex.pendingInsert.map fun pending =>
        { pending with status := header.status, contentType := contentType pending } } := by
  have hbody : bodyOf (events ++ [.responseHeader i header]) i = bodyOf events i := by
    simp [bodyOf_append, GatewayEvent.bodyPart]
  have hheader : headerOf (events ++ [.responseHeader i header]) i = some header := by
    simp [headerOf_append, GatewayEvent.headerPart]
  refine { h with
    proxied := fun p hp => ?_
    status := fun p hp _ => ?_
    filtering := fun hne => absurd hphase hne }
  · obtain ⟨q, hq, rfl⟩ := Option.map_eq_some_iff.mp hp
    rw [hbody]
    exact h.proxied q hq
  · obtain ⟨q, hq, rfl⟩ := Option.map_eq_some_iff.mp hp
    exact ⟨header, hheader, rfl⟩

lemma ExchangeInv.part (hphase : ex.phase = .proxied) (chunk : Option Bytes) (endOfStream : Bool) (now : ℕ)
    (victims : List UInt64) :
    ExchangeInv g H settings (events ++ [.responseBody i chunk endOfStream now victims]) O i { ex with
      pendingInsert := ex.pendingInsert.map fun pending =>
        { pending with body := pending.body ++ chunk.getD [] } } := by
  have hbody : bodyOf (events ++ [.responseBody i chunk endOfStream now victims]) i =
      bodyOf events i ++ chunk.getD [] := by
    simp [bodyOf_append, GatewayEvent.bodyPart]
  have hheader : headerOf (events ++ [.responseBody i chunk endOfStream now victims]) i =
      headerOf events i := by
    simp [headerOf_append, GatewayEvent.headerPart]
  refine { h with
    proxied := fun p hp => ?_
    status := fun p hp hr => ?_
    filtering := fun hne => absurd hphase hne }
  · obtain ⟨q, hq, rfl⟩ := Option.map_eq_some_iff.mp hp
    obtain ⟨-, hqbody, hstore⟩ := h.proxied q hq
    exact ⟨hphase, by rw [hbody, hqbody], hstore⟩
  · obtain ⟨q, hq, rfl⟩ := Option.map_eq_some_iff.mp hp
    rw [hheader]
    exact h.status q hq hr

lemma ExchangeInv.served (hphase : ex.phase ≠ .proxied) (hcollected : ex.dnsRequestBody = none ∨ ex.bodyEnded = true)
    {hit : CacheHit} (hhit : Sourced H settings O ex hit) :
    ExchangeInv g H settings events O i ((ex.record hit).sendCached g hit.response) :=
  (h.recorded hhit hcollected).sent (h.pendingInsert_eq_none hphase) (by simp [Exchange.record])

end

/-! ### Steps -/

variable (h : GatewayInv g H settings events s)
include h

/-- What `prepare_lookup` finds for an exchange. -/
lemma prepareFor_cases (ex : Exchange) (now : ℕ) :
    ∃ cache, (s.prepareFor H ex now).2 = { s with cache := cache } ∧ Shrinks s.cache cache ∧
      ((s.prepareFor H ex now).1 = .bypass ∨
        ∃ key, ex.requestKey H settings = some key ∧ ((s.prepareFor H ex now).1 = .miss key ∨
          ∃ response, (s.prepareFor H ex now).1 = .hit response ∧
            Sourced H settings (Origin H settings events s) ex (s.hit (some key) response))) := by
  refine ⟨(prepareLookup H s.cache ex.plan.route ex.plan.handler ex.session.request
    ex.dnsRequestBody now).2, rfl, ?_⟩
  rcases prepareLookup_cases (H := H) s.cache ex.plan.route ex.plan.handler ex.session.request
    ex.dnsRequestBody now with hbypass | ⟨key, hkey, hcache, hfound⟩
  · refine ⟨by rw [hbypass]; exact .refl _, .inl (by simp [GatewayState.prepareFor, hbypass])⟩
  · rw [h.unchanged] at hkey
    refine ⟨by rw [hcache]; exact shrinks_lookup s.cache key now, .inr ⟨key, hkey, ?_⟩⟩
    rcases hfound with hmiss | ⟨value, queryId, response, hvalue, hmat, hhit⟩
    · exact .inl hmiss
    · obtain ⟨j, hlast, horigin⟩ := h.origin_of_hit hvalue
      exact .inr ⟨response, hhit, key, j, value, now, some queryId, rfl, hkey, hlast, horigin, hmat⟩

/-- What a waiter's second lookup finds. -/
lemma lookupAgain_cases {ex : Exchange} {key : CacheKey UInt64} (hkey : ex.requestKey H settings = some key)
    (now : ℕ) :
    ∃ cache, (s.lookupAgain ex key now).2 = { s with cache := cache } ∧ Shrinks s.cache cache ∧
      ((s.lookupAgain ex key now).1 = none ∨ ∃ response, (s.lookupAgain ex key now).1 = some response ∧
        Sourced H settings (Origin H settings events s) ex (s.hit (some key) response)) := by
  refine ⟨_, rfl, shrinks_lookup s.cache key now, ?_⟩
  cases hfound : (s.cache.store.lookup key now).1 with
  | hit value =>
    simp only [GatewayState.lookupAgain, hfound]
    cases hmat : materializeCachedLookup ex.plan.route value now ex.dnsQueryId with
    | none => exact .inl rfl
    | some response =>
      obtain ⟨j, hlast, horigin⟩ := h.origin_of_hit hfound
      exact .inr ⟨response, rfl, key, j, value, now, ex.dnsQueryId, rfl, hkey, hlast, horigin, hmat⟩
  | miss => exact .inl (by simp only [GatewayState.lookupAgain, hfound])
  | expired => exact .inl (by simp only [GatewayState.lookupAgain, hfound])

/-- A step that adds nothing to the responses of the upstreams. -/
lemma GatewayInv.silent {cache : CacheRuntime} (ev : GatewayEvent) (hidx : ev.index = i) (hbody : ev.bodyPart i = [])
    (hheader : ev.headerPart i = none) (hopen : s.Unclosed i) (hcache : Shrinks s.cache cache)
    (hex' : ExchangeInv g H settings events (Origin H settings events s) i ex') :
    GatewayInv g H settings (events ++ [ev]) (({ s with cache := cache } : GatewayState).put i ex') :=
  h.shrunk hidx hopen hcache fun _ horigin =>
    hex'.mono horigin (by rw [bodyOf_append, hbody, List.append_nil])
      (by rw [headerOf_append, hheader, Option.none_or])

lemma GatewayInv.tryServe {session : Session} {admission : Admission} {writer : Bool} {now : ℕ}
    (hnew : s.exchanges i = none) (hex : ExchangeInv g H settings events (Origin H settings events s) i ex)
    (hphase : ex.phase = .filtered) (hdns : ex.dnsRequestBody = none) :
    GatewayInv g H settings (events ++ [.request i session admission writer now])
      (s.tryServe g H i ex writer now) := by
  have hopen : s.Unclosed i := by simp [GatewayState.Unclosed, hnew]
  obtain ⟨cache, hstate, hcache, hfound⟩ := prepareFor_cases h ex.identify now
  have hput := fun ex' (hex' : ExchangeInv _ _ _ _ _ i ex') =>
    h.silent (.request i session admission writer now) rfl rfl rfl hopen hcache hex'
  simp only [GatewayState.tryServe, hstate]
  rcases hfound with hbypass | ⟨key, hkey, hmiss | ⟨response, hhit, hsourced⟩⟩
  · rw [hbypass]
    exact hput _ hex.identify
  · have hmissed := fun w => hex.identify.missed hkey (.inl hdns) w
    rw [hmiss]
    dsimp only
    split_ifs
    · exact hput _ (hmissed ex.waiter)
    · exact hput _ ((hmissed true).pauses (by simp [Exchange.identify, hphase])
        (by simp [Exchange.identify, hphase]) (.coalescing now))
  · rw [hhit]
    dsimp only
    rw [h.unchanged, hkey]
    exact hput _ (hex.identify.served (by simp [Exchange.identify, hphase]) (.inl hdns) hsourced)

lemma GatewayInv.arrive {session : Session} {admission : Admission} {plan : PreparedPlan} {writer : Bool} {now : ℕ}
    (hnew : s.exchanges i = none) (hplan : plan ∈ g.routing.plans) :
    GatewayInv g H settings (events ++ [.request i session admission writer now])
      (s.arrive g H i session plan writer now) := by
  have hopen : s.Unclosed i := by simp [GatewayState.Unclosed, hnew]
  have hbody := h.fresh i hnew
  unfold GatewayState.arrive
  dsimp only
  split_ifs with hpost hget
  · have hroute : plan.route = .doh := by simp_all
    refine h.silent _ rfl rfl rfl hopen (.refl _) (exchangeInv_new hplan hbody fun body hb => ?_)
    exact ⟨(Option.some.inj hb).symm, hroute⟩
  · exact h.tryServe hnew (exchangeInv_new hplan hbody (by simp)) rfl rfl
  · exact h.silent _ rfl rfl rfl hopen (.refl _) (exchangeInv_new hplan hbody (by simp))

/-- A waiter that looks again is answered from the cache or goes on as before. -/
lemma GatewayInv.serveAgain {key : CacheKey UInt64} {now : ℕ} {next : GatewayState → GatewayState} (ev : GatewayEvent)
    (hidx : ev.index = i) (hbody : ev.bodyPart i = []) (hheader : ev.headerPart i = none)
    (hex : s.exchanges i = some ex) (hproxied : ex.phase ≠ .proxied) (hclosed : ex.phase ≠ .closed)
    (hkey : ex.cacheKey = some key) (hnext : ∀ cache, Shrinks s.cache cache →
      GatewayInv g H settings (events ++ [ev]) (next { s with cache := cache })) :
    GatewayInv g H settings (events ++ [ev]) (s.serveAgain g i ex key now next) := by
  have hinv := h.exchanges i ex hex
  have hopen := unclosed_of_phase hex hclosed
  have hcollected : ex.dnsRequestBody = none := by
    by_contra hne
    have hnone := (hinv.collecting hne (hinv.filtering hproxied hclosed).2.2.1).2
    simp [hkey] at hnone
  obtain ⟨cache, hstate, hcache, hfound⟩ := lookupAgain_cases h (hinv.cacheKey key hkey) now
  simp only [GatewayState.serveAgain, hstate]
  rcases hfound with hnone | ⟨response, hhit, hsourced⟩
  · rw [hnone]
    exact hnext cache hcache
  · rw [hhit]
    exact h.silent ev hidx hbody hheader hopen hcache (hinv.served hproxied (.inl hcollected) hsourced)

lemma GatewayInv.startProxy (ev : GatewayEvent) (hidx : ev.index = i) (hbody : ev.bodyPart i = [])
    (hheader : ev.headerPart i = none) (hex : s.exchanges i = some ex) (hphase : ex.phase = .filtered)
    {cache : CacheRuntime} (hcache : Shrinks s.cache cache) : GatewayInv g H settings (events ++ [ev])
      (({ s with cache := cache } : GatewayState).startProxy H i ex) :=
  h.silent ev hidx hbody hheader (unclosed_of_phase hex (by simp [hphase])) hcache
    ((h.exchanges i ex hex).proxies hphase (hcache.settings.trans h.unchanged))

lemma GatewayInv.proxyUpstream {success : Bool} {now : ℕ} (hex : s.exchanges i = some ex)
    (hphase : ex.phase = .filtered) :
    GatewayInv g H settings (events ++ [.proxy i success now])
      (s.proxyUpstream g H i ex success now) := by
  have hinv := h.exchanges i ex hex
  unfold GatewayState.proxyUpstream
  split
  · rename_i response hhit
    obtain ⟨hit, hmem, rfl⟩ := hinv.cacheHit response hhit
    refine h.silent _ rfl rfl rfl (unclosed_of_phase hex (by simp [hphase])) (.refl _) ?_
    have hsent := hinv.sent (hinv.pendingInsert_eq_none (by simp [hphase])) hmem
    exact { hsent with cacheHit := by simp [Exchange.sendCached] }
  · split
    · rename_i key hkey
      have hkey' : ex.cacheKey = some key := by
        split_ifs at hkey
        exact hkey
      exact h.serveAgain (.proxy i success now) rfl rfl rfl hex (by simp [hphase]) (by simp [hphase]) hkey'
        fun cache hcache => h.startProxy (.proxy i success now) rfl rfl rfl hex hphase hcache
    · exact h.startProxy (.proxy i success now) rfl rfl rfl hex hphase (.refl _)

lemma GatewayInv.receiveBody {chunk : Option Bytes} {endOfStream writer : Bool} {now : ℕ}
    (hex : s.exchanges i = some ex) (hphase : ex.phase = .proxied) (hended : ex.bodyEnded = false) :
    GatewayInv g H settings (events ++ [.requestBody i chunk endOfStream writer now])
      (s.receiveBody H i ex chunk endOfStream writer now) := by
  have hopen := unclosed_of_phase hex (by simp [hphase])
  have hinv := h.exchanges i ex hex
  have hcollects := hinv.collects hphase hended chunk endOfStream
  unfold GatewayState.receiveBody
  split_ifs with hlarge hpost
  · exact h.silent _ rfl rfl rfl hopen (.refl _) hinv.closes
  · have hend : endOfStream = true := by simp_all
    subst hend
    obtain ⟨cache, hstate, hcache, hfound⟩ := prepareFor_cases h (ex.collect chunk true).identify now
    have hput := fun ex' (hex' : ExchangeInv _ _ _ _ _ i ex') =>
      h.silent (.requestBody i chunk true writer now) rfl rfl rfl hopen hcache hex'
    simp only [GatewayState.lookupBody, hstate]
    rcases hfound with hbypass | ⟨key, hkey, hmiss | ⟨response, hhit, hsourced⟩⟩
    · rw [hbypass]
      exact hput _ hcollects.identify
    · rw [hmiss]
      exact hput _ (hcollects.identify.missed hkey (.inr rfl) _)
    · rw [hhit]
      dsimp only
      rw [h.unchanged, hkey]
      have hrecorded := hcollects.identify.recorded hsourced (.inr rfl)
      have hmem : s.hit (some key) response ∈
          ((ex.collect chunk true).identify.record (s.hit (some key) response)).hits := by
        simp [Exchange.record]
      exact hput _ (hrecorded.found hmem)
  · exact h.silent _ rfl rfl rfl hopen (.refl _) hcollects

lemma GatewayInv.receiveHeader {header : ResponseHeader} (hex : s.exchanges i = some ex)
    (hphase : ex.phase = .proxied) :
    GatewayInv g H settings (events ++ [.responseHeader i header]) (s.receiveHeader i ex header) := by
  refine h.shrunk rfl (unclosed_of_phase hex (by simp [hphase])) (.refl _) fun origin horigin => ?_
  have hinv := (h.exchanges i ex hex).mono horigin rfl rfl
  exact hinv.header hphase header _

/-- The exchange whose response is stored becomes the origin of its key. -/
lemma GatewayInv.receiveResponse {chunk : Option Bytes} {endOfStream : Bool} {now : ℕ} {victims : List UInt64}
    (hex : s.exchanges i = some ex) (hphase : ex.phase = .proxied) (hresponded : ex.responded = true)
    (hstep : s.receiveResponse i ex chunk endOfStream now victims = some t) :
    GatewayInv g H settings (events ++ [.responseBody i chunk endOfStream now victims]) t := by
  have hpart := fun (origin : ℕ → CacheKey UInt64 → Bytes → Prop)
      (horigin : ∀ j key body, Origin H settings events s j key body → origin j key body) =>
    ((h.exchanges i ex hex).mono horigin rfl rfl).part hphase chunk endOfStream now victims
  have hopen := unclosed_of_phase hex (by simp [hphase])
  cases GatewayState.receives_of_receiveResponse hstep with
  | goesOn => exact h.shrunk rfl hopen (.refl _) hpart
  | closes => exact h.shrunk rfl hopen (.refl _) fun origin ho => (hpart origin ho).closes
  | @stores pending inserted cache hpending hstatus hstore =>
    have hown := hpart _ fun _ _ _ ho => ho
    rw [hpending] at hown
    obtain ⟨-, hbody, hkey⟩ := hown.proxied _ rfl
    obtain ⟨header, hheader, heq⟩ := hown.status _ rfl hresponded
    have hmoves := moves_put (.responseBody i chunk true now victims)
      { ex with phase := .closed, pendingInsert := none } cache (s.storedAfter i pending.action inserted) hopen
    have hclosed := (hpart _ fun _ _ _ => hmoves.origin).closes
    rcases s.storedAfter_cases i hstore with ⟨key, haction, -, hstores, hlast⟩ | ⟨hshrinks, hlast⟩
    · refine h.moved hmoves hstores.settings (fun k e he => ?_) hclosed
      rcases hstores.data k e he with ⟨rfl, hns, hstored⟩ | ⟨hne, he⟩
      · exact ⟨i, key, (congrFun hlast _).trans (Function.update_self _ _ _), rfl, hns.symm, _, header,
          Function.update_self _ _ _, rfl, (hkey key haction).1, (hstored.trans hbody).symm, hheader,
          heq.symm.trans hstatus⟩
      · obtain ⟨j, key', hj, hkey', hns, horigin⟩ := h.data k e he
        exact ⟨j, key', (congrFun hlast k).trans ((Function.update_of_ne hne _ _).trans hj), hkey', hns,
          hmoves.origin horigin⟩
    · refine h.moved hmoves hshrinks.settings (fun k e he => ?_) hclosed
      obtain ⟨j, key, hj, hkey', hns, horigin⟩ := h.data k e (hshrinks.data k e he)
      exact ⟨j, key, (congrFun hlast k).trans hj, hkey', hns, hmoves.origin horigin⟩

/-- A request that gets no plan leaves the exchanges and the cache alone. -/
lemma GatewayInv.refused (i : ℕ) (session : Session) (admission : Admission) (writer : Bool) (now : ℕ) :
    GatewayInv g H settings (events ++ [.request i session admission writer now]) s := by
  have hbody : ∀ j, bodyOf (events ++ [.request i session admission writer now]) j = bodyOf events j :=
    fun j => by simp [bodyOf_append, GatewayEvent.bodyPart]
  have hheader : ∀ j,
      headerOf (events ++ [.request i session admission writer now]) j = headerOf events j :=
    fun j => by simp [headerOf_append, GatewayEvent.headerPart]
  have horigin : ∀ j key body, Origin H settings events s j key body →
      Origin H settings (events ++ [.request i session admission writer now]) s j key body := by
    intro j key body ho
    simpa only [Origin, hbody, hheader] using ho
  refine ⟨h.unchanged, fun j hj => by rw [hbody, h.fresh j hj], fun k e he => ?_, fun j ex hj => ?_⟩
  · obtain ⟨j, key, hlast, hkey, hns, ho⟩ := h.data k e he
    exact ⟨j, key, hlast, hkey, hns, horigin _ _ _ ho⟩
  · exact (h.exchanges j ex hj).mono horigin (hbody j) (hheader j)

lemma GatewayInv.step (hstep : s.step g H ev = some t) : GatewayInv g H settings (events ++ [ev]) t := by
  have hnext : ∀ {i ex now success cache}, s.exchanges i = some ex → ex.phase = .coalescing now →
      Shrinks s.cache cache → GatewayInv g H settings (events ++ [.waited i success])
        (({ s with cache := cache } : GatewayState).put i { ex with phase := .filtered }) := by
    intro i ex now success cache hex hphase hcache
    exact h.silent (.waited i success) rfl rfl rfl (unclosed_of_phase hex (by simp [hphase])) hcache
      ((h.exchanges i ex hex).pauses (by simp [hphase]) (by simp [hphase]) .filtered)
  cases GatewayState.steps_of_step g H hstep with
  | arrive hnew hproceed => exact h.arrive hnew (filterRequest_proceed hproceed)
  | refuse => exact h.refused _ _ _ _ _
  | wake hex hphase hkey =>
    exact h.serveAgain (.waited _ true) rfl rfl rfl hex (by simp [hphase]) (by simp [hphase]) hkey
      fun _ => hnext hex hphase
  | giveUp hex hphase => exact hnext hex hphase (.refl _)
  | proxy hex hphase => exact h.proxyUpstream hex hphase
  | requestBody hex hphase hended => exact h.receiveBody hex hphase hended
  | responseHeader hex hphase => exact h.receiveHeader hex hphase
  | responseBody hex hphase hresponded hreceive => exact h.receiveResponse hex hphase hresponded hreceive
  | abort hex hopen =>
    exact h.silent _ rfl rfl rfl (unclosed_of_phase hex hopen) (.refl _) (h.exchanges _ _ hex).closes

end

variable {g H} {events : List GatewayEvent} {s : GatewayState}

lemma gatewayInv_init : GatewayInv g H g.settings [] (GatewayState.init g) where
  unchanged := rfl
  fresh _ _ := rfl
  data k e he := by simp [GatewayState.init, buildCacheRuntime, PingolaCache.new] at he
  exchanges i ex hex := by simp [GatewayState.init] at hex

lemma gatewayInv_of_run (hrun : g.Run H events s) : GatewayInv g H g.settings events s :=
  Runs.Run.invariant _ (fun _ _ _ _ hstep h => h.step hstep) hrun gatewayInv_init

end Pingola
