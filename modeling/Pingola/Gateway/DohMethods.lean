import Pingola.Gateway.Transparency

/-!
# DNS queries by GET and by POST

One DNS query driven through the hooks in the order of Pingora, on any state of the gateway. A
GET is looked up in `request_filter` and its pending insert is made in `proxy_upstream_filter`
from the query. A POST has no query in either hook: its lookup comes with the end of its body,
when `proxy_upstream_filter` has run, so that a hit is noted and never served, and its pending
insert was made from an empty message, so that there is none.
-/

namespace Pingola
open ByteText

def methodPost : Bytes := ascii "POST"

/-- The events of a body that arrives in parts, the last of which ends it. -/
def inParts (event : Option Bytes → Bool → GatewayEvent) : List (Option Bytes) → List GatewayEvent
  | [] => []
  | [part] => [event part true]
  | part :: parts => event part false :: inParts event parts

def joined (parts : List (Option Bytes)) : Bytes := parts.flatMap (·.getD [])

/-- The request carries the DNS message `wire`: in the `dns` parameter of a GET without a body, or
in the body of a POST. -/
inductive Carries (request : RequestHeader) (parts : List (Option Bytes)) (wire : Bytes) : Prop
  | get : request.method = methodGet → dohWire request none = some wire → parts = [none] →
      Carries request parts wire
  | post : request.method = methodPost → parts ≠ [] → joined parts = wire → Carries request parts wire

/-- What the surroundings decide while a query goes through the hooks. -/
structure QueryRun where
  admission : Admission
  /-- The answers of `begin_fill` and of the two waits. -/
  writer : Bool
  waited : Bool
  waitedAgain : Bool
  requestAt : ℕ
  proxyAt : ℕ
  bodyAt : ℕ
  header : ResponseHeader
  response : List (Option Bytes)
  responseAt : ℕ
  victims : List UInt64

namespace GatewayState
variable {env : Surroundings} (g : Gateway env) (H : AHasher UInt64)

/-- The next hook of exchange `i`. None runs after the exchange is closed, and the end of a wait
concerns only an exchange that waits. -/
def runHook (i : ℕ) (s : GatewayState) (ev : GatewayEvent) : Option GatewayState :=
  match (s.exchanges i).map Exchange.phase, ev with
  | some .closed, _ => some s
  | some (.coalescing _), ev => GatewayState.step g H s ev
  | _, .waited .. => some s
  | _, ev => GatewayState.step g H s ev

/-- The hooks of a query, in the order of Pingora. -/
def hookEvents (i : ℕ) (session : Session) (parts : List (Option Bytes)) (run : QueryRun) : List GatewayEvent :=
  [.request i session run.admission run.writer run.requestAt, .waited i run.waited,
      .proxy i run.waitedAgain run.proxyAt] ++
    inParts (fun part last => .requestBody i part last run.writer run.bodyAt) parts ++
    .responseHeader i run.header ::
      inParts (fun part last => .responseBody i part last run.responseAt run.victims) run.response

def runHooks (s : GatewayState) (i : ℕ) (session : Session) (parts : List (Option Bytes)) (run : QueryRun) :
    Option GatewayState :=
  Runs.exec (runHook g H i) s (hookEvents i session parts run)

/-- The answer that exchange `i` has got from the cache. -/
def servedTo (s : GatewayState) (i : ℕ) : Option (ResponseHeader × Bytes) := (s.exchanges i).bind Exchange.reply

/-- The response of exchange `i` was stored last under the key; unless it has been evicted since, it
is there. -/
def StoredBy (s : GatewayState) (i : ℕ) (key : CacheKey UInt64) (body : Bytes) : Prop :=
  s.lastStored key.storageKey = some i ∧ ∀ e, s.cache.store.data.lookup key.storageKey = some e →
    e.cacheNamespace = key.cacheNamespace ∧ e.value.body = body

/-! ### A POST passes by the cache -/

/-- A hook of exchange `i` that does not end a wait. -/
def IsHook (i : ℕ) (ev : GatewayEvent) : Prop := ev.index = i ∧ ∀ success, ev ≠ .waited i success

variable {g H} {s t : GatewayState} {i : ℕ} {ex : Exchange}

/-- An exchange on its way upstream, or closed, that has nothing to store and nothing from the
cache. -/
structure Passing (last : UInt64 → Option ℕ) (s : GatewayState) (i : ℕ) : Prop where
  lastStored : s.lastStored = last
  exchange : ∃ ex, s.exchanges i = some ex ∧ (ex.phase = .proxied ∨ ex.phase = .closed) ∧
    ex.pendingInsert = none ∧ ex.reply = none

lemma runHook_of_proxied {ev : GatewayEvent} (hex : s.exchanges i = some ex) (hphase : ex.phase = .proxied)
    (hev : IsHook i ev) : runHook g H i s ev = GatewayState.step g H s ev := by
  obtain ⟨hidx, hwaited⟩ := hev
  simp only [runHook, hex, Option.map_some, hphase]
  cases ev with
  | waited j success => exact absurd (by rw [← hidx]; rfl) (hwaited success)
  | _ => rfl

lemma runHook_of_closed {ev : GatewayEvent} (hex : s.exchanges i = some ex) (hphase : ex.phase = .closed) :
    runHook g H i s ev = some s := by
  simp [runHook, hex, hphase]

/-- No hook runs for a closed exchange. -/
lemma exec_runHook_of_closed (hex : s.exchanges i = some ex) (hphase : ex.phase = .closed)
    (events : List GatewayEvent) : Runs.exec (runHook g H i) s events = some s := by
  induction events with
  | nil => rfl
  | cons ev events ih => rw [Runs.exec, runHook_of_closed hex hphase, Option.bind_some, ih]

lemma Passing.put {last : UInt64 → Option ℕ} {s : GatewayState} (hlast : s.lastStored = last)
    (hphase : ex.phase = .proxied ∨ ex.phase = .closed) (hpending : ex.pendingInsert = none)
    (hreply : ex.reply = none) : Passing last (s.put i ex) i :=
  ⟨hlast, ex, Function.update_self .., hphase, hpending, hreply⟩

lemma Passing.receiveBody {last : UInt64 → Option ℕ} {chunk : Option Bytes} {endOfStream writer : Bool}
    {now : ℕ} (hlast : s.lastStored = last) (hphase : ex.phase = .proxied) (hpending : ex.pendingInsert = none)
    (hreply : ex.reply = none) : Passing last (s.receiveBody H i ex chunk endOfStream writer now) i := by
  unfold GatewayState.receiveBody
  split_ifs
  · exact .put hlast (.inr rfl) rfl hreply
  · unfold lookupBody
    dsimp only
    split <;> exact .put hlast (.inl hphase) hpending hreply
  · exact .put hlast (.inl hphase) hpending hreply

/-- A hook after `proxy_upstream_filter` leaves a passing exchange without a store and without an
answer from the cache. -/
lemma Passing.runHook {last : UInt64 → Option ℕ} {ev : GatewayEvent} (h : Passing last s i)
    (hev : IsHook i ev) (ht : runHook g H i s ev = some t) : Passing last t i := by
  obtain ⟨hlast, ex, hex, hphase | hphase, hpending, hreply⟩ := h
  · rw [runHook_of_proxied hex hphase hev] at ht
    obtain ⟨hidx, hwaited⟩ := hev
    subst hidx
    have hsame : ∀ {ex'}, s.exchanges ev.index = some ex' → ex' = ex :=
      fun hex' => Option.some.inj (hex'.symm.trans hex)
    cases GatewayState.steps_of_step g H ht with
    | arrive hnew => cases hnew.symm.trans hex
    | refuse hnew => cases hnew.symm.trans hex
    | wake => exact absurd rfl (hwaited true)
    | giveUp => exact absurd rfl (hwaited false)
    | proxy hex' hphase' =>
      obtain rfl := hsame hex'
      simp [hphase] at hphase'
    | requestBody hex' =>
      obtain rfl := hsame hex'
      exact .receiveBody hlast hphase hpending hreply
    | responseHeader hex' =>
      obtain rfl := hsame hex'
      exact .put hlast (.inl hphase) (by simp [hpending]) hreply
    | responseBody hex' _ _ hreceive =>
      obtain rfl := hsame hex'
      simp only [receiveResponse, hpending] at hreceive
      obtain rfl := Option.some.inj hreceive
      split_ifs
      · exact .put hlast (.inr rfl) rfl hreply
      · exact .put hlast (.inl hphase) hpending hreply
    | abort hex' =>
      obtain rfl := hsame hex'
      exact .put hlast (.inr rfl) rfl hreply
  · rw [runHook_of_closed hex hphase] at ht
    obtain rfl := Option.some.inj ht
    exact ⟨hlast, ex, hex, .inr hphase, hpending, hreply⟩

lemma Passing.exec {last : UInt64 → Option ℕ} {events : List GatewayEvent} (h : Passing last s i)
    (hevents : ∀ ev ∈ events, IsHook i ev)
    (ht : Runs.exec (GatewayState.runHook g H i) s events = some t) : Passing last t i := by
  induction events generalizing s with
  | nil =>
    obtain rfl := Option.some.inj ht
    exact h
  | cons ev events ih =>
    obtain ⟨u, hu, ht⟩ := Option.bind_eq_some_iff.mp ht
    exact ih (h.runHook (hevents ev (by simp)) hu) (fun ev hmem => hevents ev (List.mem_cons_of_mem _ hmem)) ht

lemma forall_mem_inParts {event : Option Bytes → Bool → GatewayEvent} {parts : List (Option Bytes)}
    {P : GatewayEvent → Prop} (hP : ∀ part last, P (event part last)) {ev : GatewayEvent}
    (h : ev ∈ inParts event parts) : P ev := by
  induction parts with
  | nil => simp [inParts] at h
  | cons part parts ih =>
    cases parts with
    | nil =>
      obtain rfl : ev = event part true := by simpa [inParts] using h
      exact hP part true
    | cons next parts =>
      rcases List.mem_cons.mp (show ev ∈ event part false :: inParts event (next :: parts) from h) with rfl | h
      · exact hP part false
      · exact ih h

variable {session : Session} {plan : PreparedPlan} {parts : List (Option Bytes)} {run : QueryRun}

/-- The pending insert of a query is made before its body has arrived. -/
lemma beginPendingInsert_of_empty (cache : CacheRuntime) (handler : HandlerKind) (request : RequestHeader) :
    beginPendingInsert H cache .doh handler request (some []) = none := by
  have hquery : dnsQueryKey H [] = none := by simp [dnsQueryKey]
  simp [beginPendingInsert, dohWire, hquery]

/-! ### The lookup of a GET -/

/-- The key of a DNS message. -/
def wireKey (H : AHasher UInt64) (cache : CacheRuntime) (wire : Bytes) : Option (CacheKey UInt64) :=
  if cache.store.enabled && cache.dns.enabled then (dnsQueryKey H wire).map (cacheKeyForQuery H) else none

variable {wire : Bytes} {key : CacheKey UInt64}

lemma wireKey_eq_some {cache : CacheRuntime} (h : wireKey H cache wire = some key) :
    cache.store.enabled = true ∧ cache.dns.enabled = true ∧
      ∃ query, dnsQueryKey H wire = some query ∧ key = cacheKeyForQuery H query := by
  unfold wireKey at h
  split_ifs at h with hen
  obtain ⟨hstore, hdns⟩ := Bool.and_eq_true_iff.mp hen
  obtain ⟨query, hquery, rfl⟩ := Option.map_eq_some_iff.mp h
  exact ⟨hstore, hdns, query, hquery, rfl⟩

/-- `prepare_lookup` of a GET that carries a message with a fresh answer. -/
lemma prepareLookup_of_hit {cache : CacheRuntime} (handler : HandlerKind) {request : RequestHeader} {now : ℕ}
    (hwire : dohWire request none = some wire) (hkey : wireKey H cache wire = some key)
    {value : CachedValue} {body : Bytes} (hhit : (cache.store.lookup key now).1 = .hit value)
    (hage : ageDnsResponseForQuery value.body value.storedAt now (u16At wire 0) = some body) :
    prepareLookup H cache .doh handler request none now =
      (.hit ⟨200, dnsContentType, body⟩, { cache with store := (cache.store.lookup key now).2 }) := by
  obtain ⟨hstore, hdns, query, hquery, rfl⟩ := wireKey_eq_some hkey
  simp [prepareLookup, prepareDnsLookup, hstore, hdns, hwire, hquery, hhit, hage]

/-- `prepare_lookup` of a GET that carries a message without one. -/
lemma prepareLookup_of_miss {cache : CacheRuntime} (handler : HandlerKind) {request : RequestHeader} {now : ℕ}
    (hwire : dohWire request none = some wire) (hkey : wireKey H cache wire = some key)
    (hmiss : ∀ value, (cache.store.lookup key now).1 ≠ .hit value) :
    prepareLookup H cache .doh handler request none now =
      (.miss key, { cache with store := (cache.store.lookup key now).2 }) := by
  obtain ⟨hstore, hdns, query, hquery, rfl⟩ := wireKey_eq_some hkey
  cases hfound : (cache.store.lookup (cacheKeyForQuery H query) now).1 with
  | hit value => exact absurd hfound (hmiss value)
  | miss | expired => simp [prepareLookup, prepareDnsLookup, hstore, hdns, hwire, hquery, hfound]

lemma arrive_of_get (hget : session.request.method = methodGet) (hroute : plan.route = .doh) {writer : Bool}
    {now : ℕ} : s.arrive g H i session plan writer now =
      s.tryServe g H i { session := session, plan := plan, phase := .filtered } writer now := by
  have hbody : dnsRequestNeedsBody methodGet = false := by decide
  simp [arrive, hbody, hroute, hget]

/-! ### After a miss -/

/-- No lookup finds the key, and none changes the cache. -/
def Missing (store : PingolaCache) (key : CacheKey UInt64) : Prop := ∀ now, store.lookup key now = (.miss, store)

lemma missing_of_lookup {store : PingolaCache} {now : ℕ} (h : ∀ value, (store.lookup key now).1 ≠ .hit value) :
    Missing (store.lookup key now).2 key := by
  intro now'
  cases hen : store.enabled with
  | false => simp [PingolaCache.lookup, hen]
  | true =>
    cases hdata : store.data.lookup key.storageKey with
    | none => simp [PingolaCache.lookup, hen, hdata]
    | some e =>
      by_cases hns : e.cacheNamespace = key.cacheNamespace
      · -- the entry has expired, and the lookup has removed it
        have hstale : e.value.isFresh now = false := by
          by_contra hfresh
          exact h e.value (by simp [PingolaCache.lookup, hen, hdata, hns, hfresh])
        have hremoved : (store.remove key).data.lookup key.storageKey = none := by
          simp [PingolaCache.remove, PingolaCache.lookup_removeStorageKey]
        have hlookup : (store.lookup key now).2 = store.remove key := by
          simp [PingolaCache.lookup, hen, hdata, hns, hstale]
        rw [hlookup]
        simp only [PingolaCache.lookup, hremoved]
        split_ifs <;> rfl
      · simp [PingolaCache.lookup, hen, hdata, hns]

@[simp]
lemma put_put (s : GatewayState) (i : ℕ) (ex ex' : Exchange) : (s.put i ex).put i ex' = s.put i ex' := by
  simp [GatewayState.put]

@[simp]
lemma put_exchanges_self (s : GatewayState) (i : ℕ) (ex : Exchange) : (s.put i ex).exchanges i = some ex :=
  Function.update_self ..

@[simp]
lemma put_cache (s : GatewayState) (i : ℕ) (ex : Exchange) : (s.put i ex).cache = s.cache := rfl

/-- A second lookup finds nothing, and the exchange goes on. -/
lemma serveAgain_of_missing (hmissing : Missing s.cache.store key) (i : ℕ) (ex : Exchange) (now : ℕ)
    (next : GatewayState → GatewayState) : s.serveAgain g i ex key now next = next s := by
  simp [serveAgain, lookupAgain, hmissing now]

lemma runHook_waited {ok : Bool} (hkey : ex.cacheKey = some key) (hmissing : Missing s.cache.store key)
    (hphase : ex.phase = .filtered ∨ ∃ now, ex.phase = .coalescing now) :
    runHook g H i (s.put i ex) (.waited i ok) = some (s.put i { ex with phase := .filtered }) := by
  rcases hphase with hphase | ⟨now, hphase⟩
  · have hsame : { ex with phase := .filtered } = ex := by rw [← hphase]
    simp [runHook, hphase, hsame]
  · have hagain := serveAgain_of_missing (g := g) (s := s.put i ex) hmissing i ex now
      fun s => s.put i { ex with phase := .filtered }
    simp only [hkey] at hagain
    simp [runHook, GatewayState.step, hphase, hkey, hagain]

lemma runHook_proxy {ok : Bool} {now : ℕ} {pending : PendingCacheInsert}
    (hphase : ex.phase = .filtered) (hhit : ex.cacheHit = none) (hnone : ex.pendingInsert = none)
    (hkey : ex.cacheKey = some key) (hmissing : Missing s.cache.store key)
    (hpending : beginPendingInsert H s.cache ex.plan.route ex.plan.handler ex.session.request
      ex.dnsRequestBody = some pending) :
    runHook g H i (s.put i ex) (.proxy i ok now) =
      some (s.put i { ex with phase := .proxied, pendingInsert := some pending }) := by
  have hstart : (s.put i ex).startProxy H i ex =
      s.put i { ex with phase := .proxied, pendingInsert := some pending } := by
    simp only [startProxy, put_put, hnone, Option.none_or]
    rw [put_cache, hpending]
  have hagain := serveAgain_of_missing (g := g) (s := s.put i ex) hmissing i ex now
    fun s => s.startProxy H i ex
  have hproxy : (s.put i ex).proxyUpstream g H i ex ok now = (s.put i ex).startProxy H i ex := by
    cases hwaiter : ex.waiter && ok <;> simp [proxyUpstream, hhit, hwaiter, hkey, hagain]
  simp [runHook, GatewayState.step, hphase, hproxy, hstart]

lemma runHook_requestBody {writer : Bool} {now : ℕ} (hphase : ex.phase = .proxied)
    (hended : ex.bodyEnded = false) (hget : ex.session.request.method = methodGet) (hbytes : ex.bodyBytes = 0)
    (hbody : ex.dnsRequestBody = none) :
    runHook g H i (s.put i ex) (.requestBody i none true writer now) =
      some (s.put i { ex with bodyEnded := true }) := by
  have hneeds : dnsRequestNeedsBody methodGet = false := by decide
  have hcollect : ex.collect none true = { ex with bodyEnded := true } := by
    simp [Exchange.collect, hbytes, hbody]
  simp [runHook, GatewayState.step, hphase, hended, receiveBody, hcollect, hbytes, hget, hneeds]

lemma runHook_responseHeader (ex : Exchange) (header : ResponseHeader) {pending : PendingCacheInsert}
    (hphase : ex.phase = .proxied) (hpending : ex.pendingInsert = some pending) :
    ∃ contentType, runHook g H i (s.put i ex) (.responseHeader i header) =
      some (s.put i { ex with
        responded := true
        pendingInsert := some { pending with status := header.status, contentType := contentType } }) := by
  refine ⟨pending.contentType.or (HeaderMap.get header.headers (ascii "content-type")), ?_⟩
  simp [runHook, GatewayState.step, hphase, receiveHeader, hpending]

/-- The response of an exchange with a pending store, part by part. -/
lemma exec_response (ex : Exchange) (pending : PendingCacheInsert) {now : ℕ} {victims : List UInt64}
    {response : List (Option Bytes)} (hresponse : response ≠ []) (hphase : ex.phase = .proxied)
    (hresponded : ex.responded = true) (hpending : ex.pendingInsert = some pending)
    (hstatus : pending.status = 200)
    (ht : Runs.exec (runHook g H i) (s.put i ex)
      (inParts (fun part last => .responseBody i part last now victims) response) = some t) :
    ∃ inserted cache, storePendingInsert s.cache
        { pending with body := pending.body ++ joined response } now victims = some (inserted, cache) ∧
      t.cache = cache ∧ t.lastStored = s.storedAfter i pending.action inserted := by
  have hhook : ∀ (ex : Exchange) (part : Option Bytes) (last : Bool), ex.phase = .proxied →
      ex.responded = true → runHook g H i (s.put i ex) (.responseBody i part last now victims) =
        (s.put i ex).receiveResponse i ex part last now victims := by
    intro ex part last hphase hresponded
    simp [runHook, GatewayState.step, hphase, hresponded]
  induction response generalizing ex pending with
  | nil => exact absurd rfl hresponse
  | cons part parts ih =>
    obtain ⟨u, hu, ht⟩ : ∃ u, runHook g H i (s.put i ex)
        (.responseBody i part parts.isEmpty now victims) = some u ∧ Runs.exec (runHook g H i) u
          (inParts (fun part last => .responseBody i part last now victims) parts) = some t := by
      cases parts <;> exact Option.bind_eq_some_iff.mp ht
    rw [hhook ex part _ hphase hresponded] at hu
    cases parts with
    | nil =>
      obtain rfl := Option.some.inj ht
      simp only [receiveResponse, hpending, List.isEmpty_nil, if_true, hstatus, storeResponse] at hu
      obtain ⟨⟨inserted, cache⟩, hstore, rfl⟩ := Option.map_eq_some_iff.mp hu
      exact ⟨inserted, cache, by simpa [joined, hstatus] using hstore, rfl, rfl⟩
    | cons next parts =>
      simp only [receiveResponse, hpending, List.isEmpty_cons, Bool.false_eq_true, if_false, put_put,
        Option.some.injEq] at hu
      subst hu
      obtain ⟨inserted, cache, hstore, hcache, hlast⟩ := 
        ih { ex with pendingInsert := some { pending with body := pending.body ++ part.getD [] } } _ (by simp)
          hphase hresponded rfl hstatus ht
      exact ⟨inserted, cache, by simpa [joined] using hstore, hcache, hlast⟩

/-- The pending insert of a GET that carries a message. -/
lemma beginPendingInsert_of_wire {cache : CacheRuntime} (handler : HandlerKind) {request : RequestHeader}
    (hwire : dohWire request none = some wire) (hkey : wireKey H cache wire = some key) :
    beginPendingInsert H cache .doh handler request none = some ⟨.store key, [], 200, some dnsContentType⟩ := by
  obtain ⟨hstore, hdns, query, hquery, rfl⟩ := wireKey_eq_some hkey
  simp [beginPendingInsert, hstore, hdns, hwire, hquery]

lemma wireKey_of_settings {cache cache' : CacheRuntime} (h : cache'.settings = cache.settings) :
    wireKey H cache' wire = wireKey H cache wire := by
  have hstore := congrArg CacheSettings.enabled h
  have hdns := congrArg CacheSettings.dns h
  simp only [CacheRuntime.settings] at hstore hdns
  rw [wireKey, wireKey, hstore, hdns]

/-- A GET that has missed: it waits or goes on, with the key of its message. -/
lemma tryServe_of_miss (hroute : plan.route = .doh) (hwire : dohWire session.request none = some wire)
    (hkey : wireKey H s.cache wire = some key) {now : ℕ} (writer : Bool)
    (hmiss : ∀ value, (s.cache.store.lookup key now).1 ≠ .hit value) :
    ∃ phase queryId waiter, (phase = .filtered ∨ phase = .coalescing now) ∧
      s.tryServe g H i { session := session, plan := plan, phase := .filtered } writer now =
        ({ s with cache := { s.cache with store := (s.cache.store.lookup key now).2 } } : GatewayState).put i
          { session := session, plan := plan, phase := phase, cacheKey := some key, waiter := waiter,
            dnsQueryId := queryId } := by
  have hlookup := prepareLookup_of_miss plan.handler hwire hkey hmiss
  simp only [tryServe, prepareFor, Exchange.identify, hroute, hlookup]
  cases writer with
  | true => exact ⟨.filtered, _, false, .inl rfl, rfl⟩
  | false => exact ⟨.coalescing now, _, true, .inr rfl, rfl⟩

/-- A cacheable answer to a message is stored exactly if it fits. -/
lemma storedBy_iff_of_store {cache : CacheRuntime} {contentType : Option Bytes} {body : Bytes} {now ttl : ℕ}
    {victims : List UInt64} {inserted : Bool} (hstored : s.lastStored key.storageKey ≠ some i)
    (hkey : wireKey H cache wire = some key) (hcacheable : dnsCacheable body cache.dns = .cacheable ttl)
    (hstore : storePendingInsert cache ⟨.store key, body, 200, contentType⟩ now victims =
      some (inserted, t.cache))
    (hlast : t.lastStored = s.storedAfter i (.store key) inserted) :
    t.StoredBy i key body ↔ (buildCachedDns body ttl now).estimatedWeight ≤ cache.store.memoryLimit := by
  obtain ⟨hen, -, query, -, rfl⟩ := wireKey_eq_some hkey
  have hns : (cacheKeyForQuery H query).cacheNamespace = .dns := rfl
  simp only [storePendingInsert, hns, hcacheable] at hstore
  obtain ⟨⟨r, store⟩, hinsert, heq⟩ := Option.map_eq_some_iff.mp hstore
  obtain ⟨rfl, hcache⟩ := Prod.mk.inj heq
  rcases (PingolaCache.insert_data hinsert).2.2 with ⟨rfl, -, hrefused⟩ | ⟨rfl, hfits, hdata⟩
  · have hheavy : cache.store.memoryLimit < (buildCachedDns body ttl now).estimatedWeight := by
      simpa [hen] using hrefused
    have hnot : ¬t.StoredBy i (cacheKeyForQuery H query) body := by
      intro h
      exact hstored (by simpa [hlast, storedAfter] using h.1)
    simp only [hnot, false_iff]
    omega
  · refine iff_of_true ⟨by simp [hlast, storedAfter], fun e he => ?_⟩ hfits
    simp only [← hcache, hdata, if_true] at he
    split_ifs at he
    obtain rfl := Option.some.inj he
    exact ⟨rfl, rfl⟩

/-! ### The hooks of a new request -/

section

variable (hnew : s.exchanges i = none)
  (hproceed : filterRequest g.runtime.config.server g.routing run.admission session = .proceed plan)
include hnew hproceed

/-- The hooks of a request that has a plan, after `request_filter`. -/
lemma runHooks_eq :
    s.runHooks g H i session parts run =
      (Runs.exec (runHook g H i) (s.arrive g H i session plan run.writer run.requestAt)
        ([.waited i run.waited, .proxy i run.waitedAgain run.proxyAt])).bind fun s =>
      Runs.exec (runHook g H i) s
        (inParts (fun part last => .requestBody i part last run.writer run.bodyAt) parts ++
          .responseHeader i run.header ::
            inParts (fun part last => .responseBody i part last run.responseAt run.victims) run.response) := by
  have hfirst : runHook g H i s (.request i session run.admission run.writer run.requestAt) =
      some (s.arrive g H i session plan run.writer run.requestAt) := by
    simp [runHook, hnew, GatewayState.step, hproceed]
  rw [← Runs.exec_append, runHooks, hookEvents, List.append_assoc, List.cons_append, Runs.exec, hfirst,
    Option.bind_some]

/-- A POST goes upstream past the cache. -/
lemma passing_of_post (hroute : plan.route = .doh) (hpost : session.request.method = methodPost)
    (ht : s.runHooks g H i session parts run = some t) : Passing s.lastStored t i := by
  rw [runHooks_eq hnew hproceed] at ht
  obtain ⟨u, hu, ht⟩ := Option.bind_eq_some_iff.mp ht
  have hbody : (plan.route = .doh && dnsRequestNeedsBody session.request.method) = true := by
    rw [hpost, hroute]
    decide
  have harrive : s.arrive g H i session plan run.writer run.requestAt =
      s.put i { session := session, plan := plan, phase := .filtered, dnsRequestBody := some [] } := by
    simp only [arrive, hbody, if_true]
  have hproxied : Passing s.lastStored u i := by
    rw [harrive] at hu
    have hinsert := beginPendingInsert_of_empty (H := H) s.cache plan.handler session.request
    simp [Runs.exec, runHook, GatewayState.step, GatewayState.put, proxyUpstream, startProxy, hroute, hinsert] at hu
    rw [← hu]
    exact ⟨rfl, _, Function.update_self .., .inl rfl, rfl, rfl⟩
  refine hproxied.exec (fun ev hev => ?_) ht
  rcases List.mem_append.mp hev with hev | hev
  · exact forall_mem_inParts (fun _ _ => ⟨rfl, by simp⟩) hev
  · rcases List.mem_cons.mp hev with rfl | hev
    · exact ⟨rfl, by simp⟩
    · exact forall_mem_inParts (fun _ _ => ⟨rfl, by simp⟩) hev

/-- A fresh answer is sent by `request_filter`, and no other hook runs. -/
lemma servedTo_of_get (hroute : plan.route = .doh) (hget : session.request.method = methodGet)
    (hwire : dohWire session.request none = some wire) (hkey : wireKey H s.cache wire = some key)
    {value : CachedValue} {body : Bytes} (hhit : (s.cache.store.lookup key run.requestAt).1 = .hit value)
    (hage : ageDnsResponseForQuery value.body value.storedAt run.requestAt (u16At wire 0) = some body)
    (ht : s.runHooks g H i session parts run = some t) :
    t.servedTo i = some (cachedResponseHeader g session plan ⟨200, dnsContentType, body⟩, body) := by
  have hlookup := prepareLookup_of_hit plan.handler hwire hkey hhit hage
  have harrive : ∃ ex, (s.arrive g H i session plan run.writer run.requestAt).exchanges i = some ex ∧
      ex.phase = .closed ∧
      ex.reply = some (cachedResponseHeader g session plan ⟨200, dnsContentType, body⟩, body) := by
    rw [arrive_of_get hget hroute]
    simp only [tryServe, prepareFor, Exchange.identify, hroute, hlookup]
    exact ⟨_, Function.update_self .., rfl, rfl⟩
  obtain ⟨ex, hex, hclosed, hreply⟩ := harrive
  rw [runHooks_eq hnew hproceed, exec_runHook_of_closed hex hclosed, Option.bind_some,
    exec_runHook_of_closed hex hclosed] at ht
  rw [← Option.some.inj ht, servedTo, hex, Option.bind_some, hreply]

/-- What a GET that misses does with the response of its upstream. -/
lemma exec_get_of_miss (hroute : plan.route = .doh) (hget : session.request.method = methodGet)
    (hwire : dohWire session.request none = some wire) (hkey : wireKey H s.cache wire = some key)
    (hmiss : ∀ value, (s.cache.store.lookup key run.requestAt).1 ≠ .hit value)
    (hstatus : run.header.status = 200) (hresponse : run.response ≠ [])
    (ht : s.runHooks g H i session [none] run = some t) :
    ∃ inserted cache contentType, storePendingInsert
        { s.cache with store := (s.cache.store.lookup key run.requestAt).2 }
        ⟨.store key, joined run.response, 200, contentType⟩ run.responseAt run.victims = some (inserted, cache) ∧
      t.cache = cache ∧ t.lastStored = s.storedAfter i (.store key) inserted := by
  rw [runHooks_eq hnew hproceed, arrive_of_get hget hroute] at ht
  obtain ⟨phase, queryId, waiter, hphase, htry⟩ := tryServe_of_miss (g := g) (i := i) hroute hwire hkey
    run.writer hmiss
  have hmissing := missing_of_lookup hmiss
  have hkey' := (wireKey_of_settings (shrinks_lookup s.cache key run.requestAt).settings).trans hkey
  generalize hlooked : ({ s with cache := { s.cache with
    store := (s.cache.store.lookup key run.requestAt).2 } } : GatewayState) = u at htry
  have hu : u.cache = { s.cache with store := (s.cache.store.lookup key run.requestAt).2 } := by rw [← hlooked]
  have hlast : u.lastStored = s.lastStored := by rw [← hlooked]
  have hpending := beginPendingInsert_of_wire plan.handler hwire hkey'
  rw [← hroute, ← hu] at hpending
  rw [htry, Runs.exec, runHook_waited rfl (by rw [hu]; exact hmissing) (hphase.imp_right fun h => ⟨_, h⟩),
    Option.bind_some, Runs.exec, runHook_proxy rfl rfl rfl rfl (by rw [hu]; exact hmissing) hpending,
    Option.bind_some, Runs.exec, Option.bind_some, inParts, List.singleton_append, Runs.exec,
    runHook_requestBody rfl rfl hget rfl rfl, Option.bind_some, Runs.exec] at ht
  obtain ⟨contentType, hheader⟩ := runHook_responseHeader (g := g) (H := H) (s := u) (i := i)
    { session := session, plan := plan, phase := .proxied, cacheKey := some key, waiter := waiter,
      dnsQueryId := queryId, bodyEnded := true,
      pendingInsert := some ⟨.store key, [], 200, some dnsContentType⟩ } run.header rfl rfl
  rw [hheader, Option.bind_some] at ht
  obtain ⟨inserted, cache, hstore, hcache, hstored⟩ := exec_response _ _ hresponse rfl rfl rfl hstatus ht
  refine ⟨inserted, cache, contentType, ?_, hcache, ?_⟩
  · simpa [hu, hstatus] using hstore
  · rw [hstored, storedAfter, storedAfter, hlast]

end

/-! ### Both effects -/

/-- For a query in any state of the gateway, carried by GET or by POST in any parts: a fresh answer
is served from the cache exactly if the query came by GET, and after a miss a cacheable response of
the upstream is stored exactly if the query came by GET and the response fits into the cache. -/
theorem doh_cache_effects_iff {wire : Bytes} {key : CacheKey UInt64} (hnew : s.exchanges i = none)
    (hstored : s.lastStored key.storageKey ≠ some i)
    (hproceed : filterRequest g.runtime.config.server g.routing run.admission session = .proceed plan)
    (hroute : plan.route = .doh) (hcarries : Carries session.request parts wire)
    (hkey : wireKey H s.cache wire = some key) (ht : s.runHooks g H i session parts run = some t) :
    (∀ value body, (s.cache.store.lookup key run.requestAt).1 = .hit value →
      ageDnsResponseForQuery value.body value.storedAt run.requestAt (u16At wire 0) = some body →
      (t.servedTo i = some (cachedResponseHeader g session plan ⟨200, dnsContentType, body⟩, body) ↔
        session.request.method = methodGet)) ∧
    (∀ ttl, (∀ value, (s.cache.store.lookup key run.requestAt).1 ≠ .hit value) →
      run.header.status = 200 → run.response ≠ [] →
      dnsCacheable (joined run.response) s.cache.dns = .cacheable ttl →
      (t.StoredBy i key (joined run.response) ↔ session.request.method = methodGet ∧
        (buildCachedDns (joined run.response) ttl run.responseAt).estimatedWeight ≤
          s.cache.store.memoryLimit)) := by
  have hmethods : methodPost ≠ methodGet := by decide
  cases hcarries with
  | get hget hwire hparts =>
    subst hparts
    refine ⟨fun value body hhit hage => ?_, fun ttl hmiss hstatus hresponse hcacheable => ?_⟩
    · simp only [hget, iff_true]
      exact servedTo_of_get hnew hproceed hroute hget hwire hkey hhit hage ht
    · simp only [hget, true_and]
      obtain ⟨inserted, cache, contentType, hstore, rfl, hlast⟩ :=
        exec_get_of_miss hnew hproceed hroute hget hwire hkey hmiss hstatus hresponse ht
      have hlooked := shrinks_lookup s.cache key run.requestAt
      have hlimit : (s.cache.store.lookup key run.requestAt).2.memoryLimit = s.cache.store.memoryLimit := by
        rcases s.cache.store.lookup_snd key run.requestAt with h | h <;> rw [h]
        exact PingolaCache.removeStorageKey_memoryLimit _ _
      rw [← hlimit]
      exact storedBy_iff_of_store hstored ((wireKey_of_settings hlooked.settings).trans hkey) hcacheable hstore
        hlast
  | post hpost _ _ =>
    obtain ⟨hlast, ex, hex, -, -, hreply⟩ := passing_of_post hnew hproceed hroute hpost ht
    refine ⟨fun value body _ _ => ?_, fun ttl _ _ _ _ => ?_⟩
    · simp [servedTo, hex, hreply, hpost, hmethods]
    · simp [StoredBy, hlast, hstored, hpost, hmethods]

end GatewayState

/-! ### The query for `a` by GET and by POST -/

/-- The message of `exampleQuery`. -/
def exampleWire : Bytes := [18, 52, 1, 0, 0, 1, 0, 0, 0, 0, 0, 0, 1, 97, 0, 0, 1, 0, 1]

/-- The query by GET, or by POST with a body. -/
def querySession (get : Bool) : Session :=
  let session := exampleSession (ascii "dns.tae00217.cloud") exampleQuery []
  if get then session
  else
    { session with
      request := ⟨methodPost, ⟨false, none, ascii "/dns-query"⟩, .http11,
        [(ascii "host", ascii "dns.tae00217.cloud"), (ascii "content-type", dnsContentType),
          (ascii "content-length", ascii "19")]⟩ }

/-- The body of the query, which a POST sends in two parts. -/
def queryParts (get : Bool) : List (Option Bytes) :=
  if get then [none] else [some (exampleWire.take 7), some (exampleWire.drop 7)]

/-- The query one second after the instant 0; the upstream answers it. -/
def queryRun : QueryRun where
  admission := ⟨true, true, true, true⟩
  writer := true
  waited := false
  waitedAgain := false
  requestAt := fromSecs 1
  proxyAt := fromSecs 1
  bodyAt := fromSecs 1
  header := ⟨200, [(ascii "content-type", dnsContentType)]⟩
  response := [some exampleAnswer]
  responseAt := fromSecs 1
  victims := []

/-- The state before the query: the answer has been stored by another exchange, or not. -/
def beforeQuery (warm : Bool) : Option GatewayState :=
  Runs.exec (GatewayState.step (exampleGateway true) fnvHasher) (.init (exampleGateway true))
    (if warm then dnsEvents.take 4 else [])

/-- What the query does: the body it is served from the cache, and the exchange that stored last
under its key. -/
def queryEffects (get : Bool) (s : GatewayState) : Option (Option Bytes × Option ℕ) := do
  let key ← GatewayState.wireKey fnvHasher s.cache exampleWire
  let t ← s.runHooks (exampleGateway true) fnvHasher 1 (querySession get) (queryParts get) queryRun
  some ((t.servedTo 1).map Prod.snd, t.lastStored key.storageKey)

lemma carries_query (get : Bool) : Carries (querySession get).request (queryParts get) exampleWire := by
  cases get with
  | true => exact .get rfl (by decide +kernel) rfl
  | false => exact .post rfl (by decide) (by decide)

/-- The query by both methods in both states, in one evaluation. -/
lemma queryEffects_observed :
    (beforeQuery true).bind (queryEffects true) = some (some (exampleAnswer.set 28 43), some 0) ∧
    (beforeQuery true).bind (queryEffects false) = some (none, some 0) ∧
    (beforeQuery false).bind (queryEffects true) = some (none, some 1) ∧
    (beforeQuery false).bind (queryEffects false) = some (none, none) := by
  decide +kernel

/-- The same message in the same two states: by GET it is served the stored answer, or its response
is stored; by POST neither happens. -/
theorem doh_post_passes_by_cache :
    Carries (querySession true).request (queryParts true) exampleWire ∧
    Carries (querySession false).request (queryParts false) exampleWire ∧
    (beforeQuery true).bind (queryEffects true) = some (some (exampleAnswer.set 28 43), some 0) ∧
    (beforeQuery true).bind (queryEffects false) = some (none, some 0) ∧
    (beforeQuery false).bind (queryEffects true) = some (none, some 1) ∧
    (beforeQuery false).bind (queryEffects false) = some (none, none) :=
  ⟨carries_query true, carries_query false, queryEffects_observed⟩

/-- What a lookup of the query finds before it is sent, and who stored it. -/
def queryFound (s : GatewayState) : Option (Option Bytes × Option ℕ) :=
  (GatewayState.wireKey fnvHasher s.cache exampleWire).map fun key =>
    (match (s.cache.store.lookup key queryRun.requestAt).1 with
      | .hit value =>
        ageDnsResponseForQuery value.body value.storedAt queryRun.requestAt (u16At exampleWire 0)
      | _ => none, s.lastStored key.storageKey)

def queryPlan (get : Bool) : Option PreparedPlan :=
  match filterRequest (exampleGateway true).runtime.config.server (exampleGateway true).routing
    queryRun.admission (querySession get) with
  | .proceed plan => some plan
  | _ => none

/-- The stored answer is served to the query by GET. -/
theorem doh_cache_effects_iff_warm_get : ∃ (s t : GatewayState) (header : ResponseHeader),
    beforeQuery true = some s ∧
    s.runHooks (exampleGateway true) fnvHasher 1 (querySession true) (queryParts true) queryRun = some t ∧
    t.servedTo 1 = some (header, exampleAnswer.set 28 43) := by
  obtain ⟨hbefore, hplan⟩ :
      (beforeQuery true).map (fun s => ((s.exchanges 1).map Exchange.phase, queryFound s)) =
          some (none, some (some (exampleAnswer.set 28 43), some 0)) ∧
        (queryPlan true).map PreparedPlan.route = some .doh := by
    decide +kernel
  obtain ⟨s, hs, heffects⟩ := Option.bind_eq_some_iff.mp queryEffects_observed.1
  obtain ⟨key, hkey, heffects⟩ := Option.bind_eq_some_iff.mp heffects
  obtain ⟨t, ht, -⟩ := Option.bind_eq_some_iff.mp heffects
  obtain ⟨plan, hplan, hroute⟩ := Option.map_eq_some_iff.mp hplan
  have hproceed : filterRequest (exampleGateway true).runtime.config.server (exampleGateway true).routing
      queryRun.admission (querySession true) = .proceed plan := by
    unfold queryPlan at hplan
    split at hplan
    · rename_i plan' hproceed
      rw [hproceed, Option.some.inj hplan]
    · simp at hplan
  simp only [hs, Option.map_eq_none_iff, queryFound, hkey, Option.map_some, Option.some.injEq,
    Prod.mk.injEq] at hbefore
  obtain ⟨hnew, hage, hlast⟩ := hbefore
  split at hage
  · rename_i value hhit
    have hserved := (GatewayState.doh_cache_effects_iff hnew (by simp [hlast]) hproceed hroute
      (carries_query true) hkey ht).1 value _ hhit hage
    exact ⟨s, t, _, hs, ht, hserved.mpr rfl⟩
  · simp at hage

end Pingola
