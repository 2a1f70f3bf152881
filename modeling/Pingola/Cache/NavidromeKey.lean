import Pingola.Cache.Navidrome

/-!
# What a Navidrome cache key determines

Two cacheable requests with equal keys agree on the endpoint name, on the calls that
scope the entry to a user and on the stable parameters in sorted order. What the scope
does not hash of the credentials, and the order the sort forgets, is free.
-/

namespace Pingola
open ByteText

variable {D : Type} {H : AHasher D}

lemma flatMap_pair_injective {ps qs : List (Bytes × Bytes)}
    (h : (ps.flatMap fun p => [HashWrite.bytes p.1, .u8 0, .bytes p.2, .u8 0xff]) =
      qs.flatMap fun p => [HashWrite.bytes p.1, .u8 0, .bytes p.2, .u8 0xff]) : ps = qs := by
  induction ps generalizing qs with
  | nil => cases qs <;> simp_all
  | cons p ps ih =>
    cases qs with
    | nil => simp at h
    | cons q qs =>
      simp only [List.flatMap_cons, List.cons_append, List.nil_append, List.cons.injEq,
        HashWrite.bytes.injEq, true_and] at h
      obtain ⟨hkey, hvalue, hrest⟩ := h
      rw [ih hrest, Prod.ext hkey hvalue]

lemma keyWrites_injective : Function.Injective keyWrites := by
  rintro ⟨e, u, ps⟩ ⟨e', u', ps'⟩ h
  simp only [keyWrites, List.cons_append, List.nil_append, List.cons.injEq,
    HashWrite.bytes.injEq] at h
  obtain ⟨rfl, rfl, hps⟩ := h
  rw [flatMap_pair_injective hps]

lemma scopeText_injective (hH : Function.Injective H.finish) : Function.Injective (scopeText H) := by
  intro ws ws' h
  exact hH (H.value_injective (hex016_injective (List.append_cancel_left h)))

/-- What a request that is cacheable looks like. -/
structure CacheableRequest (method path : Bytes) (query : Option Bytes)
    (policy : NavidromeCachePolicy) (endpoint : Bytes) (ws : List HashWrite) : Prop where
  enabled : policy.enabled = true
  isGet : method = methodGet
  named : normalizeEndpoint path = some endpoint
  notBlocked : blockedSuffixes.any (eqIgnoreAsciiCase endpoint) = false
  allowed : cacheableSuffixes.any (eqIgnoreAsciiCase endpoint) = true
  noCallback : (parseQueryPairs query).any (fun p => p.1 == ascii "callback") = false
  json : (findParam (parseQueryPairs query) (ascii "f")).any
    (fun format => eqIgnoreAsciiCase format (ascii "json")) = true
  scope : scopeWrites (parseQueryPairs query) = some ws

lemma navidromeCacheable_eq_some {method path : Bytes} {query : Option Bytes}
    {policy : NavidromeCachePolicy} {c : NavidromeCacheable} :
    navidromeCacheable H method path query policy = some c ↔
      ∃ ws, CacheableRequest method path query policy c.endpoint ws ∧
        c.userScope = scopeText H ws ∧ c.stableParams = stableQueryParams (parseQueryPairs query) := by
  obtain ⟨endpoint, userScope, stableParams⟩ := c
  unfold navidromeCacheable authenticatedUserScope
  constructor
  · intro h
    simp only [Option.bind_eq_bind, Option.bind_eq_some_iff, ite_eq_iff, reduceCtorEq, and_false,
      false_or, Option.map_eq_some_iff, Bool.not_eq_true, Option.some.injEq,
      NavidromeCacheable.mk.injEq, Bool.or_eq_false_iff, Bool.not_eq_false'] at h
    obtain ⟨⟨hen, hget⟩, e, hname, hblocked, hallowed, hcallback, f, hf, hjson, t, ⟨ws, hws, rfl⟩,
      rfl, rfl, rfl⟩ := h
    refine ⟨ws, ⟨hen, by simpa using hget, hname, hblocked, by simpa using hallowed, hcallback,
      by simpa [hf] using hjson, hws⟩, rfl, rfl⟩
  · rintro ⟨ws, h, hscope, hstable⟩
    simp only at hscope hstable
    have hjson := h.json
    cases hf : findParam (parseQueryPairs query) (ascii "f") with
    | none => simp [hf] at hjson
    | some f =>
      have hjson' : eqIgnoreAsciiCase f (ascii "json") = true := by simpa [hf] using hjson
      simp only [h.enabled, h.isGet, h.named, h.notBlocked, h.allowed, h.noCallback, hf, hjson',
        h.scope, hscope, hstable, Bool.not_true, bne_self_eq_false, Bool.or_self, Bool.false_eq_true,
        if_false, Option.bind_eq_bind, Option.bind_some, Option.map_some]

/-- Equal keys come from equal endpoint names, equal scope calls and equal stable parameters. -/
lemma navidromeCacheKey_eq (hH : Function.Injective H.finish) {e e' : Bytes}
    {ws ws' : List HashWrite} {ps ps' : List (Bytes × Bytes)}
    (h : navidromeCacheKey H ⟨e, scopeText H ws, ps⟩ = navidromeCacheKey H ⟨e', scopeText H ws', ps'⟩) :
    e = e' ∧ ws = ws' ∧ ps = ps' := by
  simp only [navidromeCacheKey, CacheKey.mk.injEq, true_and] at h
  have hentry := keyWrites_injective (hH h)
  simp only [NavidromeCacheable.mk.injEq] at hentry
  exact ⟨hentry.1, scopeText_injective hH hentry.2.1, hentry.2.2⟩

lemma navidromeCacheable_key_eq (hH : Function.Injective H.finish)
    {m₁ p₁ m₂ p₂ : Bytes} {q₁ q₂ : Option Bytes} {policy : NavidromeCachePolicy}
    {c₁ c₂ : NavidromeCacheable}
    (h₁ : navidromeCacheable H m₁ p₁ q₁ policy = some c₁)
    (h₂ : navidromeCacheable H m₂ p₂ q₂ policy = some c₂)
    (hkey : navidromeCacheKey H c₁ = navidromeCacheKey H c₂) :
    normalizeEndpoint p₁ = normalizeEndpoint p₂ ∧
      (∃ ws, scopeWrites (parseQueryPairs q₁) = some ws ∧ scopeWrites (parseQueryPairs q₂) = some ws) ∧
      stableQueryParams (parseQueryPairs q₁) = stableQueryParams (parseQueryPairs q₂) := by
  obtain ⟨ws₁, hr₁, hs₁, hp₁⟩ := navidromeCacheable_eq_some.mp h₁
  obtain ⟨ws₂, hr₂, hs₂, hp₂⟩ := navidromeCacheable_eq_some.mp h₂
  obtain ⟨e₁, u₁, ps₁⟩ := c₁
  obtain ⟨e₂, u₂, ps₂⟩ := c₂
  simp only at hs₁ hp₁ hs₂ hp₂ hr₁ hr₂
  subst hs₁ hs₂
  obtain ⟨he, hws, hps⟩ := navidromeCacheKey_eq hH hkey
  subst he hws
  exact ⟨hr₁.named.trans hr₂.named.symm, ⟨ws₁, hr₁.scope, hr₂.scope⟩, hp₁ ▸ hp₂ ▸ hps⟩

instance (method path : Bytes) (query : Option Bytes) (policy : NavidromeCachePolicy)
    (endpoint : Bytes) (ws : List HashWrite) :
    Decidable (CacheableRequest method path query policy endpoint ws) :=
  decidable_of_iff (policy.enabled = true ∧ method = methodGet ∧
      normalizeEndpoint path = some endpoint ∧
      blockedSuffixes.any (eqIgnoreAsciiCase endpoint) = false ∧
      cacheableSuffixes.any (eqIgnoreAsciiCase endpoint) = true ∧
      (parseQueryPairs query).any (fun p => p.1 == ascii "callback") = false ∧
      (findParam (parseQueryPairs query) (ascii "f")).any
        (fun format => eqIgnoreAsciiCase format (ascii "json")) = true ∧
      scopeWrites (parseQueryPairs query) = some ws)
    ⟨fun ⟨h₁, h₂, h₃, h₄, h₅, h₆, h₇, h₈⟩ => ⟨h₁, h₂, h₃, h₄, h₅, h₆, h₇, h₈⟩,
      fun h => ⟨h.enabled, h.isGet, h.named, h.notBlocked, h.allowed, h.noCallback, h.json, h.scope⟩⟩

lemma CacheableRequest.cacheable {m p : Bytes} {q : Option Bytes} {policy : NavidromeCachePolicy}
    {e : Bytes} {ws : List HashWrite} (h : CacheableRequest m p q policy e ws) :
    navidromeCacheable H m p q policy =
      some ⟨e, scopeText H ws, stableQueryParams (parseQueryPairs q)⟩ :=
  navidromeCacheable_eq_some.mpr ⟨ws, h, rfl, rfl⟩

/-- Requests with one endpoint, the same scope and the same stable parameters share one key. -/
lemma CacheableRequest.share {m₁ m₂ p₁ p₂ : Bytes} {q₁ q₂ : Option Bytes} {policy : NavidromeCachePolicy} {P : Prop}
    (e : Bytes) (ws : List HashWrite) (r₁ : CacheableRequest m₁ p₁ q₁ policy e ws)
    (r₂ : CacheableRequest m₂ p₂ q₂ policy e ws)
    (hstable : stableQueryParams (parseQueryPairs q₁) = stableQueryParams (parseQueryPairs q₂))
    (hP : ∀ c₁ c₂, navidromeCacheable H m₁ p₁ q₁ policy = some c₁ → navidromeCacheable H m₂ p₂ q₂ policy = some c₂ →
      navidromeCacheKey H c₁ = navidromeCacheKey H c₂ → P) :
    ∃ c₁ c₂, navidromeCacheable H m₁ p₁ q₁ policy = some c₁ ∧ navidromeCacheable H m₂ p₂ q₂ policy = some c₂ ∧
      navidromeCacheKey H c₁ = navidromeCacheKey H c₂ ∧ P :=
  have hkey := congrArg (fun params => navidromeCacheKey H ⟨e, scopeText H ws, params⟩) hstable
  ⟨_, _, r₁.cacheable, r₂.cacheable, hkey, hP _ _ r₁.cacheable r₂.cacheable hkey⟩

/-! ## Credentials -/

def credentialNames : List Bytes := ["u", "p", "t", "s", "apiKey", "jwt"].map ascii

/-- The credential names whose first value the user scope hashes. -/
def scopedNames (query : Option Bytes) : List Bytes :=
  ascii "u" ::
    if paramValues (ascii "apiKey") query ≠ [] then [ascii "apiKey"]
    else if paramValues (ascii "p") query ≠ [] then [ascii "p"]
    else if paramValues (ascii "jwt") query ≠ [] then [ascii "jwt"]
    else [ascii "t", ascii "s"]

/-- The scope hashes the whole of what the request carries under this name. -/
def ScopePins (name : Bytes) (query : Option Bytes) : Prop :=
  name ∈ scopedNames query ∧ (paramValues name query).length = 1

instance (name : Bytes) (query : Option Bytes) : Decidable (ScopePins name query) :=
  inferInstanceAs (Decidable (name ∈ scopedNames query ∧ (paramValues name query).length = 1))

lemma findParam_eq_head? (params : List (Bytes × Bytes)) (name : Bytes) :
    findParam params name = ((params.filter fun p => p.1 == name).map Prod.snd).head? := by
  rw [List.head?_map, List.head?_filter]
  rfl

lemma perm_paramValues (name : Bytes) (query : Option Bytes) :
    (((parseQueryPairs query).filter fun p => p.1 == name).map Prod.snd).Perm
      (paramValues name query) :=
  ((perm_sortPairs (queryPairs query)).filter _).map _

lemma findParam_eq_none_iff (name : Bytes) (query : Option Bytes) :
    findParam (parseQueryPairs query) name = none ↔ paramValues name query = [] := by
  rw [findParam_eq_head?, List.head?_eq_none_iff]
  constructor
  · intro h
    simpa [h] using perm_paramValues name query
  · intro h
    simpa [h] using perm_paramValues name query

lemma findParam_of_singleton {name v : Bytes} {query : Option Bytes}
    (h : paramValues name query = [v]) : findParam (parseQueryPairs query) name = some v := by
  have hperm := perm_paramValues name query
  rw [h, List.perm_singleton] at hperm
  rw [findParam_eq_head?, hperm]
  rfl

/-- The secret part of the scope calls, by the first credential kind present. -/
inductive ScopeSecret (params : List (Bytes × Bytes)) (tag : Bytes) (calls : List HashWrite) : Prop
  | apiKey (key : Bytes) (ha : findParam params (ascii "apiKey") = some key)
      (ht : tag = ascii "apiKey\x00") (hc : calls = [.bytes key])
  | password (password : Bytes) (ha : findParam params (ascii "apiKey") = none)
      (hp : findParam params (ascii "p") = some password)
      (ht : tag = ascii "password\x00") (hc : calls = [.bytes password])
  | jwt (jwt : Bytes) (ha : findParam params (ascii "apiKey") = none)
      (hp : findParam params (ascii "p") = none) (hj : findParam params (ascii "jwt") = some jwt)
      (ht : tag = ascii "jwt\x00") (hc : calls = [.bytes jwt])
  | tokenSalt (token salt : Bytes) (ha : findParam params (ascii "apiKey") = none)
      (hp : findParam params (ascii "p") = none) (hj : findParam params (ascii "jwt") = none)
      (htoken : findParam params (ascii "t") = some token)
      (hsalt : findParam params (ascii "s") = some salt)
      (ht : tag = ascii "token-salt\x00") (hc : calls = [.bytes token, .u8 0, .bytes salt])

lemma scopeWrites_secret {params : List (Bytes × Bytes)} {ws : List HashWrite}
    (h : scopeWrites params = some ws) :
    ∃ tag calls, ws = .bytes ((findParam params (ascii "u")).getD []) :: .u8 0 :: .bytes tag :: calls ∧
      ScopeSecret params tag calls := by
  unfold scopeWrites at h
  cases ha : findParam params (ascii "apiKey") with
  | some key =>
    simp only [ha, ite_eq_iff, reduceCtorEq, and_false, false_or, Option.some.injEq] at h
    exact ⟨_, _, h.2.symm, .apiKey key ha rfl rfl⟩
  | none =>
    cases hp : findParam params (ascii "p") with
    | some password =>
      simp only [ha, hp, ite_eq_iff, reduceCtorEq, and_false, false_or, Option.some.injEq] at h
      exact ⟨_, _, h.2.symm, .password password ha hp rfl rfl⟩
    | none =>
      cases hj : findParam params (ascii "jwt") with
      | some jwt =>
        simp only [ha, hp, hj, ite_eq_iff, reduceCtorEq, and_false, false_or, Option.some.injEq] at h
        exact ⟨_, _, h.2.symm, .jwt jwt ha hp hj rfl rfl⟩
      | none =>
        simp only [ha, hp, hj, Option.bind_eq_bind, Option.bind_eq_some_iff, ite_eq_iff, reduceCtorEq,
          and_false, false_or, Option.some.injEq] at h
        obtain ⟨token, ht, salt, hs, -, rfl⟩ := h
        exact ⟨_, _, rfl, .tokenSalt token salt ha hp hj ht hs rfl rfl⟩

lemma scopeTags_nodup :
    ([ascii "apiKey\x00", ascii "password\x00", ascii "jwt\x00", ascii "token-salt\x00"]).Nodup := by
  decide

/-- Equal scope calls come from the same credential kind with the same first values. -/
lemma scopeWrites_determines {ps ps' : List (Bytes × Bytes)} {ws : List HashWrite}
    (h : scopeWrites ps = some ws) (h' : scopeWrites ps' = some ws) :
    (findParam ps (ascii "u")).getD [] = (findParam ps' (ascii "u")).getD [] ∧
      findParam ps (ascii "apiKey") = findParam ps' (ascii "apiKey") ∧
      (findParam ps (ascii "apiKey") = none →
        findParam ps (ascii "p") = findParam ps' (ascii "p") ∧
        (findParam ps (ascii "p") = none →
          findParam ps (ascii "jwt") = findParam ps' (ascii "jwt") ∧
          (findParam ps (ascii "jwt") = none →
            findParam ps (ascii "t") = findParam ps' (ascii "t") ∧
            findParam ps (ascii "s") = findParam ps' (ascii "s")))) := by
  obtain ⟨tag, calls, rfl, hsecret⟩ := scopeWrites_secret h
  obtain ⟨tag', calls', heq, hsecret'⟩ := scopeWrites_secret h'
  simp only [List.cons.injEq, HashWrite.bytes.injEq, true_and] at heq
  obtain ⟨hu, rfl, rfl⟩ := heq
  -- two different kinds would have to write the same tag
  have htags := scopeTags_nodup
  simp only [List.nodup_cons, List.mem_cons, not_or] at htags
  rcases hsecret with ⟨_, ha, ht, hc⟩ | ⟨_, ha, hp, ht, hc⟩ | ⟨_, ha, hp, hj, ht, hc⟩ |
      ⟨_, _, ha, hp, hj, htoken, hsalt, ht, hc⟩ <;>
    rcases hsecret' with ⟨_, ha', ht', hc'⟩ | ⟨_, ha', hp', ht', hc'⟩ | ⟨_, ha', hp', hj', ht', hc'⟩ |
      ⟨_, _, ha', hp', hj', htoken', hsalt', ht', hc'⟩ <;>
    simp_all

/-- A name the scope pins in both requests carries the same value in both. -/
lemma paramValues_eq_of_scopePins {q₁ q₂ : Option Bytes} {ws : List HashWrite}
    (h₁ : scopeWrites (parseQueryPairs q₁) = some ws) (h₂ : scopeWrites (parseQueryPairs q₂) = some ws)
    {name : Bytes} (hp₁ : ScopePins name q₁) (hp₂ : ScopePins name q₂) :
    paramValues name q₁ = paramValues name q₂ := by
  obtain ⟨v₁, hv₁⟩ := List.length_eq_one_iff.mp hp₁.2
  obtain ⟨v₂, hv₂⟩ := List.length_eq_one_iff.mp hp₂.2
  have hf₁ := findParam_of_singleton hv₁
  have hf₂ := findParam_of_singleton hv₂
  obtain ⟨hu, ha, hrest⟩ := scopeWrites_determines h₁ h₂
  suffices v₁ = v₂ by rw [hv₁, hv₂, this]
  have hname := hp₁.1
  unfold scopedNames at hname
  simp only [ne_eq, ← findParam_eq_none_iff, List.mem_cons] at hname
  rcases hname with rfl | hname
  · simpa [hf₁, hf₂] using hu
  split at hname
  · obtain rfl := List.mem_singleton.mp hname
    simpa [hf₁, hf₂] using ha
  rename_i hka
  obtain ⟨hp, hrest⟩ := hrest (not_not.mp hka)
  split at hname
  · obtain rfl := List.mem_singleton.mp hname
    simpa [hf₁, hf₂] using hp
  rename_i hkp
  obtain ⟨hj, hrest⟩ := hrest (not_not.mp hkp)
  split at hname
  · obtain rfl := List.mem_singleton.mp hname
    simpa [hf₁, hf₂] using hj
  rename_i hkj
  obtain ⟨ht, hs⟩ := hrest (not_not.mp hkj)
  rcases List.mem_cons.mp hname with rfl | hname
  · simpa [hf₁, hf₂] using ht
  · obtain rfl := List.mem_singleton.mp hname
    simpa [hf₁, hf₂] using hs

/-- Two cacheable requests with one key carry the same credentials exactly when they agree
on every credential the scope does not pin: a second kind sent along with the one the
scope selects, and every name that is absent or repeated. -/
theorem navidrome_credentials_agree_iff (hH : Function.Injective H.finish)
    (p₁ p₂ : Bytes) (q₁ q₂ : Option Bytes) (policy : NavidromeCachePolicy)
    (c₁ c₂ : NavidromeCacheable)
    (h₁ : navidromeCacheable H methodGet p₁ q₁ policy = some c₁)
    (h₂ : navidromeCacheable H methodGet p₂ q₂ policy = some c₂)
    (hkey : navidromeCacheKey H c₁ = navidromeCacheKey H c₂) :
    (∀ name ∈ credentialNames, paramValues name q₁ = paramValues name q₂) ↔
      ∀ name ∈ credentialNames, ¬(ScopePins name q₁ ∧ ScopePins name q₂) →
        paramValues name q₁ = paramValues name q₂ := by
  constructor
  · intro h name hname _
    exact h name hname
  · intro h name hname
    by_cases hpin : ScopePins name q₁ ∧ ScopePins name q₂
    · obtain ⟨-, ⟨ws, hs₁, hs₂⟩, -⟩ := navidromeCacheable_key_eq hH h₁ h₂ hkey
      exact paramValues_eq_of_scopePins hs₁ hs₂ hpin.1 hpin.2
    · exact h name hname hpin

/-- Requests that send one user name and one password in any order. -/
theorem navidrome_credentials_agree_reordered :
    ∃ c₁ c₂, navidromeCacheable sequenceHasher methodGet (ascii "/rest/getAlbum.view")
        (some (ascii "u=alice&p=secret&id=1&f=json")) .default = some c₁ ∧
      navidromeCacheable sequenceHasher methodGet (ascii "getAlbum")
        (some (ascii "f=json&id=1&p=secret&u=alice")) .default = some c₂ ∧
      navidromeCacheKey sequenceHasher c₁ = navidromeCacheKey sequenceHasher c₂ ∧
      ∀ name ∈ credentialNames, paramValues name (some (ascii "u=alice&p=secret&id=1&f=json")) =
        paramValues name (some (ascii "f=json&id=1&p=secret&u=alice")) := by
  refine CacheableRequest.share (ascii "getAlbum")
    [.bytes (ascii "alice"), .u8 0, .bytes (ascii "password\x00"), .bytes (ascii "secret")] (by decide) (by decide)
    (by decide) fun c₁ c₂ h₁ h₂ hkey => ?_
  exact (navidrome_credentials_agree_iff sequenceHasher_collisionFree.injective _ _ _ _ _ c₁ c₂ h₁ h₂ hkey).mpr
    (by decide)

/-- Two requests that send the same API key with different passwords share one entry. -/
theorem navidrome_credentials_not_isolated :
    ∃ c₁ c₂, navidromeCacheable sequenceHasher methodGet (ascii "/rest/getAlbum.view")
        (some (ascii "u=alice&p=right&apiKey=k&id=1&f=json")) .default = some c₁ ∧
      navidromeCacheable sequenceHasher methodGet (ascii "/rest/getAlbum.view")
        (some (ascii "u=alice&p=wrong&apiKey=k&id=1&f=json")) .default = some c₂ ∧
      navidromeCacheKey sequenceHasher c₁ = navidromeCacheKey sequenceHasher c₂ ∧
      ¬∀ name ∈ credentialNames, paramValues name (some (ascii "u=alice&p=right&apiKey=k&id=1&f=json")) =
        paramValues name (some (ascii "u=alice&p=wrong&apiKey=k&id=1&f=json")) := by
  exact CacheableRequest.share (ascii "getAlbum")
    [.bytes (ascii "alice"), .u8 0, .bytes (ascii "apiKey\x00"), .bytes (ascii "k")] (by decide) (by decide)
    (by decide) fun _ _ _ _ _ => by decide

/-! ## The rest of the request -/

/-- The path of an endpoint without leading slashes, the `rest/` prefix and the `.view` suffix. -/
def endpointPath (path : Bytes) : Bytes :=
  let trimmed := path.dropWhile (· == byte '/')
  let rest := (stripPrefix (ascii "rest/") trimmed).getD trimmed
  (stripSuffix (ascii ".view") rest).getD rest

/-- Nothing follows the first segment after the leading slashes and the `rest/` prefix. -/
def SingleSegment (path : Bytes) : Prop :=
  let trimmed := path.dropWhile (· == byte '/')
  byte '/' ∉ (stripPrefix (ascii "rest/") trimmed).getD trimmed

instance (path : Bytes) : Decidable (SingleSegment path) :=
  inferInstanceAs (Decidable (byte '/' ∉ _))

lemma normalizeEndpoint_of_singleSegment {path endpoint : Bytes} (hp : SingleSegment path)
    (h : normalizeEndpoint path = some endpoint) : endpointPath path = endpoint := by
  unfold SingleSegment at hp
  unfold normalizeEndpoint at h
  simp only [List.splitOn_eq_singleton hp, List.head?_cons, Option.bind_eq_bind, Option.bind_some,
    ite_eq_iff, reduceCtorEq, and_false, false_or, Option.some.injEq] at h
  exact h.2

/-- The stable part of the key determines, for every name it keeps, the values up to order. -/
lemma perm_paramValues_of_stable {q₁ q₂ : Option Bytes} {name : Bytes} (hname : isStableName name = true)
    (h : stableQueryParams (parseQueryPairs q₁) = stableQueryParams (parseQueryPairs q₂)) :
    (paramValues name q₁).Perm (paramValues name q₂) := by
  have hfilter : ∀ q : Option Bytes, ((stableQueryParams (parseQueryPairs q)).filter
      fun p => p.1 == name) = (parseQueryPairs q).filter fun p => p.1 == name := by
    intro q
    unfold stableQueryParams
    rw [List.filter_filter]
    apply List.filter_congr
    intro p _
    by_cases hp : p.1 = name
    · simp [hp, hname]
    · simp [hp]
  have heq := congrArg (fun l => (l.filter fun p : Bytes × Bytes => p.1 == name).map Prod.snd) h
  simp only [hfilter] at heq
  exact ((perm_paramValues name q₁).symm.trans (List.Perm.of_eq heq)).trans (perm_paramValues name q₂)

lemma paramValues_callback {m p : Bytes} {q : Option Bytes} {policy : NavidromeCachePolicy}
    {e : Bytes} {ws : List HashWrite} (h : CacheableRequest m p q policy e ws) :
    paramValues (ascii "callback") q = [] := by
  rw [← findParam_eq_none_iff, findParam, Option.map_eq_none_iff, List.find?_eq_none]
  intro x hx
  simpa using List.any_eq_false.mp h.noCallback x hx

/-- Equal keys come from one endpoint name and, for every parameter name outside the
credentials and outside the `Token` and `Salt` suffixes, from the same values up to order. -/
theorem navidrome_key_determines_request (hH : Function.Injective H.finish)
    (m₁ m₂ p₁ p₂ : Bytes) (q₁ q₂ : Option Bytes) (policy : NavidromeCachePolicy)
    (c₁ c₂ : NavidromeCacheable)
    (h₁ : navidromeCacheable H m₁ p₁ q₁ policy = some c₁)
    (h₂ : navidromeCacheable H m₂ p₂ q₂ policy = some c₂)
    (hkey : navidromeCacheKey H c₁ = navidromeCacheKey H c₂) :
    normalizeEndpoint p₁ = normalizeEndpoint p₂ ∧
      (SingleSegment p₁ → SingleSegment p₂ → endpointPath p₁ = endpointPath p₂) ∧
      ∀ name, name ∉ credentialNames → (ascii "Token").isSuffixOf name = false →
        (ascii "Salt").isSuffixOf name = false →
        (paramValues name q₁).Perm (paramValues name q₂) ∧
          ((paramValues name q₁).length ≤ 1 → paramValues name q₁ = paramValues name q₂) := by
  obtain ⟨hname, -, hstable⟩ := navidromeCacheable_key_eq hH h₁ h₂ hkey
  obtain ⟨ws₁, hr₁, -⟩ := navidromeCacheable_eq_some.mp h₁
  obtain ⟨ws₂, hr₂, -⟩ := navidromeCacheable_eq_some.mp h₂
  refine ⟨hname, ?_, ?_⟩
  · intro hs₁ hs₂
    rw [normalizeEndpoint_of_singleSegment hs₁ hr₁.named,
      normalizeEndpoint_of_singleSegment hs₂ (hname ▸ hr₁.named)]
  · intro name hcred htoken hsalt
    have hperm : (paramValues name q₁).Perm (paramValues name q₂) := by
      by_cases hcallback : name = ascii "callback"
      · subst hcallback
        rw [paramValues_callback hr₁, paramValues_callback hr₂]
      · apply perm_paramValues_of_stable _ hstable
        have hsensitive : sensitive.contains name = false := by
          simp only [sensitive, credentialNames, List.map_cons, List.map_nil, List.mem_cons,
            List.not_mem_nil, or_false, not_or, List.contains_eq_mem, decide_eq_false_iff_not] at hcred ⊢
          tauto
        simp only [isStableName, hsensitive, htoken, hsalt, bne_iff_ne.mpr hcallback, Bool.not_false,
          Bool.and_self]
    refine ⟨hperm, fun hlen => ?_⟩
    match hv : paramValues name q₁, hlen with
    | [], _ => simpa [hv] using hperm.symm
    | [v], _ =>
      rw [hv] at hperm
      exact (List.perm_singleton.mp hperm.symm).symm

/-- Requests that differ in the order of their parameters and in the spelling of the path. -/
theorem navidrome_key_determines_request_reordered :
    ∃ c₁ c₂, navidromeCacheable sequenceHasher methodGet (ascii "/rest/getSong.view")
        (some (ascii "u=alice&p=secret&id=9&f=json")) .default = some c₁ ∧
      navidromeCacheable sequenceHasher methodGet (ascii "//getSong")
        (some (ascii "f=json&id=9&p=secret&u=alice")) .default = some c₂ ∧
      navidromeCacheKey sequenceHasher c₁ = navidromeCacheKey sequenceHasher c₂ ∧
      endpointPath (ascii "/rest/getSong.view") = endpointPath (ascii "//getSong") ∧
      paramValues (ascii "id") (some (ascii "u=alice&p=secret&id=9&f=json")) =
        paramValues (ascii "id") (some (ascii "f=json&id=9&p=secret&u=alice")) := by
  refine CacheableRequest.share (ascii "getSong")
    [.bytes (ascii "alice"), .u8 0, .bytes (ascii "password\x00"), .bytes (ascii "secret")] (by decide) (by decide)
    (by decide) fun c₁ c₂ h₁ h₂ hkey => ?_
  obtain ⟨-, hpath, hvalues⟩ := navidrome_key_determines_request sequenceHasher_collisionFree.injective
    _ _ _ _ _ _ _ c₁ c₂ h₁ h₂ hkey
  exact ⟨hpath (by decide) (by decide), (hvalues (ascii "id") (by decide) (by decide) (by decide)).2 (by decide)⟩

/-- One key for two paths, for two orders of a repeated parameter and for two values of a
parameter whose name ends in `Token`. -/
theorem navidrome_key_forgets :
    (∃ c₁ c₂, navidromeCacheable sequenceHasher methodGet (ascii "/rest/getAlbum")
        (some (ascii "apiKey=k&f=json")) .default = some c₁ ∧
      navidromeCacheable sequenceHasher methodGet (ascii "/rest/getAlbum/x")
        (some (ascii "apiKey=k&f=json")) .default = some c₂ ∧
      navidromeCacheKey sequenceHasher c₁ = navidromeCacheKey sequenceHasher c₂ ∧
      endpointPath (ascii "/rest/getAlbum") ≠ endpointPath (ascii "/rest/getAlbum/x")) ∧
    (∃ c₁ c₂, navidromeCacheable sequenceHasher methodGet (ascii "/rest/getAlbum")
        (some (ascii "apiKey=k&f=json&id=1&id=2")) .default = some c₁ ∧
      navidromeCacheable sequenceHasher methodGet (ascii "/rest/getAlbum")
        (some (ascii "apiKey=k&f=json&id=2&id=1")) .default = some c₂ ∧
      navidromeCacheKey sequenceHasher c₁ = navidromeCacheKey sequenceHasher c₂ ∧
      paramValues (ascii "id") (some (ascii "apiKey=k&f=json&id=1&id=2")) ≠
        paramValues (ascii "id") (some (ascii "apiKey=k&f=json&id=2&id=1"))) ∧
    ∃ c₁ c₂, navidromeCacheable sequenceHasher methodGet (ascii "/rest/getAlbum")
        (some (ascii "apiKey=k&f=json&pageToken=1")) .default = some c₁ ∧
      navidromeCacheable sequenceHasher methodGet (ascii "/rest/getAlbum")
        (some (ascii "apiKey=k&f=json&pageToken=2")) .default = some c₂ ∧
      navidromeCacheKey sequenceHasher c₁ = navidromeCacheKey sequenceHasher c₂ ∧
      paramValues (ascii "pageToken") (some (ascii "apiKey=k&f=json&pageToken=1")) ≠
        paramValues (ascii "pageToken") (some (ascii "apiKey=k&f=json&pageToken=2")) := by
  let ws : List HashWrite := [.bytes [], .u8 0, .bytes (ascii "apiKey\x00"), .bytes (ascii "k")]
  exact ⟨CacheableRequest.share (ascii "getAlbum") ws (by decide) (by decide) (by decide) fun _ _ _ _ _ => by decide,
    CacheableRequest.share (ascii "getAlbum") ws (by decide) (by decide) (by decide) fun _ _ _ _ _ => by decide,
    CacheableRequest.share (ascii "getAlbum") ws (by decide) (by decide) (by decide) fun _ _ _ _ _ => by decide⟩

end Pingola
