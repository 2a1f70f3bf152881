import Pingola.Gateway.ContentLength
import Pingola.UpstreamH3.Preferred

/-!
# Retries

`fail_to_connect` and `error_while_proxy` of `gateway.rs` with the fallback from HTTP/3 to TCP, and the
loop of attempts around them. Both hooks count the retries that they grant in the context of the request.
-/

namespace Pingola
open ByteText

/-- `RetryType` of the error crate. -/
inductive RetryType where
  | decided (retry : Bool)
  | reusedOnly
  deriving DecidableEq

def RetryType.decideReuse (retry : RetryType) (reused : Bool) : RetryType :=
  match retry with
  | .reusedOnly => .decided reused
  | .decided retry => .decided retry

/-- `RetryType::retry`, which panics if nothing is decided. -/
def RetryType.retry : RetryType → Option Bool
  | .decided retry => some retry
  | .reusedOnly => none

inductive ErrorType where
  | connectTimedout
  | connectRefused
  | connectNoRoute
  | connectError
  | tlsHandshakeTimedout
  | h2Error
  | writeError
  | readError
  | other (name : Bytes)
  deriving DecidableEq

/-- An error with its type, its source, its context, its text and its mark. -/
structure ProxyError where
  etype : ErrorType
  downstream : Bool
  context : Option Bytes
  text : Bytes
  retry : RetryType
  deriving DecidableEq

def ProxyError.setRetry (error : ProxyError) (retry : Bool) : ProxyError := { error with retry := .decided retry }

/-- What the hooks read of a session. -/
structure ProxySession where
  request : RequestHeader
  directHttp3 : Bool
  bodyEmpty : Bool
  responseWritten : Bool
  retryBufferTruncated : Bool

/-- What the hooks and the selection of the peer use of `RequestContext`. -/
structure RequestContext where
  planIndex : ℕ
  http3 : Bool
  grpc : Option GrpcKind
  retries : ℕ
  upstreamH3TcpFallback : Bool
  deriving DecidableEq

def H3Route.allowsTcpFallback (route : H3Route) : Bool := route.preferred && !route.forced

def requestHeaderIsReplaySafe (request : RequestHeader) : Bool :=
  (request.method == ascii "GET" || request.method == ascii "HEAD") &&
    match validatedRequestContentLength request with
    | some none | some (some 0) => true
    | _ => false

def ProxySession.requestIsReplaySafe (session : ProxySession) : Bool :=
  requestHeaderIsReplaySafe session.request && session.bodyEmpty

def isDownstreamH2Cancel (error : ProxyError) : Bool :=
  error.downstream && error.etype == .h2Error &&
    error.context == some (ascii "Client closed H2, reason: stream no longer needed")

namespace H3Gateway

variable {env : Surroundings} {isIpAddr : Bytes → Bool} (g : H3Gateway env isIpAddr)

def requestPlan (ctx : RequestContext) : Except (ℕ × Bytes) PreparedPlan :=
  match g.routing.plans[ctx.planIndex]? with
  | some plan => .ok plan
  | none => .error (500, ascii "request plan is missing")

/-- The route that stands next to the peer for HTTP/3 of a plan. -/
def routeOf (plan : PreparedPlan) : H3Route :=
  ((g.registry.find? fun u => u.name = plan.upstreamName).map StartedUpstream.route).getD ⟨false, false⟩

/-- `upstream_peer`, given what it loads from the flag of the upstream. -/
def upstreamPeer (available : Bool) (ctx : RequestContext) : Except (ℕ × Bytes) HttpPeer := do
  let plan ← g.requestPlan ctx
  match ctx.grpc, plan.h3 with
  | none, some h3 =>
    if (g.routeOf plan).shouldUseDirectH3 available ctx.upstreamH3TcpFallback then return h3
    else return plan.peer
  | _, _ => return plan.peer

def precomputedUpstreamPeer (available : Bool) (ctx : RequestContext) : Option HttpPeer :=
  g.routing.plans[ctx.planIndex]?.map fun plan =>
    plan.upstreamPeer (g.routeOf plan) available ctx.grpc.isSome ctx.upstreamH3TcpFallback

def isBenignStreamDisconnect (session : ProxySession) (ctx : RequestContext) (error : ProxyError) : Bool :=
  if isDownstreamH2Cancel error then true
  else if !ctx.http3 && !session.directHttp3 then false
  else if !(error.etype == .writeError || error.etype == .readError) then false
  else if !(["response stream closed", "response write timed out", "downstream error while idling",
      "stream closed because of a broken pipe", "inactive stream"].any fun part =>
        containsBytes (ascii part) error.text) then false
  else session.responseWritten ||
    (g.routing.plans[ctx.planIndex]?.map PreparedPlan.route).any fun route =>
      route == .navidromeStream || route == .navidromeCover

/-- `try_upstream_h3_tcp_fallback`, which changes nothing if it returns false. -/
def tryUpstreamH3TcpFallback (session : ProxySession) (peer : HttpPeer) (ctx : RequestContext) (error : ProxyError) :
    Option (RequestContext × ProxyError) :=
  if !peer.isCustom then none
  else
    match g.requestPlan ctx with
    | .error _ => none
    | .ok plan =>
      match plan.h3 with
      | none => none
      | some _ =>
        if !(g.routeOf plan).allowsTcpFallback || ctx.upstreamH3TcpFallback || !session.requestIsReplaySafe ||
            decide (g.runtime.config.server.maxRetries ≤ ctx.retries) then none
        else
          some ({ ctx with upstreamH3TcpFallback := true, retries := ctx.retries + 1 }, error.setRetry true)

def failToConnect (session : ProxySession) (peer : HttpPeer) (ctx : RequestContext) (error : ProxyError) :
    RequestContext × ProxyError :=
  match g.tryUpstreamH3TcpFallback session peer ctx error with
  | some fallback => fallback
  | none =>
    let retryableError := [ErrorType.connectTimedout, .connectRefused, .connectNoRoute, .connectError,
      .tlsHandshakeTimedout].contains error.etype
    let shouldRetry := retryableError && session.requestIsReplaySafe &&
      decide (ctx.retries < g.runtime.config.server.maxRetries)
    if shouldRetry then ({ ctx with retries := ctx.retries + 1 }, error.setRetry true)
    else (ctx, error.setRetry false)

/-- `error_while_proxy`; there is no result if it panics. -/
def errorWhileProxy (peer : HttpPeer) (session : ProxySession) (error : ProxyError) (ctx : RequestContext)
    (clientReused : Bool) : Option (RequestContext × ProxyError) :=
  if g.isBenignStreamDisconnect session ctx error then some (ctx, error.setRetry false)
  else if ctx.grpc.isSome then some (ctx, error.setRetry false)
  else if session.responseWritten then some (ctx, error.setRetry false)
  else
    match g.tryUpstreamH3TcpFallback session peer ctx error with
    | some fallback => some fallback
    | none => do
      let canRetry := clientReused && session.requestIsReplaySafe && !session.responseWritten &&
        !session.retryBufferTruncated && decide (ctx.retries < g.runtime.config.server.maxRetries)
      let shouldRetry ← if canRetry then (error.retry.decideReuse canRetry).retry else some false
      return (if shouldRetry then { ctx with retries := ctx.retries + 1 } else ctx, error.setRetry shouldRetry)

end H3Gateway

/-- The hook that an attempt ends in; `writes` if it has written a response by then. -/
inductive AttemptEnd where
  | failToConnect
  | errorWhileProxy (clientReused writes : Bool)
  deriving DecidableEq

def AttemptEnd.writes : AttemptEnd → Bool
  | .failToConnect => false
  | .errorWhileProxy _ writes => writes

/-- What an attempt meets: the flag of its upstream, its error, and what its hook reads of the session. -/
structure Attempt where
  available : Bool
  error : ProxyError
  ending : AttemptEnd
  bodyEmpty : Bool
  retryBufferTruncated : Bool

/-- An attempt that has ended, with what its hook decided. -/
structure AttemptOutcome where
  attempt : Attempt
  responseWritten : Bool
  retry : Bool
  fallback : Bool

/-- The loop of attempts of a request; `goesOn` if there may be a further one. -/
structure RetryLoop where
  ctx : RequestContext
  responseWritten : Bool
  goesOn : Bool
  history : List AttemptOutcome

def RetryLoop.start (planIndex : ℕ) (http3 : Bool) (grpc : Option GrpcKind) : RetryLoop :=
  ⟨⟨planIndex, http3, grpc, 0, false⟩, false, true, []⟩

namespace H3Gateway

variable {env : Surroundings} {isIpAddr : Bytes → Bool} (g : H3Gateway env isIpAddr)

/-- The hook at the end of an attempt on a peer. -/
def hook (session : ProxySession) (peer : HttpPeer) (ctx : RequestContext) (a : Attempt) :
    Option (RequestContext × ProxyError) :=
  match a.ending with
  | .failToConnect => some (g.failToConnect session peer ctx a.error)
  | .errorWhileProxy clientReused _ => g.errorWhileProxy peer session a.error ctx clientReused

/-- An attempt on the peer that is selected. The loop goes on if the returned error asks for a retry. -/
def attempt (request : RequestHeader) (directHttp3 : Bool) (loop : RetryLoop) (a : Attempt) : Option RetryLoop :=
  if !loop.goesOn then none
  else do
    let peer ← (g.upstreamPeer a.available loop.ctx).toOption
    let written := loop.responseWritten || a.ending.writes
    let session : ProxySession := ⟨request, directHttp3, a.bodyEmpty, written, a.retryBufferTruncated⟩
    let (ctx, error) ← g.hook session peer loop.ctx a
    let retry ← error.retry.retry
    let fallback := ctx.upstreamH3TcpFallback && !loop.ctx.upstreamH3TcpFallback
    return ⟨ctx, written, retry, loop.history ++ [⟨a, written, retry, fallback⟩]⟩

/-! ### The hooks -/

/-- A hook may grant a retry, and then changes the context so. -/
structure Grants (session : ProxySession) (ctx ctx' : RequestContext) : Prop where
  replaySafe : session.requestIsReplaySafe = true
  below : ctx.retries < g.runtime.config.server.maxRetries
  change : ctx' = { ctx with retries := ctx.retries + 1 } ∨
    ctx.upstreamH3TcpFallback = false ∧
      ctx' = { ctx with upstreamH3TcpFallback := true, retries := ctx.retries + 1 } ∧
      ∃ plan, g.routing.plans[ctx.planIndex]? = some plan ∧ (g.routeOf plan).allowsTcpFallback = true

/-- What a hook does: it denies a retry and leaves the context, or grants one. -/
def Decides (session : ProxySession) (ctx : RequestContext) (result : RequestContext × ProxyError) : Prop :=
  result.2.retry = .decided false ∧ result.1 = ctx ∨ result.2.retry = .decided true ∧ g.Grants session ctx result.1

variable {g} {session : ProxySession} {peer : HttpPeer} {ctx : RequestContext} {error : ProxyError}

lemma tryUpstreamH3TcpFallback_decides {result : RequestContext × ProxyError}
    (h : g.tryUpstreamH3TcpFallback session peer ctx error = some result) : g.Decides session ctx result := by
  unfold tryUpstreamH3TcpFallback requestPlan at h
  split at h
  · cases h
  · cases hplan : g.routing.plans[ctx.planIndex]? with
    | none => simp [hplan] at h
    | some plan =>
      simp only [hplan] at h
      split at h
      · cases h
      · split at h
        · cases h
        · rename_i hguard
          obtain rfl := Option.some.inj h
          simp only [Bool.or_eq_true, Bool.not_eq_true', decide_eq_true_eq, not_or, Bool.not_eq_false,
            Bool.not_eq_true, not_le] at hguard
          obtain ⟨⟨⟨hallows, hflag⟩, hsafe⟩, hbelow⟩ := hguard
          exact .inr ⟨rfl, hsafe, hbelow, .inr ⟨hflag, rfl, plan, hplan, hallows⟩⟩

lemma failToConnect_decides : g.Decides session ctx (g.failToConnect session peer ctx error) := by
  unfold failToConnect
  cases hfallback : g.tryUpstreamH3TcpFallback session peer ctx error with
  | some result => exact tryUpstreamH3TcpFallback_decides hfallback
  | none =>
    dsimp only
    split
    · rename_i hretry
      simp only [Bool.and_eq_true, decide_eq_true_eq] at hretry
      exact .inr ⟨rfl, hretry.1.2, hretry.2, .inl rfl⟩
    · exact .inl ⟨rfl, rfl⟩

variable (session peer ctx error) in
/-- `error_while_proxy` does not panic, and grants nothing once a response is written or for gRPC. -/
lemma errorWhileProxy_decides (clientReused : Bool) :
    ∃ result, g.errorWhileProxy peer session error ctx clientReused = some result ∧ g.Decides session ctx result ∧
      (result.2.retry = .decided true → ctx.grpc = none ∧ session.responseWritten = false) := by
  unfold errorWhileProxy
  split
  · exact ⟨_, rfl, .inl ⟨rfl, rfl⟩, fun h => by cases h⟩
  split
  · exact ⟨_, rfl, .inl ⟨rfl, rfl⟩, fun h => by cases h⟩
  rename_i hgrpc
  split
  · exact ⟨_, rfl, .inl ⟨rfl, rfl⟩, fun h => by cases h⟩
  rename_i hwritten
  have hnone : ctx.grpc = none ∧ session.responseWritten = false := ⟨by simpa using hgrpc, by simpa using hwritten⟩
  cases hfallback : g.tryUpstreamH3TcpFallback session peer ctx error with
  | some result => exact ⟨result, rfl, tryUpstreamH3TcpFallback_decides hfallback, fun _ => hnone⟩
  | none =>
    dsimp only
    split
    · rename_i hcan
      -- the mark is decided by now
      obtain ⟨retry, hretry⟩ : ∃ retry, (error.retry.decideReuse true).retry = some retry := by
        cases error.retry <;> exact ⟨_, rfl⟩
      rw [hcan, hretry]
      simp only [Bool.and_eq_true, decide_eq_true_eq] at hcan
      cases retry with
      | false => exact ⟨_, rfl, .inl ⟨rfl, rfl⟩, fun h => by cases h⟩
      | true => exact ⟨_, rfl, .inr ⟨rfl, hcan.1.1.1.2, hcan.2, .inl rfl⟩, fun _ => hnone⟩
    · exact ⟨_, rfl, .inl ⟨rfl, rfl⟩, fun h => by cases h⟩

variable (session peer ctx) in
lemma hook_decides (a : Attempt) :
    ∃ result, g.hook session peer ctx a = some result ∧ g.Decides session ctx result ∧
      (result.2.retry = .decided true → a.ending ≠ .failToConnect →
        ctx.grpc = none ∧ session.responseWritten = false) := by
  unfold hook
  cases hending : a.ending with
  | failToConnect => exact ⟨_, rfl, failToConnect_decides, fun _ hne => absurd rfl hne⟩
  | errorWhileProxy clientReused writes =>
    obtain ⟨result, hresult, hdecides, hgranted⟩ :=
      errorWhileProxy_decides (g := g) session peer ctx a.error clientReused
    exact ⟨result, hresult, hdecides, fun hretry _ => hgranted hretry⟩

/-! ### The selection of the peer -/

variable (g) in
lemma toOption_upstreamPeer (available : Bool) (ctx : RequestContext) :
    (g.upstreamPeer available ctx).toOption = g.precomputedUpstreamPeer available ctx := by
  unfold upstreamPeer precomputedUpstreamPeer requestPlan
  cases hplan : g.routing.plans[ctx.planIndex]? with
  | none => rfl
  | some plan =>
    simp only [bind, Except.bind, Option.map_some, PreparedPlan.upstreamPeer]
    cases ctx.grpc with
    | some kind => rfl
    | none =>
      cases plan.h3 with
      | none => rfl
      | some h3 =>
        by_cases hdirect : (g.routeOf plan).shouldUseDirectH3 available ctx.upstreamH3TcpFallback = true
        · simp [hdirect, pure, Except.pure, Except.toOption]
        · simp [hdirect, pure, Except.pure, Except.toOption]

/-- After the fallback both functions select the peer for TCP. -/
lemma precomputedUpstreamPeer_of_fallback {plan : PreparedPlan} (hplan : g.routing.plans[ctx.planIndex]? = some plan)
    (hflag : ctx.upstreamH3TcpFallback = true) (available : Bool) :
    g.precomputedUpstreamPeer available ctx = some plan.peer := by
  rw [precomputedUpstreamPeer, hplan, hflag, Option.map_some, PreparedPlan.upstreamPeer]
  cases ctx.grpc.isSome <;> cases plan.h3 <;> simp [H3Route.shouldUseDirectH3]

variable (g) in
/-- The upstream of a plan is configured as preferred over HTTP/3. -/
def PreferredPlan (plan : PreparedPlan) : Prop :=
  ∃ upstream, (plan.upstreamName, upstream) ∈ g.runtime.config.upstreams.entries ∧
    upstream.protocol = .http3Preferred

/-- A started upstream stands in the configuration, and its route follows its protocol. -/
lemma exists_of_mem_startUpstreams {toSocketAddrs : Bytes → Option (List SocketAddr)}
    {entries : List (Bytes × UpstreamConfig)} {registry : List StartedUpstream} {u : StartedUpstream}
    (h : startUpstreams toSocketAddrs isIpAddr entries = .ok registry) (hu : u ∈ registry) :
    ∃ upstream, (u.name, upstream) ∈ entries ∧
      u.route = ⟨upstream.protocol == .http3, upstream.protocol == .http3Preferred⟩ := by
  obtain ⟨upstream, hmem, hstarted⟩ := exists_startUpstream_of_mem h hu
  refine ⟨upstream, hmem, ?_⟩
  rw [startUpstream] at hstarted
  split at hstarted
  · cases hstarted
  · obtain ⟨-, -, hstarted⟩ := except_bind_eq_ok.mp hstarted
    obtain ⟨origin, -, hstarted⟩ := except_bind_eq_ok.mp hstarted
    obtain ⟨serverName, -, hstarted⟩ := except_bind_eq_ok.mp hstarted
    -- the name of the record stands on both sides of the equation
    have hroute := congrArg StartedUpstream.route (Option.some.inj (Except.ok.inj hstarted))
    exact hroute.symm

lemma preferredPlan_of_allowsTcpFallback {plan : PreparedPlan} (h : (g.routeOf plan).allowsTcpFallback = true) :
    g.PreferredPlan plan := by
  unfold routeOf at h
  cases hfind : g.registry.find? fun u => u.name = plan.upstreamName with
  | none =>
    rw [hfind] at h
    cases h
  | some u =>
    rw [hfind, Option.map_some, Option.getD_some] at h
    obtain ⟨upstream, hmem, hroute⟩ := exists_of_mem_startUpstreams g.started (List.mem_of_find?_eq_some hfind)
    have hname : u.name = plan.upstreamName := by simpa using List.find?_some hfind
    rw [H3Route.allowsTcpFallback, hroute] at h
    simp only [Bool.and_eq_true, beq_iff_eq] at h
    exact ⟨upstream, hname ▸ hmem, h.1⟩

/-! ### The loop -/

lemma declared_empty_of_replaySafe {request : RequestHeader} (h : requestHeaderIsReplaySafe request = true) :
    ∀ value ∈ MultiMap.getAll request.headers contentLengthName, ∀ token ∈ value.splitOn (byte ','),
      DecimalText (trimAscii token) 0 := by
  intro value hvalue token htoken
  rw [requestHeaderIsReplaySafe, Bool.and_eq_true] at h
  cases hlength : validatedRequestContentLength request with
  | none => simp [hlength] at h
  | some length =>
    obtain ⟨length', hvalid, hsame⟩ := Option.bind_eq_some_iff.mp hlength
    split_ifs at hsame
    obtain rfl := Option.some.inj hsame
    obtain ⟨n, -, rfl, htext⟩ := (validated_of_eq_some hvalid).tokens value hvalue token htoken
    cases n with
    | zero => exact htext
    | succ n => simp [hlength] at h

/-- An attempt whose hook granted a retry could be repeated: a `GET` or `HEAD` without a body that was not
answered, and not gRPC once it was connected. -/
structure RetryAllowed (request : RequestHeader) (grpc : Option GrpcKind) (o : AttemptOutcome) : Prop where
  method : request.method = ascii "GET" ∨ request.method = ascii "HEAD"
  declared : ∀ value ∈ MultiMap.getAll request.headers contentLengthName, ∀ token ∈ value.splitOn (byte ','),
    DecimalText (trimAscii token) 0
  bodyEmpty : o.attempt.bodyEmpty = true
  notGrpc : ¬(grpc.isSome = true ∧ o.attempt.ending ≠ .failToConnect)
  unanswered : o.responseWritten = false

/-- The session that the hook of an attempt sees. -/
def sessionOf (request : RequestHeader) (directHttp3 : Bool) (loop : RetryLoop) (a : Attempt) : ProxySession :=
  ⟨request, directHttp3, a.bodyEmpty, loop.responseWritten || a.ending.writes, a.retryBufferTruncated⟩

/-- The outcome of an attempt whose hook gives a result. -/
def outcomeOf (loop : RetryLoop) (a : Attempt) (result : RequestContext × ProxyError) : AttemptOutcome where
  attempt := a
  responseWritten := loop.responseWritten || a.ending.writes
  retry := decide (result.2.retry = .decided true)
  fallback := result.1.upstreamH3TcpFallback && !loop.ctx.upstreamH3TcpFallback

/-- What an attempt does to the loop. -/
lemma attempt_eq_some {request : RequestHeader} {directHttp3 : Bool} {loop loop' : RetryLoop} {a : Attempt}
    (h : g.attempt request directHttp3 loop a = some loop') :
    loop.goesOn = true ∧ ∃ result : RequestContext × ProxyError,
      loop' = ⟨result.1, (outcomeOf loop a result).responseWritten, (outcomeOf loop a result).retry,
        loop.history ++ [outcomeOf loop a result]⟩ ∧
      g.Decides (sessionOf request directHttp3 loop a) loop.ctx result ∧
      (result.2.retry = .decided true → a.ending ≠ .failToConnect →
        loop.ctx.grpc = none ∧ (loop.responseWritten || a.ending.writes) = false) := by
  unfold attempt at h
  split at h
  · cases h
  · rename_i hgoes
    obtain ⟨peer, -, h⟩ := Option.bind_eq_some_iff.mp h
    obtain ⟨result, hhook, h⟩ := Option.bind_eq_some_iff.mp h
    obtain ⟨result', hhook', hdecides, hgranted⟩ :=
      hook_decides (g := g) (sessionOf request directHttp3 loop a) peer loop.ctx a
    obtain rfl := Option.some.inj (hhook.symm.trans hhook')
    refine ⟨by simpa using hgoes, result, ?_, hdecides, hgranted⟩
    obtain ⟨retry, hretry, h⟩ := Option.bind_eq_some_iff.mp h
    obtain rfl := Option.some.inj h
    have hmark : retry = decide (result.2.retry = .decided true) := by
      rcases hdecides with ⟨hdecided, -⟩ | ⟨hdecided, -⟩
      · rw [hdecided] at hretry ⊢
        exact (Option.some.inj hretry).symm
      · rw [hdecided] at hretry ⊢
        exact (Option.some.inj hretry).symm
    rw [hmark]
    rfl

/-- While the loop goes on and the request has a plan there can be a further attempt. -/
lemma attempt_isSome {request : RequestHeader} {directHttp3 : Bool} {loop : RetryLoop} (a : Attempt)
    (hgoes : loop.goesOn = true) (hplan : loop.ctx.planIndex < g.routing.plans.length) :
    (g.attempt request directHttp3 loop a).isSome = true := by
  have hselected := g.toOption_upstreamPeer a.available loop.ctx
  rw [precomputedUpstreamPeer, List.getElem?_eq_getElem hplan, Option.map_some] at hselected
  obtain ⟨result, hhook, hdecides, -⟩ := hook_decides (g := g) (sessionOf request directHttp3 loop a)
    (PreparedPlan.upstreamPeer g.routing.plans[loop.ctx.planIndex] (g.routeOf g.routing.plans[loop.ctx.planIndex])
      a.available loop.ctx.grpc.isSome loop.ctx.upstreamH3TcpFallback) loop.ctx a
  obtain ⟨retry, hretry⟩ : ∃ retry, result.2.retry.retry = some retry := by
    rcases hdecides with ⟨hdecided, -⟩ | ⟨hdecided, -⟩ <;> exact ⟨_, by rw [hdecided]; rfl⟩
  unfold attempt
  rw [hgoes, hselected]
  change ((g.hook (sessionOf request directHttp3 loop a) _ loop.ctx a).bind _).isSome = true
  rw [hhook, Option.bind_some]
  change (result.2.retry.retry.bind _).isSome = true
  rw [hretry]
  rfl

variable (g) in
/-- The retries and fallbacks granted so far are those that the context counts. -/
structure LoopInv (request : RequestHeader) (planIndex : ℕ) (grpc : Option GrpcKind) (loop : RetryLoop) : Prop where
  samePlan : loop.ctx.planIndex = planIndex
  sameGrpc : loop.ctx.grpc = grpc
  unanswered : loop.goesOn = true → loop.responseWritten = false
  retries : loop.history.countP AttemptOutcome.retry = loop.ctx.retries
  bound : loop.ctx.retries ≤ g.runtime.config.server.maxRetries
  fallbacks : loop.history.countP AttemptOutcome.fallback = loop.ctx.upstreamH3TcpFallback.toNat
  allowed : ∀ o ∈ loop.history, o.retry = true → RetryAllowed request grpc o
  preferred : ∀ o ∈ loop.history, o.fallback = true → o.retry = true ∧
    ∃ plan, g.routing.plans[planIndex]? = some plan ∧ g.PreferredPlan plan

lemma loopInv_start (request : RequestHeader) (planIndex : ℕ) (http3 : Bool) (grpc : Option GrpcKind) :
    g.LoopInv request planIndex grpc (.start planIndex http3 grpc) where
  samePlan := rfl
  sameGrpc := rfl
  unanswered _ := rfl
  retries := rfl
  bound := Nat.zero_le _
  fallbacks := rfl
  allowed := by simp [RetryLoop.start]
  preferred := by simp [RetryLoop.start]

lemma retryAllowed_of_grants {request : RequestHeader} {directHttp3 : Bool} {loop : RetryLoop} {a : Attempt}
    {result : RequestContext × ProxyError} (hopen : loop.responseWritten = false)
    (hgrants : g.Grants (sessionOf request directHttp3 loop a) loop.ctx result.1)
    (hended : a.ending ≠ .failToConnect → loop.ctx.grpc = none ∧ (loop.responseWritten || a.ending.writes) = false) :
    RetryAllowed request loop.ctx.grpc (outcomeOf loop a result) := by
  have hsafe := hgrants.replaySafe
  rw [ProxySession.requestIsReplaySafe, Bool.and_eq_true] at hsafe
  obtain ⟨hheader, hbody⟩ := hsafe
  have hmethod := hheader
  rw [requestHeaderIsReplaySafe, Bool.and_eq_true, Bool.or_eq_true, beq_iff_eq, beq_iff_eq] at hmethod
  refine ⟨hmethod.1, declared_empty_of_replaySafe hheader, hbody, fun ⟨hsome, hne⟩ => ?_, ?_⟩
  · rw [(hended hne).1] at hsome
    cases hsome
  · -- a failure to connect comes before any response of its attempt
    by_cases hending : a.ending = .failToConnect
    · simp [outcomeOf, hopen, hending, AttemptEnd.writes]
    · exact (hended hending).2

/-- An outcome that the context counts keeps the invariant. -/
lemma LoopInv.append {request : RequestHeader} {planIndex : ℕ} {grpc : Option GrpcKind} {loop : RetryLoop}
    (h : g.LoopInv request planIndex grpc loop) {ctx' : RequestContext} {o : AttemptOutcome}
    (hctx : ctx' = { loop.ctx with
      retries := loop.ctx.retries + o.retry.toNat
      upstreamH3TcpFallback := loop.ctx.upstreamH3TcpFallback || o.fallback })
    (hallowed : o.retry = true → loop.ctx.retries < g.runtime.config.server.maxRetries ∧ RetryAllowed request grpc o)
    (hpreferred : o.fallback = true → loop.ctx.upstreamH3TcpFallback = false ∧ o.retry = true ∧
      ∃ plan, g.routing.plans[planIndex]? = some plan ∧ g.PreferredPlan plan) :
    g.LoopInv request planIndex grpc ⟨ctx', o.responseWritten, o.retry, loop.history ++ [o]⟩ := by
  have hcount : ∀ p : AttemptOutcome → Bool,
      (loop.history ++ [o]).countP p = loop.history.countP p + (p o).toNat := by
    intro p
    rw [List.countP_append, List.countP_singleton]
    cases p o <;> rfl
  subst hctx
  refine ⟨h.samePlan, h.sameGrpc, fun hretry => (hallowed hretry).2.unanswered, ?_, ?_, ?_, fun o' ho' => ?_,
    fun o' ho' => ?_⟩
  · rw [hcount, h.retries]
  · have hbound := h.bound
    cases hretry : o.retry with
    | false => simpa using hbound
    | true => exact (hallowed hretry).1
  · rw [hcount, h.fallbacks]
    cases hfallback : o.fallback with
    | false => simp
    | true => simp [(hpreferred hfallback).1]
  · rcases List.mem_append.mp ho' with ho' | ho'
    · exact h.allowed o' ho'
    · obtain rfl := List.mem_singleton.mp ho'
      exact fun hretry => (hallowed hretry).2
  · rcases List.mem_append.mp ho' with ho' | ho'
    · exact h.preferred o' ho'
    · obtain rfl := List.mem_singleton.mp ho'
      exact fun hfallback => (hpreferred hfallback).2

lemma LoopInv.attempt {request : RequestHeader} {directHttp3 : Bool} {planIndex : ℕ} {grpc : Option GrpcKind}
    {loop loop' : RetryLoop} {a : Attempt} (h : g.LoopInv request planIndex grpc loop)
    (hstep : g.attempt request directHttp3 loop a = some loop') : g.LoopInv request planIndex grpc loop' := by
  obtain ⟨hgoes, result, rfl, hdecides, hended⟩ := attempt_eq_some hstep
  rcases hdecides with ⟨hmark, hctx⟩ | ⟨hmark, hgrants⟩
  · have hretry : (outcomeOf loop a result).retry = false := by simp [outcomeOf, hmark]
    have hfallback : (outcomeOf loop a result).fallback = false := by simp [outcomeOf, hctx]
    apply h.append
    · simp [hctx, hretry, hfallback]
    · simp [hretry]
    · simp [hfallback]
  · have hretry : (outcomeOf loop a result).retry = true := by simp [outcomeOf, hmark]
    have hallowed := retryAllowed_of_grants (h.unanswered hgoes) hgrants (hended hmark)
    rw [h.sameGrpc] at hallowed
    rcases hgrants.change with hctx | ⟨hflag, hctx, plan, hplan, hallows⟩
    · have hfallback : (outcomeOf loop a result).fallback = false := by simp [outcomeOf, hctx]
      apply h.append
      · simp [hctx, hretry, hfallback]
      · exact fun _ => ⟨hgrants.below, hallowed⟩
      · simp [hfallback]
    · -- the flag was not set, so this is the first fallback
      have hfallback : (outcomeOf loop a result).fallback = true := by simp [outcomeOf, hctx, hflag]
      apply h.append
      · simp [hctx, hretry, hfallback]
      · exact fun _ => ⟨hgrants.below, hallowed⟩
      · rw [h.samePlan] at hplan
        exact fun _ => ⟨hflag, hretry, plan, hplan, preferredPlan_of_allowsTcpFallback hallows⟩

variable (g) in
/-- In every run of attempts at most `max_retries` retries are granted, all of them to requests that can be
repeated. At most one is a fallback, for a plan that prefers HTTP/3, and then the peer for TCP is selected.
The two functions that select a peer agree. -/
theorem retries_bounded_and_safe (request : RequestHeader) (directHttp3 http3 : Bool) (planIndex : ℕ)
    (grpc : Option GrpcKind) :
    (∀ attempts loop,
      Runs.exec (g.attempt request directHttp3) (.start planIndex http3 grpc) attempts = some loop →
        loop.history.countP AttemptOutcome.retry ≤ g.runtime.config.server.maxRetries ∧
        (∀ o ∈ loop.history, o.retry = true → RetryAllowed request grpc o) ∧
        loop.history.countP AttemptOutcome.fallback ≤ 1 ∧
        ∀ o ∈ loop.history, o.fallback = true →
          ∃ plan, g.routing.plans[planIndex]? = some plan ∧ g.PreferredPlan plan ∧ plan.peer.isCustom = false ∧
            ∀ available, g.upstreamPeer available loop.ctx = .ok plan.peer ∧
              g.precomputedUpstreamPeer available loop.ctx = some plan.peer) ∧
    ∀ available ctx, (g.upstreamPeer available ctx).toOption = g.precomputedUpstreamPeer available ctx := by
  refine ⟨fun attempts loop hexec => ?_, g.toOption_upstreamPeer⟩
  have hinv : g.LoopInv request planIndex grpc loop :=
    (Runs.run_of_exec hexec).invariant (fun _ loop => g.LoopInv request planIndex grpc loop)
      (fun _ _ _ _ hstep h => h.attempt hstep) (loopInv_start request planIndex http3 grpc)
  refine ⟨hinv.retries ▸ hinv.bound, hinv.allowed, ?_, fun o ho hfallback => ?_⟩
  · rw [hinv.fallbacks]
    exact Bool.toNat_le _
  · obtain ⟨-, plan, hplan, hpreferred⟩ := hinv.preferred o ho hfallback
    have hflag : loop.ctx.upstreamH3TcpFallback = true := by
      have hpos := List.countP_pos_iff.mpr ⟨o, ho, hfallback⟩
      rw [hinv.fallbacks] at hpos
      cases hset : loop.ctx.upstreamH3TcpFallback with
      | true => rfl
      | false => simp [hset] at hpos
    have hselected : ∀ available, g.precomputedUpstreamPeer available loop.ctx = some plan.peer :=
      precomputedUpstreamPeer_of_fallback (hinv.samePlan ▸ hplan) hflag
    refine ⟨plan, hplan, hpreferred, (isCustom_of_mem_plans g.toGateway (List.mem_of_getElem? hplan)).1,
      fun available => ⟨?_, hselected available⟩⟩
    have hagree := g.toOption_upstreamPeer available loop.ctx
    rw [hselected available] at hagree
    cases hpeer : g.upstreamPeer available loop.ctx with
    | error e =>
      rw [hpeer] at hagree
      cases hagree
    | ok peer =>
      rw [hpeer] at hagree
      exact congrArg Except.ok (Option.some.inj hagree)

end H3Gateway

/-- A failure to connect. -/
def refusedAttempt : Attempt where
  available := true
  error := ⟨.connectRefused, false, none, [], .reusedOnly⟩
  ending := .failToConnect
  bodyEmpty := true
  retryBufferTruncated := false

def retriedRequest : RequestHeader where
  method := ascii "GET"
  uri := ⟨false, none, ascii "/"⟩
  version := .http11
  headers := [(ascii "content-length", ascii "0")]

/-- Three failures in a row: the fallback, a retry over TCP, and the end. -/
theorem H3Gateway.retries_bounded_and_safe_navidrome :
    ∃ loop,
      Runs.exec ((preferredGateway true).attempt retriedRequest false) (.start 0 false none)
        [refusedAttempt, refusedAttempt, refusedAttempt] = some loop ∧
      loop.history.map (fun o => (o.retry, o.fallback)) = [(true, true), (true, false), (false, false)] ∧
      loop.history.countP AttemptOutcome.retry ≤ 2 ∧
      ∃ plan : PreparedPlan, (preferredGateway true).PreferredPlan plan ∧
        (preferredGateway true).upstreamPeer true loop.ctx = .ok plan.peer := by
  have hrun : ((Runs.exec ((preferredGateway true).attempt retriedRequest false) (.start 0 false none)
      [refusedAttempt, refusedAttempt, refusedAttempt]).map fun loop =>
        loop.history.map fun o => (o.retry, o.fallback)) = some [(true, true), (true, false), (false, false)] := by
    decide +kernel
  obtain ⟨loop, hloop, hhistory⟩ := Option.map_eq_some_iff.mp hrun
  obtain ⟨hretries, -, -, hfallback⟩ :=
    ((preferredGateway true).retries_bounded_and_safe retriedRequest false false 0 none).1 _ loop hloop
  obtain ⟨o, rest, hcons, ho, -⟩ := List.map_eq_cons_iff.mp hhistory
  obtain ⟨plan, -, hpreferred, -, hpeer⟩ :=
    hfallback o (hcons ▸ List.mem_cons_self) (congrArg Prod.snd ho)
  exact ⟨loop, hloop, hhistory, hretries, plan, hpreferred, (hpeer true).1⟩

end Pingola
