import Pingola.Gateway.Plans

/-!
# The request filter

`Gateway::request_filter` up to the cache: which requests are answered at once, and which go on
to a plan. The answers of the limiters and of the content negotiation, and the client address,
are given; timeouts and the headers of the answers other than those passed to `send_empty` are
left out.
-/

namespace Pingola
open ByteText

/-- The downstream session as the filter sees it. -/
structure Session where
  request : RequestHeader
  http1 : Bool
  isTls : Bool
  directHttp3 : Bool
  unixSocket : Bool
  clientIp : Option IpAddr

def Session.tls (session : Session) : Bool :=
  if session.http1 && !session.isTls then false else session.isTls || session.directHttp3

/-- What the limiters and the content negotiation answer. -/
structure Admission where
  acceptable : Bool
  rateAllowed : Bool
  globalAdmitted : Bool
  activeAdmitted : Bool

def requestAuthority (request : RequestHeader) : Option Bytes :=
  match MultiMap.getAll request.headers (ascii "host") with
  | _ :: _ :: _ => none
  | hosts => (hosts.head?.bind headerValueToStr).or request.uri.authority

def requestTargetHasForbiddenBytes (request : RequestHeader) : Bool :=
  (request.uri.pathAndQueryText.getD (ascii "/")).any fun b =>
    b == 0 || b == byte '\n' || b == byte '\r' || b == byte ' '

/-- The loop over the tokens of the `Content-Length` values; `none` is the error. -/
def contentLengthTokens : Option ℕ → List Bytes → Option (Option ℕ)
  | expected, [] => some expected
  | expected, token :: tokens =>
    let token := trimAscii token
    if token.isEmpty || !token.all isAsciiDigit then none
    else
      match parseUnsigned (2 ^ 64) token with
      | none => none
      | some length =>
        if expected.any fun previous => previous != length then none
        else contentLengthTokens (some length) tokens

def validatedContentLength (headers : HeaderMap) : Option (Option ℕ) := do
  let values ← (MultiMap.getAll headers (ascii "content-length")).mapM headerValueToStr
  contentLengthTokens none (values.flatMap fun value => value.splitOn (byte ','))

def validatedRequestContentLength (request : RequestHeader) : Option (Option ℕ) := do
  let length ← validatedContentLength request.headers
  if !(MultiMap.getAll request.headers (ascii "transfer-encoding")).isEmpty &&
      (length.isSome || !(request.version == .http10 || request.version == .http11)) then none
  else some length

inductive GrpcKind where
  | native
  | web
  deriving DecidableEq

def classifyContentType (value : Bytes) : Option GrpcKind :=
  let value := trimAsciiStart value
  let grpc := ascii "application/grpc"
  if value.length < grpc.length || !eqIgnoreAsciiCase (value.take grpc.length) grpc then none
  else
    let rest := value.drop grpc.length
    if rest.head?.all fun b => b == byte '+' || b == byte ';' || isAsciiWhitespace b then some .native
    else if 4 ≤ rest.length && eqIgnoreAsciiCase (rest.take 4) (ascii "-web") then some .web
    else none

def classifyRequest (request : RequestHeader) : Option GrpcKind :=
  (HeaderMap.get request.headers (ascii "content-type")).bind classifyContentType

def usesDownstreamCompression : RouteClass → Bool
  | .vaultwarden | .couchdb | .adguardUi => true
  | _ => false

/-- `forwards_accept_encoding`: Navidrome's own encodings reach the client. -/
def forwardsAcceptEncoding : RouteClass → Bool
  | .navidromeApi | .navidromeCover => true
  | _ => false

/-- The `Accept-Encoding` that `upstream_request_filter` sends. -/
def upstreamAcceptEncoding (route : RouteClass) (request : RequestHeader) : Option Bytes :=
  if forwardsAcceptEncoding route && (classifyRequest request).isNone then
    HeaderMap.get request.headers (ascii "accept-encoding")
  else none

inductive FilterOutcome where
  | respond (status : ℕ) (handler : Option HandlerKind) (headers : List (Bytes × Bytes))
  | healthDetails
  | serveStatic (host : Bytes)
  | proceed (plan : PreparedPlan)
  | panicked

def retryAfter : List (Bytes × Bytes) := [(ascii "retry-after", ascii "1")]

def proxyProduct : List (Bytes × Bytes) := [(ascii "x-proxy-product", ascii "Pingora")]

/-- The answers to health paths. -/
def healthAnswer (server : ServerConfig) (session : Session) : Option FilterOutcome :=
  let path := session.request.uri.path
  if [ascii "/pingora-health", ascii "/pingora-live", ascii "/pingora-ready"].contains path then
    some (.respond 204 none proxyProduct)
  else if path == ascii "/pingola-health" then
    if server.legacyPingolaHealth then
      some (.respond 204 none (proxyProduct ++ [(ascii "deprecation", ascii "true")]))
    else some (.respond 404 none proxyProduct)
  else if path == ascii "/nginx-health" then some (.respond 404 none proxyProduct)
  else if path == ascii "/pingora-health/details" then
    if !server.healthDetails || !session.unixSocket then some (.respond 404 none proxyProduct)
    else some .healthDetails
  else none

/-- The plan of a request: gRPC to Navidrome has a plan of its own. -/
def planIndexFor (host : PreparedHost) (request : RequestHeader) : Option ℕ :=
  if (classifyRequest request).isSome && isNavidrome host.handler then
    (host.planOf .navidromeGrpc).or (host.plan request.uri.path)
  else host.plan request.uri.path

/-- `acquire_global_request`; a limit of zero admits everything. -/
def acquireGlobalRequest (server : ServerConfig) (admission : Admission) : Bool :=
  server.globalActiveRequests == 0 || admission.globalAdmitted

/-- The part of the filter that has a plan. -/
def admitToPlan (server : ServerConfig) (admission : Admission) (session : Session)
    (declaredContentLength : Option ℕ) (plan : PreparedPlan) : FilterOutcome :=
  if usesDownstreamCompression plan.route && (classifyRequest session.request).isNone &&
      !admission.acceptable then .respond 406 (some plan.handler) []
  else if declaredContentLength.any fun length => plan.maxBodyBytes < length then
    .respond 413 (some plan.handler) []
  else if plan.rateLimit.isSome && !admission.rateAllowed then
    .respond 429 (some plan.handler) retryAfter
  else if !acquireGlobalRequest server admission then .respond 429 (some plan.handler) retryAfter
  else if 0 < plan.activeRequestLimit && !admission.activeAdmitted then
    .respond 429 (some plan.handler) retryAfter
  else .proceed plan

/-- The part of the filter that has a host. -/
def filterForHost (server : ServerConfig) (routing : PreparedRouting) (admission : Admission)
    (session : Session) (declaredContentLength : Option ℕ) (host : PreparedHost) : FilterOutcome :=
  let request := session.request
  if !session.tls && host.redirectHttp then
    .respond 308 (some host.handler) [(ascii "location", ascii "https://" ++ host.domain ++
      request.uri.pathAndQueryText.getD (ascii "/"))]
  else if session.clientIp.isNone then .respond 400 none []
  else if host.handler == .static then
    if !acquireGlobalRequest server admission then .respond 429 (some host.handler) retryAfter
    else if !admission.activeAdmitted then .respond 429 (some host.handler) retryAfter
    else .serveStatic host.name
  else if host.handler == .navidromeMain && request.uri.path == ascii "/" then
    .respond 308 (some host.handler) [(ascii "location", ascii "https://" ++ host.domain ++
      ascii "/app/")]
  else
    match planIndexFor host request with
    | none => .respond 500 (some host.handler) []
    | some planIndex =>
      match routing.plans[planIndex]? with
      | none => .panicked
      | some plan => admitToPlan server admission session declaredContentLength plan

def filterRequest (server : ServerConfig) (routing : PreparedRouting) (admission : Admission)
    (session : Session) : FilterOutcome :=
  let request := session.request
  if requestTargetHasForbiddenBytes request then .respond 400 none []
  else
    match validatedRequestContentLength request with
    | none => .respond 400 none []
    | some declaredContentLength =>
      match healthAnswer server session with
      | some outcome => outcome
      | none =>
        match requestAuthority request with
        | none => .respond 400 none []
        | some authority =>
          match routing.host authority with
          | none => .respond 421 none []
          | some host =>
            filterForHost server routing admission session declaredContentLength host

lemma admitToPlan_proceed {server : ServerConfig} {admission : Admission} {session : Session}
    {length : Option ℕ} {plan plan' : PreparedPlan}
    (h : admitToPlan server admission session length plan' = .proceed plan) : plan' = plan := by
  unfold admitToPlan at h
  split_ifs at h
  exact FilterOutcome.proceed.inj h

lemma filterForHost_proceed {server : ServerConfig} {routing : PreparedRouting} {admission : Admission}
    {session : Session} {length : Option ℕ} {host : PreparedHost} {plan : PreparedPlan}
    (h : filterForHost server routing admission session length host = .proceed plan) :
    plan ∈ routing.plans := by
  unfold filterForHost at h
  dsimp only at h
  split_ifs at h
  split at h
  · simp at h
  · split at h
    · simp at h
    · rename_i plan' hplan
      exact admitToPlan_proceed h ▸ List.mem_of_getElem? hplan

lemma healthAnswer_ne_proceed {server : ServerConfig} {session : Session} {plan : PreparedPlan} :
    healthAnswer server session ≠ some (.proceed plan) := by
  unfold healthAnswer
  dsimp only
  split_ifs <;> simp

/-- A request that is not answered at once goes on to a plan of the gateway. -/
lemma filterRequest_proceed {server : ServerConfig} {routing : PreparedRouting} {admission : Admission}
    {session : Session} {plan : PreparedPlan}
    (h : filterRequest server routing admission session = .proceed plan) : plan ∈ routing.plans := by
  unfold filterRequest at h
  dsimp only at h
  split_ifs at h
  split at h
  · simp at h
  · split at h
    · rename_i hhealth
      exact absurd (h ▸ hhealth) healthAnswer_ne_proceed
    · split at h
      · simp at h
      · split at h
        · simp at h
        · exact filterForHost_proceed h

end Pingola
