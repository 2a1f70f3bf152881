import Pingola.Gateway.GrpcWeb
import Pingola.Gateway.Exchange
import Pingola.Lib.Memo

/-!
# Requests to upstreams

`upstream_request_filter` of `gateway.rs` with the values that `prepare_upstream_forwarded_headers` gives it. Two
of these values are kept for the next request of the thread.
-/

namespace Pingola
open ByteText

/-- The texts of addresses, and the header values that the `http` crate accepts. -/
structure ForwardEnv where
  http : HttpCrate
  showIp : IpAddr → Bytes

/-- `CLIENT_IP_HEADER_CACHE` and `FORWARDED_PORT_HEADER_CACHE` of a thread. -/
structure ForwardedCaches where
  clientIp : Option (IpAddr × Bytes)
  port : Option (ℕ × Bytes)

/-- A text is formatted into an `ArrayString` of limited size and becomes a header value. -/
def formatHeader (C : HttpCrate) (size status : ℕ) (what text : Bytes) : Except HeaderError Bytes :=
  if size < text.length then .error (.status status (what ++ ascii " could not be formatted as a header"))
  else
    match C.headerValueFromStr text with
    | some value => .ok value
    | none => .error (.status status (what ++ ascii " could not be encoded as a header"))

section

variable (env : ForwardEnv)

def clientIpHeader (ip : IpAddr) : Except HeaderError Bytes :=
  formatHeader env.http 64 400 (ascii "resolved client IP") (env.showIp ip)

def portHeader (port : ℕ) : Except HeaderError Bytes :=
  formatHeader env.http 5 500 (ascii "listener port") (natText port)

def forwardedClientIpValue (caches : ForwardedCaches) (ip : IpAddr) : Except HeaderError Bytes × ForwardedCaches :=
  let found := Memo.call (clientIpHeader env) caches.clientIp ip
  (found.1, { caches with clientIp := found.2 })

def forwardedPortValue (caches : ForwardedCaches) (port : Option ℕ) (tls : Bool) :
    Except HeaderError Bytes × ForwardedCaches :=
  match port with
  | some port =>
    if port = 80 then (.ok (ascii "80"), caches)
    else if port = 443 then (.ok (ascii "443"), caches)
    else
      let found := Memo.call (portHeader env) caches.port port
      (found.1, { caches with port := found.2 })
  | none => (.ok (if tls then ascii "443" else ascii "80"), caches)

/-- `ctx.upstream_forwarded_for` and `ctx.upstream_forwarded_port`. -/
structure ForwardedValues where
  clientIp : Bytes
  port : Bytes

def prepareUpstreamForwardedHeaders (caches : ForwardedCaches) (clientIp : IpAddr) (listenerPort : Option ℕ)
    (tls : Bool) : Except HeaderError ForwardedValues × ForwardedCaches :=
  match forwardedClientIpValue env caches clientIp with
  | (.error e, caches) => (.error e, caches)
  | (.ok clientIp, caches) =>
    match forwardedPortValue env caches listenerPort tls with
    | (.error e, caches) => (.error e, caches)
    | (.ok port, caches) => (.ok ⟨clientIp, port⟩, caches)

end

/-! ### The filter -/

def Session.isUpgradeReq (session : Session) : Bool :=
  session.http1 && session.request.version == .http11 && (HeaderMap.get session.request.headers upgradeName).isSome

/-- The fields that tell the origin where a request comes from. -/
def insertForwarded (request : RequestHeader) (plan : PreparedPlan) (values : ForwardedValues) (tls : Bool) :
    RequestHeader :=
  let request := request.removeHeader (ascii "forwarded")
  let request := request.insertTypedHeader (ascii "host") plan.upstreamHost
  let request := request.insertTypedHeader (ascii "x-real-ip") values.clientIp
  let request := request.insertTypedHeader (ascii "x-forwarded-for") values.clientIp
  let request := request.insertTypedHeader (ascii "x-forwarded-host") plan.upstreamHost
  let request := request.insertTypedHeader (ascii "x-forwarded-port") values.port
  let request := request.insertTypedHeader (ascii "x-forwarded-proto") (if tls then ascii "https" else ascii "http")
  request.insertTypedHeader (ascii "x-forwarded-ssl") (if tls then ascii "on" else ascii "off")

def insertAcceptEncoding (request : RequestHeader) (route : RouteClass) (downstream : RequestHeader)
    (grpc : Option GrpcKind) : RequestHeader :=
  if forwardsAcceptEncoding route ∧ grpc = none then
    match HeaderMap.get downstream.headers (ascii "accept-encoding") with
    | some value => request.insertTypedHeader (ascii "accept-encoding") value
    | none => request.removeHeader (ascii "accept-encoding")
  else request.removeHeader (ascii "accept-encoding")

def insertUpgrade (request : RequestHeader) (route : RouteClass) (session : Session) :
    Except HeaderError RequestHeader :=
  if route ≠ .doh ∧ request.version = .http11 ∧ session.isUpgradeReq = true then
    match HeaderMap.get session.request.headers upgradeName with
    | none => .error (.status 400 (ascii "upgrade request is missing its Upgrade header"))
    | some upgrade =>
      .ok ((request.insertTypedHeader upgradeName upgrade).insertTypedHeader connectionName (ascii "upgrade"))
  else .ok request

/-- `ctx.grpc`, `ctx.grpc_web` and the forwarded values of the context. -/
structure UpstreamContext where
  grpc : Option GrpcKind
  grpcWeb : GrpcWebCtx
  forwardedFor : Option Bytes
  forwardedPort : Option Bytes

def upstreamRequestFilter (C : HttpCrate) (session : Session) (plan : PreparedPlan) (ctx : UpstreamContext)
    (upstream : UpstreamRequest) : Except HeaderError (GrpcWebCtx × UpstreamRequest) := do
  let stripped ← stripRequestHopHeaders C session.request upstream.request
  let (grpcWeb, upstream) := prepareUpstreamRequest ⟨stripped, upstream.sendEndStream⟩ ctx.grpcWeb ctx.grpc
  let clientIp ← match ctx.forwardedFor with
    | some clientIp => .ok clientIp
    | none => .error (.status 500 (ascii "upstream forwarded client IP is missing"))
  let port ← match ctx.forwardedPort with
    | some port => .ok port
    | none => .error (.status 500 (ascii "upstream forwarded port is missing"))
  let request := insertForwarded upstream.request plan ⟨clientIp, port⟩ session.tls
  let request := insertAcceptEncoding request plan.route session.request ctx.grpc
  let request ← insertUpgrade request plan.route session
  .ok (grpcWeb, ⟨request, upstream.sendEndStream⟩)

/-! ### The kept values -/

/-- A request that is prepared on a thread; ports are 16 bits wide. -/
structure ForwardCall where
  clientIp : IpAddr
  listenerPort : Option (Fin 65536)
  tls : Bool

/-- The port that the client has used. -/
def ForwardCall.port (call : ForwardCall) : ℕ := (call.listenerPort.map Fin.val).getD (if call.tls then 443 else 80)

/-- Addresses have short texts, and these and numbers are header values. -/
structure ForwardEnv.Prints (env : ForwardEnv) : Prop where
  ipLength : ∀ ip, (env.showIp ip).length ≤ 64
  ipValid : ∀ ip, env.http.validHeaderValueStr (env.showIp ip) = true
  natValid : ∀ n, env.http.validHeaderValueStr (natText n) = true

section

variable (env : ForwardEnv)

def prepareCall (caches : ForwardedCaches) (call : ForwardCall) :
    Except HeaderError ForwardedValues × ForwardedCaches :=
  prepareUpstreamForwardedHeaders env caches call.clientIp (call.listenerPort.map Fin.val) call.tls

/-- The caches of a thread after some requests. -/
def cachesAfter (calls : List ForwardCall) : ForwardedCaches :=
  calls.foldl (fun caches call => (prepareCall env caches call).2) ⟨none, none⟩

structure ForwardedCaches.Sound (caches : ForwardedCaches) : Prop where
  clientIp : Memo.Sound (clientIpHeader env) caches.clientIp
  port : Memo.Sound (portHeader env) caches.port

end

section

variable {env : ForwardEnv} {caches : ForwardedCaches}

lemma formatHeader_eq_ok {C : HttpCrate} {size status : ℕ} {what text : Bytes} (hsize : text.length ≤ size)
    (hvalid : C.validHeaderValueStr text = true) : formatHeader C size status what text = .ok text := by
  rw [formatHeader, if_neg (Nat.not_lt.mpr hsize), HttpCrate.headerValueFromStr, if_pos hvalid]

lemma ForwardEnv.Prints.clientIpHeader (h : env.Prints) (ip : IpAddr) :
    clientIpHeader env ip = .ok (env.showIp ip) :=
  formatHeader_eq_ok (h.ipLength ip) (h.ipValid ip)

lemma ForwardEnv.Prints.portHeader (h : env.Prints) {port : ℕ} (hport : port < 65536) :
    portHeader env port = .ok (natText port) :=
  formatHeader_eq_ok (length_natText_le (by decide) (by omega)) (h.natValid port)

lemma forwardedPortValue_spec (hprints : env.Prints) (h : caches.Sound env) (port : Option (Fin 65536)) (tls : Bool) :
    (forwardedPortValue env caches (port.map Fin.val) tls).1 =
        .ok (natText ((port.map Fin.val).getD (if tls then 443 else 80))) ∧
      (forwardedPortValue env caches (port.map Fin.val) tls).2.Sound env := by
  have htext80 : natText 80 = ascii "80" := by decide
  have htext443 : natText 443 = ascii "443" := by decide
  cases port with
  | none =>
    refine ⟨?_, h⟩
    cases tls
    · exact congrArg Except.ok htext80.symm
    · exact congrArg Except.ok htext443.symm
  | some port =>
    rw [Option.map_some, Option.getD_some]
    unfold forwardedPortValue
    dsimp only
    split_ifs with his80 his443
    · rw [his80, htext80]
      exact ⟨rfl, h⟩
    · rw [his443, htext443]
      exact ⟨rfl, h⟩
    · exact ⟨(h.port.call_fst _).trans (hprints.portHeader port.isLt), h.clientIp, h.port.call_snd _⟩

lemma prepareCall_spec (hprints : env.Prints) (h : caches.Sound env) (call : ForwardCall) :
    (prepareCall env caches call).1 = .ok ⟨env.showIp call.clientIp, natText call.port⟩ ∧
      (prepareCall env caches call).2.Sound env := by
  have hip : (forwardedClientIpValue env caches call.clientIp).1 = .ok (env.showIp call.clientIp) :=
    (h.clientIp.call_fst _).trans (hprints.clientIpHeader _)
  have hsound : (forwardedClientIpValue env caches call.clientIp).2.Sound env := ⟨h.clientIp.call_snd _, h.port⟩
  unfold prepareCall prepareUpstreamForwardedHeaders
  generalize forwardedClientIpValue env caches call.clientIp = first at hip hsound
  obtain ⟨value, caches⟩ := first
  obtain rfl : value = _ := hip
  obtain ⟨hport, hsound⟩ := forwardedPortValue_spec hprints hsound call.listenerPort call.tls
  dsimp only at hport hsound ⊢
  generalize forwardedPortValue env caches (call.listenerPort.map Fin.val) call.tls = second at hport hsound
  obtain ⟨value, caches⟩ := second
  obtain rfl : value = _ := hport
  exact ⟨rfl, hsound⟩

lemma sound_cachesAfter (hprints : env.Prints) (calls : List ForwardCall) : (cachesAfter env calls).Sound env := by
  induction calls using List.reverseRecOn with
  | nil => exact ⟨Memo.sound_none, Memo.sound_none⟩
  | append_singleton calls call ih =>
    rw [cachesAfter, List.foldl_append]
    exact (prepareCall_spec hprints ih call).2

end

/-! ### What an origin sees -/

/-- Two requests that differ in their fields only. -/
def SameLine (request sent : RequestHeader) : Prop := ∃ headers, sent = { request with headers := headers }

lemma SameLine.trans {request between sent : RequestHeader} (h : SameLine request between)
    (h' : SameLine between sent) : SameLine request sent := by
  obtain ⟨_, rfl⟩ := h
  obtain ⟨headers, rfl⟩ := h'
  exact ⟨headers, rfl⟩

lemma SameLine.version_eq {request sent : RequestHeader} (h : SameLine request sent) :
    sent.version = request.version := by
  obtain ⟨_, rfl⟩ := h
  rfl

/-- The fields that only the gateway sets. -/
def identityFields (plan : PreparedPlan) (values : ForwardedValues) (tls : Bool) : List (Bytes × Bytes) :=
  [(ascii "host", plan.upstreamHost), (ascii "x-real-ip", values.clientIp), (ascii "x-forwarded-for", values.clientIp),
    (ascii "x-forwarded-host", plan.upstreamHost), (ascii "x-forwarded-port", values.port),
    (ascii "x-forwarded-proto", if tls then ascii "https" else ascii "http"),
    (ascii "x-forwarded-ssl", if tls then ascii "on" else ascii "off")]

def identityNames : List Bytes :=
  ["host", "x-real-ip", "x-forwarded-for", "x-forwarded-host", "x-forwarded-port", "x-forwarded-proto",
    "x-forwarded-ssl"].map ascii

lemma getAll_insertForwarded (request : RequestHeader) (plan : PreparedPlan) (values : ForwardedValues) (tls : Bool) :
    (∀ field ∈ identityFields plan values tls,
      MultiMap.getAll (insertForwarded request plan values tls).headers field.1 = [field.2]) ∧
    MultiMap.getAll (insertForwarded request plan values tls).headers (ascii "forwarded") = [] ∧
    ∀ name ∉ ascii "forwarded" :: identityNames,
      MultiMap.getAll (insertForwarded request plan values tls).headers name =
        MultiMap.getAll request.headers name := by
  refine ⟨?_, ?_, fun name hname => ?_⟩
  · simp only [identityFields, List.forall_mem_cons, insertForwarded, RequestHeader.insertTypedHeader,
      MultiMap.getAll_insert]
    simp +decide
  · simp only [insertForwarded, RequestHeader.insertTypedHeader, RequestHeader.removeHeader, MultiMap.getAll_insert,
      MultiMap.getAll_remove]
    simp +decide
  · simp only [identityNames, List.map_cons, List.map_nil, List.mem_cons, List.not_mem_nil, not_or, or_false] at hname
    obtain ⟨hforwarded, hhost, hreal, hfor, hforHost, hport, hproto, hssl⟩ := hname
    simp only [insertForwarded, RequestHeader.insertTypedHeader, RequestHeader.removeHeader, MultiMap.getAll_insert,
      MultiMap.getAll_remove, hforwarded, hhost, hreal, hfor, hforHost, hport, hproto, hssl, if_false]

/-- Whether the filter forwards an upgrade. -/
def forwardsUpgrade (route : RouteClass) (session : Session) (upstream : RequestHeader) : Bool :=
  decide (route ≠ .doh ∧ upstream.version = .http11 ∧ session.isUpgradeReq = true)

def withUpgrade (request : RequestHeader) (route : RouteClass) (session : Session) : RequestHeader :=
  if forwardsUpgrade route session request = true then
    (request.insertTypedHeader upgradeName ((HeaderMap.get session.request.headers upgradeName).getD [])).insertTypedHeader
      connectionName (ascii "upgrade")
  else request

lemma getAll_insertAcceptEncoding (request : RequestHeader) (route : RouteClass) (downstream : RequestHeader)
    (grpc : Option GrpcKind) (name : Bytes) :
    MultiMap.getAll (insertAcceptEncoding request route downstream grpc).headers name =
      if name = ascii "accept-encoding" then
        (if forwardsAcceptEncoding route ∧ grpc = none then
          (HeaderMap.get downstream.headers (ascii "accept-encoding")).toList else [])
      else MultiMap.getAll request.headers name := by
  unfold insertAcceptEncoding
  split
  · split
    · next value hvalue =>
      rw [RequestHeader.insertTypedHeader, MultiMap.getAll_insert, hvalue]
      rfl
    · next hvalue =>
      rw [RequestHeader.removeHeader, MultiMap.getAll_remove, hvalue]
      rfl
  · rw [RequestHeader.removeHeader, MultiMap.getAll_remove]

lemma Session.get_upgrade {session : Session} (h : session.isUpgradeReq = true) :
    ∃ upgrade, HeaderMap.get session.request.headers upgradeName = some upgrade := by
  rw [Session.isUpgradeReq, Bool.and_eq_true] at h
  exact Option.isSome_iff_exists.mp h.2

lemma sameLine_insertAcceptEncoding (request : RequestHeader) (route : RouteClass) (downstream : RequestHeader)
    (grpc : Option GrpcKind) : SameLine request (insertAcceptEncoding request route downstream grpc) := by
  unfold insertAcceptEncoding
  split
  · split
    · exact ⟨_, rfl⟩
    · exact ⟨_, rfl⟩
  · exact ⟨_, rfl⟩

/-- The header that `session.is_upgrade_req()` has seen is there. -/
lemma insertUpgrade_eq (request : RequestHeader) (route : RouteClass) (session : Session) :
    insertUpgrade request route session = .ok (withUpgrade request route session) := by
  unfold insertUpgrade withUpgrade forwardsUpgrade
  by_cases h : route ≠ .doh ∧ request.version = .http11 ∧ session.isUpgradeReq = true
  · obtain ⟨upgrade, hget⟩ := session.get_upgrade h.2.2
    rw [if_pos h, if_pos (decide_eq_true h), hget]
    rfl
  · rw [if_neg h, if_neg (by simpa using h)]

lemma getAll_withUpgrade (request : RequestHeader) (route : RouteClass) (session : Session) (name : Bytes) :
    MultiMap.getAll (withUpgrade request route session).headers name =
      if forwardsUpgrade route session request = true ∧ name = connectionName then [ascii "upgrade"]
      else if forwardsUpgrade route session request = true ∧ name = upgradeName then
        (HeaderMap.get session.request.headers upgradeName).toList
      else MultiMap.getAll request.headers name := by
  unfold withUpgrade
  by_cases h : forwardsUpgrade route session request = true
  · obtain ⟨upgrade, hget⟩ := session.get_upgrade (of_decide_eq_true h).2.2
    simp only [h, true_and, if_true, RequestHeader.insertTypedHeader, MultiMap.getAll_insert, hget]
    rfl
  · rw [if_neg h, if_neg (fun hboth => h hboth.1), if_neg (fun hboth => h hboth.1)]

lemma sameLine_withUpgrade (request : RequestHeader) (route : RouteClass) (session : Session) :
    SameLine request (withUpgrade request route session) := by
  unfold withUpgrade
  split
  · exact ⟨_, rfl⟩
  · exact ⟨_, rfl⟩

lemma not_isGrpcWeb_of_getAll {headers : HeaderMap} (h : MultiMap.getAll headers contentTypeName = []) :
    ¬IsGrpcWeb headers := by
  have htext : contentTypeText headers = [] := by
    rw [contentTypeText, HeaderMap.get, h]
    rfl
  rintro ⟨hlength, -⟩
  rw [htext] at hlength
  exact absurd hlength (by decide)

/-- The bridge changes the type of a gRPC-web request and asks for trailers. -/
lemma getAll_prepareUpstreamRequest (out : UpstreamRequest) (grpcWeb : GrpcWebCtx) (grpc : Option GrpcKind) :
    (∀ name, name ≠ teName → (name = contentTypeName → ¬(grpc = some .web ∧ IsGrpcWeb out.request.headers)) →
      MultiMap.getAll (prepareUpstreamRequest out grpcWeb grpc).2.request.headers name =
        MultiMap.getAll out.request.headers name) ∧
    (MultiMap.getAll (prepareUpstreamRequest out grpcWeb grpc).2.request.headers teName = [ascii "trailers"] ∨
      MultiMap.getAll (prepareUpstreamRequest out grpcWeb grpc).2.request.headers teName =
        MultiMap.getAll out.request.headers teName) ∧
    SameLine out.request (prepareUpstreamRequest out grpcWeb grpc).2.request := by
  rcases grpc with - | ⟨- | -⟩
  · exact ⟨fun _ _ _ => rfl, .inr rfl, _, rfl⟩
  · exact ⟨fun name hte _ => MultiMap.getAll_insert_of_ne hte _ _, .inl (MultiMap.getAll_insert_self _ _ _), _, rfl⟩
  · rw [prepareUpstreamRequest]
    by_cases hweb : IsGrpcWeb out.request.headers
    · rw [requestHeaderFilter_of_web hweb]
      refine ⟨fun name hte htype => ?_, .inl (MultiMap.getAll_insert_self _ _ _), _, rfl⟩
      have hne : name ≠ contentTypeName := fun h => htype h ⟨rfl, hweb⟩
      rw [grpcRequest, RequestHeader.insertTypedHeader, MultiMap.getAll_insert_of_ne hte,
        RequestHeader.insertTypedHeader, MultiMap.getAll_insert_of_ne hne]
    · rw [requestHeaderFilter_of_not_web hweb]
      exact ⟨fun _ _ _ => rfl, .inr rfl, _, rfl⟩

lemma sameLine_stripRequestHopHeaders {C : HttpCrate} {downstream upstream result : RequestHeader}
    (h : stripRequestHopHeaders C downstream upstream = .ok result) :
    SameLine upstream result := by
  rw [stripRequestHopHeaders_eq] at h
  obtain ⟨request, hrequest, h⟩ := except_bind_eq_ok.mp h
  obtain ⟨-, -, rfl⟩ := removeNominated_eq_ok_iff.mp hrequest
  rw [foldl_removeHeader] at h
  cases hresult : normalizeContentLength C (strippedHeaders C downstream.headers upstream.headers) 400 with
  | error e =>
    rw [hresult] at h
    cases h
  | ok headers =>
    rw [hresult] at h
    exact ⟨headers, (Except.ok.inj h).symm⟩

/-- The names whose fields the filter sets or removes. -/
def filteredNames : List Bytes :=
  upgradeName :: connectionName :: ascii "accept-encoding" :: ascii "forwarded" :: identityNames

/-- The names whose fields the gateway has rules of its own for. Of these the client's `Accept-Encoding`, `Upgrade` and
`TE: trailers` can reach the origin, where the clauses of `OriginView` for them say so; of the others nothing that
the client has sent does. -/
def gatewayNames : List Bytes := teName :: filteredNames

/-- What an origin sees of a request, whatever its client has sent. -/
structure OriginView (session : Session) (plan : PreparedPlan) (grpc : Option GrpcKind) (values : ForwardedValues)
    (upstream sent : RequestHeader) : Prop where
  identity : ∀ field ∈ identityFields plan values session.tls, MultiMap.getAll sent.headers field.1 = [field.2]
  forwarded : MultiMap.getAll sent.headers (ascii "forwarded") = []
  acceptEncoding : MultiMap.getAll sent.headers (ascii "accept-encoding") =
    if forwardsAcceptEncoding plan.route ∧ grpc = none then
      (HeaderMap.get session.request.headers (ascii "accept-encoding")).toList else []
  upgrade : MultiMap.getAll sent.headers upgradeName =
    if forwardsUpgrade plan.route session upstream = true then
      (HeaderMap.get session.request.headers upgradeName).toList else []
  connection : MultiMap.getAll sent.headers connectionName =
    if forwardsUpgrade plan.route session upstream = true then [ascii "upgrade"] else []
  te : MultiMap.getAll sent.headers teName ∈ [[], [ascii "trailers"]]
  /-- The end of the body can be read in one way only. -/
  framing : (MultiMap.getAll sent.headers contentLengthName).length ≤ 1 ∧
    (MultiMap.getAll sent.headers contentLengthName = [] ∨ MultiMap.getAll sent.headers transferEncodingName = [])
  /-- The fields that the client has kept for its connection are not forwarded. -/
  removed : ∀ name ∉ gatewayNames,
    isFixedRequestHopHeader name = true ∨ Nominated session.request.headers name →
      MultiMap.getAll sent.headers name = []
  /-- All others are; the bridge may change the type of a gRPC-web request. -/
  others : ∀ name ∉ gatewayNames, isFixedRequestHopHeader name = false → ¬Nominated session.request.headers name →
    name ≠ contentLengthName → (name = contentTypeName → grpc ≠ some .web) →
      MultiMap.getAll sent.headers name = MultiMap.getAll upstream.headers name
  line : SameLine upstream sent

/-- The request that the filter makes of a stripped one. -/
def forwardStripped (session : Session) (plan : PreparedPlan) (grpc : Option GrpcKind) (grpcWeb : GrpcWebCtx)
    (values : ForwardedValues) (stripped : UpstreamRequest) : RequestHeader :=
  withUpgrade (insertAcceptEncoding (insertForwarded (prepareUpstreamRequest stripped grpcWeb grpc).2.request plan
    values session.tls) plan.route session.request grpc) plan.route session

/-- With both values at hand only stripping can fail. -/
lemma upstreamRequestFilter_eq (C : HttpCrate) (session : Session) (plan : PreparedPlan) (grpc : Option GrpcKind)
    (grpcWeb : GrpcWebCtx) (values : ForwardedValues) (upstream : UpstreamRequest) :
    upstreamRequestFilter C session plan ⟨grpc, grpcWeb, some values.clientIp, some values.port⟩ upstream =
      (stripRequestHopHeaders C session.request upstream.request).map fun stripped =>
        let prepared := prepareUpstreamRequest ⟨stripped, upstream.sendEndStream⟩ grpcWeb grpc
        (prepared.1, ⟨forwardStripped session plan grpc grpcWeb values ⟨stripped, upstream.sendEndStream⟩,
          prepared.2.sendEndStream⟩) := by
  unfold upstreamRequestFilter
  cases hstripped : stripRequestHopHeaders C session.request upstream.request with
  | error e => rfl
  | ok stripped =>
    simp only [insertUpgrade_eq]
    rfl

section

variable {session : Session} {plan : PreparedPlan} {grpc : Option GrpcKind} {grpcWeb : GrpcWebCtx}
variable {values : ForwardedValues} {stripped : UpstreamRequest}

lemma sameLine_insertForwarded (request : RequestHeader) :
    SameLine request (insertAcceptEncoding (insertForwarded request plan values session.tls) plan.route session.request
      grpc) :=
  have hforwarded : SameLine request (insertForwarded request plan values session.tls) := ⟨_, rfl⟩
  hforwarded.trans (sameLine_insertAcceptEncoding _ _ _ _)

lemma sameLine_forwardStripped :
    SameLine stripped.request (forwardStripped session plan grpc grpcWeb values stripped) :=
  (getAll_prepareUpstreamRequest stripped grpcWeb grpc).2.2.trans
    ((sameLine_insertForwarded _).trans (sameLine_withUpgrade _ _ _))

lemma getAll_forwardStripped (name : Bytes) :
    MultiMap.getAll (forwardStripped session plan grpc grpcWeb values stripped).headers name =
      if forwardsUpgrade plan.route session stripped.request = true ∧ name = connectionName then [ascii "upgrade"]
      else if forwardsUpgrade plan.route session stripped.request = true ∧ name = upgradeName then
        (HeaderMap.get session.request.headers upgradeName).toList
      else if name = ascii "accept-encoding" then
        (if forwardsAcceptEncoding plan.route ∧ grpc = none then
          (HeaderMap.get session.request.headers (ascii "accept-encoding")).toList else [])
      else MultiMap.getAll (insertForwarded (prepareUpstreamRequest stripped grpcWeb grpc).2.request plan values
        session.tls).headers name := by
  have hline : SameLine stripped.request (insertAcceptEncoding (insertForwarded
      (prepareUpstreamRequest stripped grpcWeb grpc).2.request plan values session.tls) plan.route session.request grpc) :=
    (getAll_prepareUpstreamRequest stripped grpcWeb grpc).2.2.trans (sameLine_insertForwarded _)
  rw [forwardStripped, getAll_withUpgrade, getAll_insertAcceptEncoding, forwardsUpgrade, hline.version_eq,
    forwardsUpgrade]

lemma getAll_forwardStripped_of_notMem {name : Bytes} (hname : name ∉ filteredNames) :
    MultiMap.getAll (forwardStripped session plan grpc grpcWeb values stripped).headers name =
      MultiMap.getAll (prepareUpstreamRequest stripped grpcWeb grpc).2.request.headers name := by
  obtain ⟨hupgrade, hname⟩ := not_or.mp (List.mem_cons.not.mp hname)
  obtain ⟨hconnection, hname⟩ := not_or.mp (List.mem_cons.not.mp hname)
  obtain ⟨hencoding, hname⟩ := not_or.mp (List.mem_cons.not.mp hname)
  rw [getAll_forwardStripped, if_neg (fun h => hconnection h.2), if_neg (fun h => hupgrade h.2), if_neg hencoding,
    (getAll_insertForwarded _ _ _ _).2.2 name hname]

lemma getAll_forwardStripped_hop {name : Bytes} {downstream upstream : HeaderMap}
    (h : RequestStripped downstream upstream stripped.request.headers) (hname : name = upgradeName ∨ name = connectionName) :
    MultiMap.getAll (insertForwarded (prepareUpstreamRequest stripped grpcWeb grpc).2.request plan values
      session.tls).headers name = [] := by
  have hnames : name ∉ ascii "forwarded" :: identityNames ∧ name ≠ teName ∧ name ≠ contentTypeName ∧
      isFixedRequestHopHeader name = true := by
    rcases hname with rfl | rfl
    · decide
    · decide
  obtain ⟨hidentity, hte, htype, hfixed⟩ := hnames
  rw [(getAll_insertForwarded _ _ _ _).2.2 name hidentity,
    (getAll_prepareUpstreamRequest stripped grpcWeb grpc).1 name hte (fun hname => absurd hname htype)]
  exact h.removed name (.inl hfixed) (fun hboth => hte hboth.1)

lemma originView {upstream : RequestHeader}
    (h : RequestStripped session.request.headers upstream.headers stripped.request.headers)
    (hline : SameLine upstream stripped.request) :
    OriginView session plan grpc values upstream (forwardStripped session plan grpc grpcWeb values stripped) := by
  obtain ⟨hprepared, hte, -⟩ := getAll_prepareUpstreamRequest stripped grpcWeb grpc
  have hforwards : forwardsUpgrade plan.route session stripped.request = forwardsUpgrade plan.route session upstream := by
    rw [forwardsUpgrade, hline.version_eq, forwardsUpgrade]
  have hkept : ∀ name ∉ gatewayNames,
      (name = contentTypeName → ¬(grpc = some .web ∧ IsGrpcWeb stripped.request.headers)) →
      MultiMap.getAll (forwardStripped session plan grpc grpcWeb values stripped).headers name =
        MultiMap.getAll stripped.request.headers name := by
    intro name hname htype
    obtain ⟨hne, hname⟩ := not_or.mp (List.mem_cons.not.mp hname)
    rw [getAll_forwardStripped_of_notMem hname, hprepared name hne htype]
  constructor
  case identity =>
    intro field hfield
    have hname : field.1 ∈ identityNames := List.mem_map_of_mem (f := Prod.fst) hfield
    have hothers : ∀ name ∈ identityNames,
        name ≠ connectionName ∧ name ≠ upgradeName ∧ name ≠ ascii "accept-encoding" := by
      decide
    obtain ⟨hconnection, hupgrade, hencoding⟩ := hothers _ hname
    rw [getAll_forwardStripped, if_neg (fun h => hconnection h.2), if_neg (fun h => hupgrade h.2), if_neg hencoding]
    exact (getAll_insertForwarded _ _ _ _).1 field hfield
  case forwarded =>
    rw [getAll_forwardStripped, if_neg (by simp +decide), if_neg (by simp +decide), if_neg (by decide)]
    exact (getAll_insertForwarded _ _ _ _).2.1
  case acceptEncoding =>
    rw [getAll_forwardStripped, if_neg (by simp +decide), if_neg (by simp +decide), if_pos rfl]
  case upgrade =>
    have hne : upgradeName ≠ connectionName ∧ upgradeName ≠ ascii "accept-encoding" := by decide
    rw [getAll_forwardStripped, hforwards, if_neg (fun h => hne.1 h.2), if_neg hne.2, getAll_forwardStripped_hop h (.inl rfl)]
    simp only [and_true]
  case connection =>
    have hne : connectionName ≠ upgradeName ∧ connectionName ≠ ascii "accept-encoding" := by decide
    rw [getAll_forwardStripped, hforwards, if_neg hne.2, getAll_forwardStripped_hop h (.inr rfl)]
    simp only [and_true, hne.1, and_false, if_false]
  case te =>
    rw [getAll_forwardStripped_of_notMem (by decide)]
    rcases hte with hte | hte
    · rw [hte]
      decide
    · rw [hte]
      by_cases htrailers : ListsTrailers upstream.headers
      · rw [h.trailers htrailers]
        decide
      · rw [h.removed teName (.inl (by decide)) (fun hboth => htrailers hboth.2)]
        decide
  case framing =>
    have hne : contentLengthName ≠ contentTypeName ∧ transferEncodingName ≠ contentTypeName := by decide
    rw [hkept contentLengthName (by decide) (fun htype => absurd htype hne.1),
      hkept transferEncodingName (by decide) (fun htype => absurd htype hne.2)]
    rcases h.framing with ⟨hnone, -⟩ | ⟨value, n, hvalue, -, hencoding, -⟩
    · simp [hnone]
    · simp [hvalue, hencoding]
  case removed =>
    intro name hname hremoved
    have hnone : MultiMap.getAll stripped.request.headers name = [] :=
      h.removed name hremoved (fun hboth => hname (hboth.1 ▸ List.mem_cons_self))
    rw [hkept name hname, hnone]
    rintro rfl ⟨-, hweb⟩
    exact not_isGrpcWeb_of_getAll hnone hweb
  case others =>
    intro name hname hfixed hnominated hlength htype
    rw [hkept name hname (fun htypeName hweb => htype htypeName hweb.1)]
    exact h.others name hfixed hnominated hlength
  case line => exact hline.trans sameLine_forwardStripped

end

/-- After any requests on the thread, the filter fails only where stripping fails, and the origin sees the address
and the port of this request's client and nothing that only the gateway or the connection may say. -/
theorem origin_sees_gateway_identity {env : ForwardEnv} (hprints : env.Prints) (calls : List ForwardCall)
    (ip : IpAddr) (port : Option (Fin 65536)) (session : Session) (plan : PreparedPlan) (grpc : Option GrpcKind)
    (grpcWeb : GrpcWebCtx) (upstream : UpstreamRequest) :
    let values : ForwardedValues := ⟨env.showIp ip, natText ((port.map Fin.val).getD (if session.tls then 443 else 80))⟩
    let ctx : UpstreamContext := ⟨grpc, grpcWeb, some values.clientIp, some values.port⟩
    (prepareCall env (cachesAfter env calls) ⟨ip, port, session.tls⟩).1 = .ok values ∧
    (∀ e, upstreamRequestFilter env.http session plan ctx upstream = .error e ↔
      stripRequestHopHeaders env.http session.request upstream.request = .error e) ∧
    ∀ sent, upstreamRequestFilter env.http session plan ctx upstream = .ok sent →
      OriginView session plan grpc values upstream.request sent.2.request := by
  intro values ctx
  refine ⟨(prepareCall_spec hprints (sound_cachesAfter hprints calls) _).1, ?_⟩
  rw [upstreamRequestFilter_eq]
  cases hstripped : stripRequestHopHeaders env.http session.request upstream.request with
  | error e =>
    refine ⟨fun e' => ?_, nofun⟩
    rw [Except.map, Except.error.injEq, Except.error.injEq]
  | ok stripped =>
    refine ⟨fun e' => ?_, fun sent hsent => ?_⟩
    · constructor
      · nofun
      · nofun
    · obtain ⟨-, hoptions, hnormalized⟩ := stripRequestHopHeaders_eq_ok hstripped
      rw [← Except.ok.inj hsent]
      exact originView (requestStripped hoptions hnormalized) (sameLine_stripRequestHopHeaders hstripped)

/-- Addresses shown as one number. -/
def numericEnv : ForwardEnv where
  http := HttpCrate.reference
  showIp
    | .v4 addr => natText addr.toNat
    | .v6 addr => natText addr.toNat

lemma numericEnv_prints : numericEnv.Prints := by
  have hvalid : ∀ n, HttpCrate.reference.validHeaderValueStr (natText n) = true := by
    intro n
    have hdigits := List.all_eq_true.mp (natText_decimalText n).digits
    refine List.all_eq_true.mpr fun b hb => ?_
    obtain ⟨hlow, hhigh⟩ : 48 ≤ b ∧ b ≤ 57 := of_decide_eq_true (hdigits b hb)
    rw [UInt8.le_iff_toNat_le] at hlow hhigh
    refine decide_eq_true (.inl ⟨UInt8.le_iff_toNat_le.mpr (hlow.trans' (by decide)), ?_⟩)
    rintro rfl
    exact absurd hhigh (by decide)
  refine ⟨fun ip => ?_, fun ip => ?_, hvalid⟩
  · cases ip with
    | v4 addr => exact length_natText_le (by decide) (addr.isLt.trans (by decide))
    | v6 addr => exact length_natText_le (by decide) (addr.isLt.trans (by decide))
  · cases ip with
    | v4 addr => exact hvalid addr.toNat
    | v6 addr => exact hvalid addr.toNat

def spoofedPlan : PreparedPlan where
  upstreamName := ascii "navidrome"
  upstreamHost := ascii "music.tae00217.cloud"
  handler := .navidromeMain
  peer := { address := ⟨.v4 0x7f000001, 4533⟩, tls := false, sni := [] }
  h3 := none
  route := .navidromeApi
  rateLimit := none
  activeRequestLimit := 8
  downstreamTimeout := 30
  maxBodyBytes := 0

/-- An upgrade whose client names another address and nominates the fields of the gateway. -/
def spoofedSession : Session where
  request := ⟨ascii "GET", ⟨false, none, ascii "/"⟩, .http11,
    [(ascii "host", ascii "music.tae00217.cloud"), (connectionName, ascii "upgrade, X-Forwarded-For, x-real-ip"),
      (upgradeName, ascii "websocket"), (ascii "x-forwarded-for", ascii "192.0.2.1"),
      (ascii "forwarded", ascii "for=192.0.2.1"), (ascii "accept-encoding", ascii "gzip")]⟩
  http1 := true
  isTls := true
  directHttp3 := false
  unixSocket := false
  clientIp := some (.v4 0x0a4d0002)

theorem spoofed_request_identity :
    numericEnv.Prints ∧ ∃ sent, upstreamRequestFilter HttpCrate.reference spoofedSession spoofedPlan
        ⟨none, .disabled, some (natText 0x0a4d0002), some (natText 443)⟩ ⟨spoofedSession.request, true⟩ = .ok sent ∧
      OriginView spoofedSession spoofedPlan none ⟨natText 0x0a4d0002, natText 443⟩ spoofedSession.request
        sent.2.request := by
  obtain ⟨-, -, hview⟩ := origin_sees_gateway_identity numericEnv_prints [⟨.v4 7, none, false⟩] (.v4 0x0a4d0002) none
    spoofedSession spoofedPlan none .disabled ⟨spoofedSession.request, true⟩
  have hok : (upstreamRequestFilter HttpCrate.reference spoofedSession spoofedPlan
      ⟨none, .disabled, some (natText 0x0a4d0002), some (natText 443)⟩ ⟨spoofedSession.request, true⟩).isOk = true := by
    decide +kernel
  cases hsent : upstreamRequestFilter HttpCrate.reference spoofedSession spoofedPlan
      ⟨none, .disabled, some (natText 0x0a4d0002), some (natText 443)⟩ ⟨spoofedSession.request, true⟩ with
  | error e =>
    rw [hsent] at hok
    cases hok
  | ok sent => exact ⟨numericEnv_prints, sent, rfl, hview sent hsent⟩

end Pingola
