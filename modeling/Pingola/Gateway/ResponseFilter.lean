import Pingola.Gateway.Compression
import Pingola.Gateway.Transparency
import Pingola.Gateway.UpstreamRequest

/-!
# The response filter

`response_filter` of `gateway.rs` with the gate of `handlers/adguard.rs`, followed by the compressor that
`handlers/compression.rs` has installed for the request.
-/

namespace Pingola
open ByteText

def responseStatusHasNoBody (status : ℕ) : Bool :=
  decide (100 ≤ status ∧ status < 200) || status == 204 || status == 205 || status == 304

def responseStatusIsInterim (status : ℕ) : Bool := decide (100 ≤ status ∧ status < 200) && status != 101

def compressibleTypes : List Bytes :=
  ["application/javascript", "application/json", "application/ld+json", "application/manifest+json",
    "application/xhtml+xml", "application/xml", "application/rss+xml", "image/svg+xml"].map ascii

def compressibleProxyContentType (value : Bytes) : Bool :=
  let essence := trim ((value.splitOn (byte ';')).headD [])
  if (classifyContentType essence).isSome then false
  else if eqIgnoreAsciiCase (essence.take 5) (ascii "text/") then true
  else if compressibleTypes.any (eqIgnoreAsciiCase essence) then true
  else (rsplitOnce (byte '+') essence).any fun split =>
    eqIgnoreAsciiCase split.2 (ascii "json") || eqIgnoreAsciiCase split.2 (ascii "xml")

def isNoTransform (directive : Bytes) : Bool :=
  let name := ((splitOnce (byte '=') (trim directive)).map fun split => trim split.1).getD (trim directive)
  eqIgnoreAsciiCase name (ascii "no-transform")

def responseAllowsCompression (response : ResponseHeader) : Bool :=
  if responseStatusHasNoBody response.status || response.status == 206 ||
      response.headers.containsKey (ascii "content-range") || response.headers.containsKey contentEncodingName then false
  else if (MultiMap.getAll response.headers (ascii "cache-control")).any fun value =>
      (headerValueToStr value).any fun value => (value.splitOn (byte ',')).any isNoTransform then false
  else if (HeaderMap.get response.headers contentLengthName).any fun length =>
      ((headerValueToStr length).bind (parseUnsigned (2 ^ 64))).all (· < 1024) then false
  else ((HeaderMap.get response.headers contentTypeName).bind headerValueToStr).any compressibleProxyContentType

/-! ### Negotiation -/

def acceptEncodingName : Bytes := ascii "accept-encoding"

def negotiateDownstreamCompression (request : RequestHeader) (route : RouteClass) : EncodingNegotiation :=
  if !usesDownstreamCompression route then ⟨.identity, true⟩
  else
    match MultiMap.getAll request.headers acceptEncodingName with
    | [value] => if eqIgnoreAsciiCase value (ascii "identity") then ⟨.identity, true⟩ else negotiate [value]
    | values => negotiate values

/-- The encoding of a request in `request_filter`; gRPC is not compressed. -/
def requestEncoding (request : RequestHeader) (route : RouteClass) (grpc : Option GrpcKind) : EncodingNegotiation :=
  if usesDownstreamCompression route && grpc.isNone then negotiateDownstreamCompression request route
  else ⟨.identity, true⟩

/-- The algorithm that a compressor reads from the coding as `Accept-Encoding`. -/
def ContentCoding.algorithm : ContentCoding → Option Algorithm
  | .identity | .notAcceptable => none
  | .gzip => some .gzip
  | .brotli => some .brotli
  | .zstd => some .zstd

/-- `install_downstream_compression`, with the level of the gateway's modules. -/
def ContentCoding.install (coding : ContentCoding) : Option CompressionCtx :=
  coding.algorithm.map fun algorithm => .headerPhase [algorithm] 1

/-! ### The filter -/

/-- What the filter reads and changes of the context and the session. -/
structure ResponseContext where
  grpcWeb : GrpcWebCtx
  compressionSelected : Bool
  identityAcceptable : Bool
  compressor : Option CompressionCtx

def ResponseContext.new (grpcWeb : GrpcWebCtx) (encoding : EncodingNegotiation) : ResponseContext where
  grpcWeb := grpcWeb
  compressionSelected := encoding.preferred.asStr.isSome
  identityAcceptable := encoding.identityAcceptable
  compressor := encoding.preferred.install

def disableCompressor : Option CompressionCtx → Except HeaderError (Option CompressionCtx)
  | none => .ok none
  | some compressor =>
    match compressor.adjustLevel 0 with
    | some compressor => .ok (some compressor)
    | none => .error .panics

/-- Whether the compressor stays on for a final header. -/
def adjustCompressor (ctx : ResponseContext) (response : ResponseHeader) : Except HeaderError ResponseContext :=
  let bodyless := responseStatusHasNoBody response.status
  if ctx.compressionSelected && (bodyless || !responseAllowsCompression response) then do
    let compressor ← disableCompressor ctx.compressor
    if !bodyless && !ctx.identityAcceptable then
      .error (.status 406 (ascii "upstream response cannot use an acceptable content coding"))
    else .ok { ctx with compressor := compressor }
  else .ok ctx

/-- The end of the filter; the compressor waits for the final header. -/
def gateCompression (route : RouteClass) (ctx : ResponseContext) (response : ResponseHeader) :
    Except HeaderError (ResponseContext × ResponseHeader) :=
  if ctx.compressionSelected && responseStatusIsInterim response.status then .ok (ctx, response)
  else do
    let ctx ← adjustCompressor ctx response
    .ok (ctx, if route = .doh then stripDohCachingHeaders response else response)

section

variable {env : Surroundings} (g : Gateway env) (C : HttpCrate)

/-- The fields that the gateway adds to every response. -/
def decorateResponse (session : Session) (plan : PreparedPlan) (response : ResponseHeader) : ResponseHeader :=
  let response :=
    if g.runtime.config.server.securityHeaders then insertSecurityHeaders response plan.handler session.tls
    else response
  match g.runtime.http3AltSvcHeader with
  | some altSvc =>
    if session.tls && !session.directHttp3 then response.insertTypedHeader (ascii "alt-svc") altSvc else response
  | none => response

def switchesProtocols (session : Session) (response : ResponseHeader) : Bool :=
  response.status == 101 && session.request.version == .http11 && session.isUpgradeReq

def responseFilter (session : Session) (plan : PreparedPlan) (ctx : ResponseContext) (response : ResponseHeader) :
    Except HeaderError (ResponseContext × ResponseHeader) := do
  let response ← stripResponseHopHeaders C response (switchesProtocols session response)
  let applied := applyWebResponse ctx.grpcWeb response
  gateCompression plan.route { ctx with grpcWeb := applied.1 } (decorateResponse g session plan applied.2)

/-! ### A response on its way to the client -/

/-- A chunk of a body, and whether an encoder takes it without an error. -/
structure BodyChunk where
  bytes : Bytes
  encodes : Bool

inductive ResponseTask where
  | header (response : ResponseHeader) (endOfStream : Bool)
  | body (chunk : BodyChunk)

inductive SentTask where
  | header (response : ResponseHeader) (endOfStream : Bool)
  /-- A chunk and the encoder that it has gone through. -/
  | body (encoder : Option Algorithm) (chunk : Bytes)
  deriving DecidableEq

structure Downstream where
  ctx : ResponseContext
  sent : List SentTask

def moduleHeaderFilter (compressor : Option CompressionCtx) (response : ResponseHeader) (endOfStream : Bool) :
    Except HeaderError (Option CompressionCtx × ResponseHeader) :=
  match compressor with
  | none => .ok (none, response)
  | some compressor =>
    match compressor.responseHeaderFilter response endOfStream with
    | some (compressor, response) => .ok (some compressor, response)
    | none => .error .panics

def moduleBodyFilter (compressor : Option CompressionCtx) (encodes : Bool) :
    Except HeaderError (Option CompressionCtx × Option Algorithm) :=
  match compressor with
  | none => .ok (none, none)
  | some compressor =>
    match compressor.responseBodyFilter encodes with
    | some (compressor, encoder) => .ok (some compressor, encoder)
    | none => .error .panics

/-- The filter of the gateway comes before those of the modules. -/
def Downstream.step (session : Session) (plan : PreparedPlan) (s : Downstream) (task : ResponseTask) :
    Except HeaderError Downstream :=
  match task with
  | .header response endOfStream => do
    let (ctx, response) ← responseFilter g C session plan s.ctx response
    let (compressor, response) ← moduleHeaderFilter ctx.compressor response endOfStream
    .ok ⟨{ ctx with compressor := compressor }, s.sent ++ [.header response endOfStream]⟩
  | .body chunk => do
    let (compressor, encoder) ← moduleBodyFilter s.ctx.compressor chunk.encodes
    .ok ⟨{ s.ctx with compressor := compressor }, s.sent ++ [.body encoder chunk.bytes]⟩

def Downstream.run (session : Session) (plan : PreparedPlan) (s : Downstream) (tasks : List ResponseTask) :
    Except HeaderError Downstream :=
  tasks.foldlM (Downstream.step g C session plan) s

end

/-! ### The fields that are added -/

def securityFields (handler : HandlerKind) (tls : Bool) : List (Bytes × Bytes) :=
  (ascii "x-content-type-options", ascii "nosniff") ::
    (if tls then [(ascii "strict-transport-security", ascii "max-age=63072000; includeSubDomains; preload")] else []) ++
    match handler with
    | .static | .vaultwarden | .couchdb =>
      [(ascii "x-frame-options", ascii "SAMEORIGIN"), (ascii "referrer-policy", ascii "strict-origin-when-cross-origin")]
    | _ => []

section

variable {env : Surroundings} (g : Gateway env)

/-- What the configuration makes the gateway say in every response. -/
def addedFields (session : Session) (plan : PreparedPlan) : List (Bytes × Bytes) :=
  (if g.runtime.config.server.securityHeaders then securityFields plan.handler session.tls else []) ++
    if session.tls && !session.directHttp3 then
      (g.runtime.http3AltSvcHeader.map fun altSvc => (ascii "alt-svc", altSvc)).toList
    else []

lemma insertSecurityHeaders_eq (response : ResponseHeader) (handler : HandlerKind) (tls : Bool) :
    insertSecurityHeaders response handler tls =
      { response with headers := MultiMap.insertAll response.headers (securityFields handler tls) } := by
  cases tls <;> cases handler <;> rfl

lemma decorateResponse_eq (session : Session) (plan : PreparedPlan) (response : ResponseHeader) :
    decorateResponse g session plan response =
      { response with headers := MultiMap.insertAll response.headers (addedFields g session plan) } := by
  have hfirst : (if g.runtime.config.server.securityHeaders then insertSecurityHeaders response plan.handler session.tls
      else response) = ⟨response.status, MultiMap.insertAll response.headers
        (if g.runtime.config.server.securityHeaders then securityFields plan.handler session.tls else [])⟩ := by
    split
    · exact insertSecurityHeaders_eq _ _ _
    · rfl
  unfold decorateResponse addedFields
  dsimp only
  rw [hfirst, MultiMap.insertAll, MultiMap.insertAll, List.foldl_append]
  cases g.runtime.http3AltSvcHeader with
  | none => rw [Option.map_none, Option.toList_none, ite_self, List.foldl_nil]
  | some altSvc =>
    by_cases htls : (session.tls && !session.directHttp3) = true
    · simp only [htls, if_true]
      rfl
    · simp only [htls]
      rfl

/-- Each of them has a name of its own among those that are taken from upstream responses. -/
lemma addedFields_names (session : Session) (plan : PreparedPlan) :
    ((addedFields g session plan).map Prod.fst).Sublist
      (["x-content-type-options", "strict-transport-security", "x-frame-options", "referrer-policy", "alt-svc"].map
        ascii) := by
  have hsecurity : ((if g.runtime.config.server.securityHeaders then securityFields plan.handler session.tls else []).map
      Prod.fst).Sublist
      (["x-content-type-options", "strict-transport-security", "x-frame-options", "referrer-policy"].map ascii) := by
    split
    · generalize session.tls = tls
      generalize plan.handler = handler
      cases tls <;> cases handler <;> decide
    · exact List.nil_sublist _
  have haltSvc : ((if session.tls && !session.directHttp3 then
      (g.runtime.http3AltSvcHeader.map fun altSvc => (ascii "alt-svc", altSvc)).toList else []).map Prod.fst).Sublist
      [ascii "alt-svc"] := by
    split
    · cases g.runtime.http3AltSvcHeader with
      | none => exact List.nil_sublist _
      | some altSvc => exact List.Sublist.refl _
    · exact List.nil_sublist _
  rw [addedFields, List.map_append]
  exact hsecurity.append haltSvc

end

/-! ### One header -/

lemma stripResponseHopHeaders_status {C : HttpCrate} {response result : ResponseHeader} {forwardsUpgrade : Bool}
    (h : stripResponseHopHeaders C response forwardsUpgrade = .ok result) : result.status = response.status := by
  unfold stripResponseHopHeaders at h
  obtain ⟨names, -, h⟩ := except_bind_eq_ok.mp h
  obtain ⟨fixed, -, h⟩ := except_bind_eq_ok.mp h
  obtain ⟨normalized, hnormalized, h⟩ := except_bind_eq_ok.mp h
  rw [foldl_removeHeader_response, foldl_removeHeader_response] at hnormalized
  obtain ⟨headers, -, rfl⟩ := except_map_eq_ok.mp hnormalized
  split at h
  · split at h
    · cases h
    · rw [← Except.ok.inj h]
      rfl
  · rw [← Except.ok.inj h]

lemma stripResponseHopHeaders_ne_panics (C : HttpCrate) (response : ResponseHeader) (forwardsUpgrade : Bool) :
    stripResponseHopHeaders C response forwardsUpgrade ≠ .error .panics := by
  intro h
  unfold stripResponseHopHeaders at h
  rcases except_bind_eq_error.mp h with hnames | ⟨names, -, h⟩
  · exact connectionOptionNames_ne_panics _ _ hnames
  rw [collectArrayVec_keys _ (fun name => mem_of_isFixedResponseRemovedHeader) (by decide)] at h
  rcases except_bind_eq_error.mp h with hfixed | ⟨fixed, -, h⟩
  · cases hfixed
  rcases except_bind_eq_error.mp h with hnormalized | ⟨normalized, -, h⟩
  · cases hresult : normalizeContentLength C (fixed.foldl ResponseHeader.removeHeader
        (names.foldl ResponseHeader.removeHeader response)).headers 502 with
    | error e =>
      rw [normalizeResponseContentLength, hresult] at hnormalized
      cases hnormalized
      exact (normalizeContentLength_ne_overflow _ _ _).1 hresult
    | ok headers =>
      rw [normalizeResponseContentLength, hresult] at hnormalized
      cases hnormalized
  · split at h
    · split at h
      · cases h
      · cases h
    · cases h

lemma status_applyWebResponse (grpcWeb : GrpcWebCtx) (response : ResponseHeader) :
    (applyWebResponse grpcWeb response).2.status = response.status := by
  unfold applyWebResponse GrpcWebCtx.responseHeaderFilter
  dsimp only
  split_ifs <;> rfl

lemma algorithm_isSome (coding : ContentCoding) : coding.algorithm.isSome = coding.asStr.isSome := by
  cases coding <;> rfl

/-- The response as it leaves the gate. -/
def gatedResponse (route : RouteClass) (response : ResponseHeader) : ResponseHeader :=
  if route = .doh then stripDohCachingHeaders response else response

/-- What the gate does to a response whose coding has been negotiated and whose compressor is as it was installed. -/
inductive Gated (route : RouteClass) (encoding : EncodingNegotiation) (grpcWeb : GrpcWebCtx) (response : ResponseHeader) :
    Except HeaderError (ResponseContext × ResponseHeader) → Prop where
  | identity (h : encoding.preferred.algorithm = none) : Gated route encoding grpcWeb response
      (.ok (.new grpcWeb encoding, gatedResponse route response))
  | interim (h : responseStatusIsInterim response.status = true) :
      Gated route encoding grpcWeb response (.ok (.new grpcWeb encoding, response))
  | refused (hbody : responseStatusHasNoBody response.status = false)
      (hallows : responseAllowsCompression response = false) (hidentity : encoding.identityAcceptable = false) :
      Gated route encoding grpcWeb response
        (.error (.status 406 (ascii "upstream response cannot use an acceptable content coding")))
  | disabled (algorithm : Algorithm) (halgorithm : encoding.preferred.algorithm = some algorithm)
      (hinterim : responseStatusIsInterim response.status = false)
      (hbody : responseStatusHasNoBody response.status = true ∨
        responseAllowsCompression response = false ∧ encoding.identityAcceptable = true) :
      Gated route encoding grpcWeb response
        (.ok (⟨grpcWeb, true, encoding.identityAcceptable, some (.headerPhase [algorithm] 0)⟩,
          gatedResponse route response))
  | enabled (algorithm : Algorithm) (halgorithm : encoding.preferred.algorithm = some algorithm)
      (hbody : responseStatusHasNoBody response.status = false) (hallows : responseAllowsCompression response = true) :
      Gated route encoding grpcWeb response (.ok (.new grpcWeb encoding, gatedResponse route response))

lemma gated (route : RouteClass) (encoding : EncodingNegotiation) (grpcWeb : GrpcWebCtx) (response : ResponseHeader) :
    Gated route encoding grpcWeb response (gateCompression route (.new grpcWeb encoding) response) := by
  have hselected : (ResponseContext.new grpcWeb encoding).compressionSelected =
      encoding.preferred.algorithm.isSome := (algorithm_isSome _).symm
  unfold gateCompression adjustCompressor
  rw [hselected]
  cases halgorithm : encoding.preferred.algorithm with
  | none => exact .identity halgorithm
  | some algorithm =>
    have hdisable : disableCompressor (ResponseContext.new grpcWeb encoding).compressor =
        .ok (some (.headerPhase [algorithm] 0)) := by
      change disableCompressor encoding.preferred.install = _
      rw [ContentCoding.install, halgorithm]
      rfl
    rw [hdisable]
    cases hinterim : responseStatusIsInterim response.status with
    | true => exact .interim hinterim
    | false =>
      cases hbody : responseStatusHasNoBody response.status with
      | true => exact .disabled algorithm halgorithm hinterim (.inl hbody)
      | false =>
        cases hallows : responseAllowsCompression response with
        | true => exact .enabled algorithm halgorithm hbody hallows
        | false =>
          obtain ⟨preferred, acceptable⟩ := encoding
          cases acceptable with
          | true => exact .disabled algorithm halgorithm hinterim (.inr ⟨hallows, rfl⟩)
          | false => exact .refused hbody hallows rfl

/-! ### Statuses -/

lemma noBody_of_interim {status : ℕ} (h : responseStatusIsInterim status = true) :
    responseStatusHasNoBody status = true := by
  rw [responseStatusIsInterim, Bool.and_eq_true] at h
  simp only [responseStatusHasNoBody, h.1, Bool.true_or]

lemma informational_of_interim {status : ℕ} (h : responseStatusIsInterim status = true) :
    statusIsInformational status = true ∧ status ≠ 101 := by
  rw [responseStatusIsInterim, Bool.and_eq_true, bne_iff_ne] at h
  exact h

lemma not_informational_of_body {status : ℕ} (h : responseStatusHasNoBody status = false) :
    statusIsInformational status = false := by
  simp only [responseStatusHasNoBody, Bool.or_eq_false_iff] at h
  exact h.1.1.1

lemma body_of_allows {response : ResponseHeader} (h : responseAllowsCompression response = true) :
    responseStatusHasNoBody response.status = false ∧ MultiMap.getAll response.headers contentEncodingName = [] := by
  unfold responseAllowsCompression at h
  split at h
  · cases h
  · next hgate =>
    simp only [HeaderMap.containsKey, Bool.or_eq_true, Bool.not_eq_true', not_or, Bool.not_eq_false,
      List.isEmpty_iff, Bool.not_eq_true] at hgate
    exact ⟨hgate.1.1.1, hgate.2⟩

/-! ### The header on its way -/

section

variable {env : Surroundings} (g : Gateway env) (C : HttpCrate) (session : Session) (plan : PreparedPlan)
variable (encoding : EncodingNegotiation) (grpcWeb : GrpcWebCtx) {response : ResponseHeader} (sent : List SentTask)

/-- A header is refused by the scan of its options, or comes to the gate with its status. -/
lemma responseFilter_cases (response : ResponseHeader) :
    (∃ e, e ≠ .panics ∧ responseFilter g C session plan (.new grpcWeb encoding) response = .error e) ∨
    ∃ grpcWeb' decorated, decorated.status = response.status ∧
      responseFilter g C session plan (.new grpcWeb encoding) response =
        gateCompression plan.route (.new grpcWeb' encoding) decorated := by
  unfold responseFilter
  cases hstripped : stripResponseHopHeaders C response (switchesProtocols session response) with
  | error e =>
    refine .inl ⟨e, ?_, rfl⟩
    rintro rfl
    exact stripResponseHopHeaders_ne_panics _ _ _ hstripped
  | ok stripped =>
    refine .inr ⟨_, _, ?_, rfl⟩
    rw [decorateResponse_eq, status_applyWebResponse]
    exact stripResponseHopHeaders_status hstripped

/-- An interim response passes the compressor and leaves it as it is. -/
lemma moduleHeaderFilter_interim (h : responseStatusIsInterim response.status = true) :
    moduleHeaderFilter encoding.preferred.install response false = .ok (encoding.preferred.install, response) := by
  obtain ⟨hinformational, hswitching⟩ := informational_of_interim h
  unfold moduleHeaderFilter ContentCoding.install
  cases encoding.preferred.algorithm with
  | none => rfl
  | some algorithm =>
    have hpass : (CompressionCtx.headerPhase [algorithm] 1).responseHeaderFilter response false =
        some (.headerPhase [algorithm] 1, response) := by
      unfold CompressionCtx.responseHeaderFilter
      rw [if_neg (by simp [CompressionCtx.isEnabled])]
      dsimp only
      rw [if_pos hinformational, if_neg hswitching]
    rw [Option.map_some]
    dsimp only
    rw [hpass]

lemma step_interim (h : responseStatusIsInterim response.status = true) :
    (∃ e, e ≠ .panics ∧ Downstream.step g C session plan ⟨.new grpcWeb encoding, sent⟩ (.header response false) =
      .error e) ∨
    ∃ grpcWeb' header, Downstream.step g C session plan ⟨.new grpcWeb encoding, sent⟩ (.header response false) =
      .ok ⟨.new grpcWeb' encoding, sent ++ [.header header false]⟩ := by
  rw [Downstream.step]
  rcases responseFilter_cases g C session plan encoding grpcWeb response with
    ⟨e, hne, herror⟩ | ⟨grpcWeb', decorated, hstatus, hfilter⟩
  · rw [herror]
    exact .inl ⟨e, hne, rfl⟩
  · rw [← hstatus] at h
    rw [hfilter]
    have hgated := gated plan.route encoding grpcWeb' decorated
    generalize gateCompression plan.route (.new grpcWeb' encoding) decorated = result at hgated
    cases hgated with
    | identity hnone =>
      have hinstall : encoding.preferred.install = none := by rw [ContentCoding.install, hnone]; rfl
      refine .inr ⟨grpcWeb', gatedResponse plan.route decorated, ?_⟩
      change (moduleHeaderFilter encoding.preferred.install _ false).bind _ = _
      rw [ResponseContext.new, hinstall]
      rfl
    | interim _ =>
      refine .inr ⟨grpcWeb', decorated, ?_⟩
      change (moduleHeaderFilter encoding.preferred.install _ false).bind _ = _
      rw [moduleHeaderFilter_interim encoding h]
      rfl
    | refused hbody => exact absurd (noBody_of_interim h) (by rw [hbody]; exact Bool.false_ne_true)
    | disabled _ _ hinterim => exact absurd h (by rw [hinterim]; exact Bool.false_ne_true)
    | enabled _ _ hbody => exact absurd (noBody_of_interim h) (by rw [hbody]; exact Bool.false_ne_true)

/-- How the final header of a response reaches the client, with the encoder that its body is given to. -/
structure SentCoded (encoding : EncodingNegotiation) (endOfStream : Bool) (filtered sent : ResponseHeader)
    (encoder : Option Algorithm) : Prop where
  /-- A body is encoded in the negotiated coding and in no other, and its header says so. -/
  coded : ∀ algorithm, encoder = some algorithm → encoding.preferred.algorithm = some algorithm ∧
    MultiMap.getAll filtered.headers contentEncodingName = [] ∧ Recoded algorithm filtered sent
  plain : encoder = none → sent = filtered
  /-- The cases in which it is encoded. -/
  encoded : encoder.isSome = true ↔ encoding.preferred.algorithm.isSome = true ∧ endOfStream = false ∧
    responseAllowsCompression filtered = true ∧ compressible filtered = true
  /-- A client that refuses identity gets nothing that the gate has turned down. -/
  acceptable : encoding.preferred.algorithm.isSome = true → encoding.identityAcceptable = false →
    responseStatusHasNoBody filtered.status = true ∨ responseAllowsCompression filtered = true

lemma sentCoded_identity (endOfStream : Bool) (hnone : encoding.preferred.algorithm = none) (filtered : ResponseHeader) :
    SentCoded encoding endOfStream filtered filtered none where
  coded := nofun
  plain := fun _ => rfl
  encoded := by simp [hnone]
  acceptable := by simp [hnone]

/-- A response that the gate has turned down, or that has no body. -/
lemma sentCoded_plain {endOfStream : Bool} {filtered : ResponseHeader}
    (hplain : endOfStream = true ∨ responseAllowsCompression filtered = false ∨ compressible filtered = false)
    (hacceptable : encoding.identityAcceptable = false →
      responseStatusHasNoBody filtered.status = true ∨ responseAllowsCompression filtered = true) :
    SentCoded encoding endOfStream filtered filtered none where
  coded := nofun
  plain := fun _ => rfl
  encoded := by
    constructor
    · nofun
    · rintro ⟨-, hend, hallows, hcompressible⟩
      simp [hend, hallows, hcompressible] at hplain
  acceptable := fun _ => hacceptable

lemma algorithm_mem {coding : ContentCoding} {algorithm : Algorithm} (h : coding.algorithm = some algorithm) :
    algorithm ∈ [Algorithm.gzip, .brotli, .zstd] := by
  cases coding <;> cases h <;> decide

/-- A compressor that gives chunks to an encoder, or to none. -/
inductive BodyEncoder : Option CompressionCtx → Option Algorithm → Prop where
  | absent : BodyEncoder none none
  | disabled (acceptEncoding : List Algorithm) : BodyEncoder (some (.headerPhase acceptEncoding 0)) none
  | bodies (encoder : Option Algorithm) : BodyEncoder (some (.bodyPhase encoder)) encoder

lemma BodyEncoder.moduleBodyFilter_eq {compressor : Option CompressionCtx} {encoder : Option Algorithm}
    (h : BodyEncoder compressor encoder) (encodes : Bool) :
    ∃ compressor', moduleBodyFilter compressor encodes = .ok (compressor', if encodes then encoder else none) ∧
      BodyEncoder compressor' (if encodes then encoder else none) := by
  cases h with
  | absent => exact ⟨none, by cases encodes <;> rfl, by cases encodes <;> exact .absent⟩
  | disabled acceptEncoding =>
    exact ⟨_, by cases encodes <;> rfl, by cases encodes <;> exact .disabled acceptEncoding⟩
  | bodies encoder =>
    refine ⟨some (.bodyPhase (if encodes then encoder else none)), ?_, .bodies _⟩
    cases encoder <;> cases encodes <;> rfl

/-- The chunks as they are sent: the ones before the encoder fails, and the others as they came. -/
def sentChunks (encoder : Option Algorithm) (chunks : List BodyChunk) : List SentTask :=
  (chunks.takeWhile (·.encodes)).map (.body encoder ·.bytes) ++ (chunks.dropWhile (·.encodes)).map (.body none ·.bytes)

lemma sentChunks_none (chunks : List BodyChunk) : sentChunks none chunks = chunks.map (.body none ·.bytes) := by
  rw [sentChunks, ← List.map_append, List.takeWhile_append_dropWhile]

lemma sentChunks_cons (encoder : Option Algorithm) (chunk : BodyChunk) (chunks : List BodyChunk) :
    sentChunks encoder (chunk :: chunks) = .body (if chunk.encodes then encoder else none) chunk.bytes ::
      sentChunks (if chunk.encodes then encoder else none) chunks := by
  by_cases h : chunk.encodes = true
  · rw [sentChunks, List.takeWhile_cons_of_pos h, List.dropWhile_cons_of_pos h, if_pos h]
    rfl
  · rw [sentChunks, List.takeWhile_cons_of_neg h, List.dropWhile_cons_of_neg h, if_neg h, sentChunks_none]
    rfl

/-- The compressor on the final header of a response that has passed the gate. -/
lemma moduleHeaderFilter_enabled {algorithm : Algorithm} (halgorithm : encoding.preferred.algorithm = some algorithm)
    (hallows : responseAllowsCompression response = true) (endOfStream : Bool) :
    ∃ compressor header encoder, moduleHeaderFilter encoding.preferred.install response endOfStream =
        .ok (compressor, header) ∧ BodyEncoder compressor encoder ∧
      SentCoded encoding endOfStream response header encoder := by
  obtain ⟨hbody, hcoding⟩ := body_of_allows hallows
  have hfinal := not_informational_of_body hbody
  have hinstall : encoding.preferred.install = some (.headerPhase [algorithm] 1) := by
    rw [ContentCoding.install, halgorithm]
    rfl
  rw [hinstall]
  cases endOfStream with
  | true =>
    refine ⟨some (.bodyPhase none), response, none, ?_, .bodies none,
      sentCoded_plain encoding (.inl rfl) fun _ => .inr hallows⟩
    unfold moduleHeaderFilter CompressionCtx.responseHeaderFilter
    dsimp only
    rw [if_neg (by simp [CompressionCtx.isEnabled]), hfinal]
    rfl
  | false =>
    obtain ⟨header, hheader, hrecoded, hsame⟩ := CompressionCtx.responseHeaderFilter_final (Nat.one_ne_zero)
      (algorithm_mem halgorithm) hfinal hcoding
    refine ⟨some (.bodyPhase (if compressible response = true then some algorithm else none)), header,
      if compressible response = true then some algorithm else none, ?_, .bodies _, ?_⟩
    · unfold moduleHeaderFilter
      dsimp only
      rw [hheader]
    · cases hcompressible : compressible response with
      | true =>
        refine ⟨?_, fun hnone => (by cases hnone), ?_, fun _ _ => .inr hallows⟩
        · intro named hnamed
          obtain rfl := Option.some.inj hnamed
          exact ⟨halgorithm, hcoding, hrecoded hcompressible⟩
        · simp [halgorithm, hallows, hcompressible]
      | false =>
        rw [hsame hcompressible]
        exact sentCoded_plain encoding (.inr (.inr hcompressible)) fun _ => .inr hallows

lemma gatedResponse_of_selected {route : RouteClass} {algorithm : Algorithm}
    (hdoh : route = .doh → encoding.preferred.algorithm = none)
    (halgorithm : encoding.preferred.algorithm = some algorithm) (decorated : ResponseHeader) :
    gatedResponse route decorated = decorated := by
  refine if_neg fun hroute => ?_
  rw [hdoh hroute] at halgorithm
  cases halgorithm

lemma step_final (hfinal : responseStatusIsInterim response.status = false)
    (hdoh : plan.route = .doh → encoding.preferred.algorithm = none) (endOfStream : Bool) :
    (∃ e, e ≠ .panics ∧ Downstream.step g C session plan ⟨.new grpcWeb encoding, sent⟩ (.header response endOfStream) =
      .error e) ∨
    ∃ ctx ctx' filtered header encoder,
      responseFilter g C session plan (.new grpcWeb encoding) response = .ok (ctx', filtered) ∧
      Downstream.step g C session plan ⟨.new grpcWeb encoding, sent⟩ (.header response endOfStream) =
        .ok ⟨ctx, sent ++ [.header header endOfStream]⟩ ∧
      BodyEncoder ctx.compressor encoder ∧ SentCoded encoding endOfStream filtered header encoder := by
  rw [Downstream.step]
  rcases responseFilter_cases g C session plan encoding grpcWeb response with
    ⟨e, hne, herror⟩ | ⟨grpcWeb', decorated, hstatus, hfilter⟩
  · rw [herror]
    exact .inl ⟨e, hne, rfl⟩
  · rw [← hstatus] at hfinal
    rw [hfilter]
    have hgated := gated plan.route encoding grpcWeb' decorated
    generalize gateCompression plan.route (.new grpcWeb' encoding) decorated = result at hgated
    cases hgated with
    | identity hnone =>
      have hinstall : encoding.preferred.install = none := by rw [ContentCoding.install, hnone]; rfl
      refine .inr ⟨.new grpcWeb' encoding, _, _, gatedResponse plan.route decorated, none, rfl, ?_, ?_,
        sentCoded_identity encoding endOfStream hnone _⟩
      · change (moduleHeaderFilter encoding.preferred.install _ endOfStream).bind _ = _
        rw [ResponseContext.new, hinstall]
        rfl
      · change BodyEncoder encoding.preferred.install none
        rw [hinstall]
        exact .absent
    | interim hinterim => exact absurd hinterim (by rw [hfinal]; exact Bool.false_ne_true)
    | refused => exact .inl ⟨.status 406 _, HeaderError.noConfusion, rfl⟩
    | disabled algorithm halgorithm _ hbody =>
      rw [gatedResponse_of_selected encoding hdoh halgorithm]
      refine .inr ⟨_, _, decorated, decorated, none, rfl, rfl, .disabled _, sentCoded_plain encoding ?_ ?_⟩
      · rcases hbody with hbody | ⟨hallows, -⟩
        · refine .inr (.inl ?_)
          rw [← Bool.not_eq_true]
          intro hallows
          rw [(body_of_allows hallows).1] at hbody
          cases hbody
        · exact .inr (.inl hallows)
      · rcases hbody with hbody | ⟨-, hacceptable⟩
        · exact fun _ => .inl hbody
        · rw [hacceptable]
          nofun
    | enabled algorithm halgorithm hbody hallows =>
      rw [gatedResponse_of_selected encoding hdoh halgorithm]
      obtain ⟨compressor, header, encoder, hheader, hbodies, hcoded⟩ :=
        moduleHeaderFilter_enabled encoding halgorithm hallows endOfStream
      refine .inr ⟨{ ResponseContext.new grpcWeb' encoding with compressor := compressor }, _, decorated, header, encoder,
        rfl, ?_, hbodies, hcoded⟩
      change (moduleHeaderFilter encoding.preferred.install _ endOfStream).bind _ = _
      rw [hheader]
      rfl

lemma run_bodies {ctx : ResponseContext} {encoder : Option Algorithm} (h : BodyEncoder ctx.compressor encoder)
    (chunks : List BodyChunk) :
    ∃ ctx', Downstream.run g C session plan ⟨ctx, sent⟩ (chunks.map .body) =
      .ok ⟨ctx', sent ++ sentChunks encoder chunks⟩ := by
  induction chunks generalizing ctx encoder sent with
  | nil =>
    refine ⟨ctx, ?_⟩
    change Except.ok _ = Except.ok _
    rw [sentChunks, List.takeWhile_nil, List.dropWhile_nil, List.map_nil, List.map_nil, List.append_nil, List.append_nil]
  | cons chunk chunks ih =>
    obtain ⟨compressor, hfilter, hencoding⟩ := h.moduleBodyFilter_eq chunk.encodes
    have hstep : Downstream.step g C session plan ⟨ctx, sent⟩ (.body chunk) =
        .ok ⟨{ ctx with compressor := compressor },
          sent ++ [.body (if chunk.encodes then encoder else none) chunk.bytes]⟩ := by
      rw [Downstream.step, hfilter]
      rfl
    have hnext : BodyEncoder ({ ctx with compressor := compressor } : ResponseContext).compressor
        (if chunk.encodes then encoder else none) := hencoding
    obtain ⟨ctx', hrun⟩ := ih (sent ++ [.body (if chunk.encodes then encoder else none) chunk.bytes]) hnext
    refine ⟨ctx', ?_⟩
    rw [List.map_cons, Downstream.run, List.foldlM_cons, hstep, sentChunks_cons]
    refine hrun.trans ?_
    rw [List.append_assoc, List.singleton_append]

lemma run_interim {interim : List ResponseHeader} (h : ∀ response ∈ interim, responseStatusIsInterim response.status = true) :
    (∃ e, e ≠ .panics ∧ Downstream.run g C session plan ⟨.new grpcWeb encoding, sent⟩ (interim.map (.header · false)) =
      .error e) ∨
    ∃ grpcWeb', ∃ headers : List ResponseHeader, headers.length = interim.length ∧
      Downstream.run g C session plan ⟨.new grpcWeb encoding, sent⟩ (interim.map (.header · false)) =
        .ok ⟨.new grpcWeb' encoding, sent ++ headers.map (.header · false)⟩ := by
  induction interim generalizing grpcWeb sent with
  | nil => exact .inr ⟨grpcWeb, [], rfl, by rw [List.map_nil, List.map_nil, List.append_nil]; rfl⟩
  | cons response interim ih =>
    obtain ⟨hresponse, hinterim⟩ := List.forall_mem_cons.mp h
    rw [List.map_cons, Downstream.run, List.foldlM_cons]
    rcases step_interim g C session plan encoding grpcWeb sent hresponse with ⟨e, hne, hstep⟩ | ⟨grpcWeb', header, hstep⟩
    · rw [hstep]
      exact .inl ⟨e, hne, rfl⟩
    · rw [hstep]
      rcases ih grpcWeb' (sent ++ [.header header false]) hinterim with ⟨e, hne, hrun⟩ | ⟨last, headers, hlength, hrun⟩
      · exact .inl ⟨e, hne, hrun⟩
      · refine .inr ⟨last, header :: headers, congrArg Nat.succ hlength, hrun.trans ?_⟩
        rw [List.map_cons, List.append_assoc, List.singleton_append]

end

lemma requestEncoding_doh {request : RequestHeader} {route : RouteClass} {grpc : Option GrpcKind} (h : route = .doh) :
    (requestEncoding request route grpc).preferred.algorithm = none := by
  rw [h]
  rfl

/-- Over any interim responses, a final one and its body: no filter is ever called in the wrong phase, the chunks go
through an encoder, until it fails, exactly if a coding was negotiated, the header does not end the stream and both gates
let the response pass, and a client that refuses identity gets no response that the gate has turned down. -/
theorem response_coding_announced {env : Surroundings} (g : Gateway env) (C : HttpCrate) (session : Session)
    (plan : PreparedPlan) (grpc : Option GrpcKind) (grpcWeb : GrpcWebCtx) (interim : List ResponseHeader)
    (hinterim : ∀ response ∈ interim, responseStatusIsInterim response.status = true) (final : ResponseHeader)
    (hfinal : responseStatusIsInterim final.status = false) (endOfStream : Bool) (chunks : List BodyChunk) :
    let encoding := requestEncoding session.request plan.route grpc
    let result := Downstream.run g C session plan ⟨.new grpcWeb encoding, []⟩
      (interim.map (.header · false) ++ .header final endOfStream :: chunks.map .body)
    result ≠ .error .panics ∧
    ∀ s, result = .ok s → ∃ headers filtered sent encoder ctx ctx', List.length headers = interim.length ∧
      responseFilter g C session plan ctx final = .ok (ctx', filtered) ∧
      s.sent = headers.map (.header · false) ++ .header sent endOfStream :: sentChunks encoder chunks ∧
      SentCoded encoding endOfStream filtered sent encoder := by
  intro encoding result
  have hresult : result = (Downstream.run g C session plan ⟨.new grpcWeb encoding, []⟩ (interim.map (.header · false)) >>=
      fun s => Downstream.step g C session plan s (.header final endOfStream) >>=
        fun s => Downstream.run g C session plan s (chunks.map .body)) :=
    List.foldlM_append
  have hdoh : plan.route = .doh → encoding.preferred.algorithm = none := requestEncoding_doh
  rcases run_interim g C session plan encoding grpcWeb [] hinterim with
    ⟨e, hne, hrun⟩ | ⟨grpcWeb', headers, hlength, hrun⟩
  · rw [hresult, hrun]
    exact ⟨fun h => hne (Except.error.inj h), nofun⟩
  · rw [hrun] at hresult
    rcases step_final g C session plan encoding grpcWeb' (headers.map (.header · false)) hfinal hdoh endOfStream with
      ⟨e, hne, hstep⟩ | ⟨ctx, ctx', filtered, sent, encoder, hfilter, hstep, hbodies, hcoded⟩
    · have herror : result = .error e := by
        rw [hresult]
        change (Downstream.step g C session plan ⟨_, headers.map (.header · false)⟩ _).bind _ = _
        rw [hstep]
        rfl
      rw [herror]
      exact ⟨fun h => hne (Except.error.inj h), nofun⟩
    · obtain ⟨last, hrun⟩ := run_bodies g C session plan (headers.map (.header · false) ++ [.header sent endOfStream])
        hbodies chunks
      have hok : result = .ok ⟨last, headers.map (.header · false) ++ [.header sent endOfStream] ++
          sentChunks encoder chunks⟩ := by
        rw [hresult]
        change (Downstream.step g C session plan ⟨_, headers.map (.header · false)⟩ _).bind _ = _
        rw [hstep]
        exact hrun
      rw [hok]
      refine ⟨nofun, fun s hs => ?_⟩
      rw [← Except.ok.inj hs]
      refine ⟨headers, filtered, sent, encoder, _, ctx', hlength, hfilter, ?_, hcoded⟩
      rw [List.append_assoc, List.singleton_append]

/-- A page for a client that refuses identity. -/
def pageSession : Session :=
  exampleSession (ascii "dns.tae00217.cloud") (ascii "/") [(acceptEncodingName, ascii "gzip, identity;q=0")]

def pagePlan : PreparedPlan := { spoofedPlan with handler := .adguardDns, route := .adguardUi }

def pageHeader : ResponseHeader := ⟨200, [(contentTypeName, ascii "text/html"), (ascii "server", ascii "s")]⟩

/-- The encoder fails on the second chunk. -/
def pageChunks : List BodyChunk := [⟨ascii "<p>", true⟩, ⟨ascii "</p>", false⟩]

def pageRun : Except HeaderError Downstream :=
  Downstream.run (exampleGateway true) .reference pageSession pagePlan
    ⟨.new .disabled (requestEncoding pageSession.request .adguardUi none), []⟩
    ([⟨103, []⟩].map (.header · false) ++ .header pageHeader false :: pageChunks.map .body)

theorem page_coding_announced :
    ∃ s headers filtered sent ctx ctx', pageRun = .ok s ∧
      responseFilter (exampleGateway true) .reference pageSession pagePlan ctx pageHeader = .ok (ctx', filtered) ∧
      s.sent = List.map (.header · false) headers ++
        [.header sent false, .body (some .gzip) (ascii "<p>"), .body none (ascii "</p>")] ∧
      SentCoded (requestEncoding pageSession.request .adguardUi none) false filtered sent (some .gzip) := by
  have hgzip : (pageRun.toOption.map fun s => decide (.body (some .gzip) (ascii "<p>") ∈ s.sent)) = some true := by
    decide +kernel
  obtain ⟨-, hshape⟩ := response_coding_announced (exampleGateway true) .reference pageSession pagePlan none .disabled
    [⟨103, []⟩] (by decide) pageHeader (by decide) false pageChunks
  cases hrun : pageRun with
  | error e =>
    rw [hrun] at hgzip
    cases hgzip
  | ok s =>
    rw [hrun] at hgzip
    obtain ⟨headers, filtered, sent, encoder, ctx, ctx', -, hfilter, hsent, hcoded⟩ := hshape s hrun
    have hmem : .body (some .gzip) (ascii "<p>") ∈ s.sent := of_decide_eq_true (Option.some.inj hgzip)
    have hencoder : encoder = some .gzip := by
      rw [hsent] at hmem
      simpa [sentChunks, pageChunks, eq_comm] using hmem
    rw [hencoder] at hsent hcoded
    exact ⟨s, headers, filtered, sent, ctx, ctx', rfl, hfilter, hsent, hcoded⟩

/-! ### What a client sees -/

/-- The names of the fields that the bridge writes into a response. -/
def webNames : List Bytes := [contentTypeName, contentLengthName, transferEncodingName]

/-- The names of the fields that a DNS answer loses or has from the gateway. -/
def dohNames : List Bytes := ["cache-control", "expires", "pragma", "etag", "last-modified"].map ascii

/-- The names under which a filter may change an upstream's own fields: those of the bridge for a request that has come
as gRPC-web, those of the compressor where one is installed, and those of a cache on the DoH route. -/
def changedNames (route : RouteClass) (ctx : ResponseContext) : List Bytes :=
  (if ctx.grpcWeb = .upgrade then webNames else []) ++ (if ctx.compressor.isSome then recodedNames else []) ++
    if route = .doh then dohNames else []

/-- At most one length, and none next to a transfer coding. -/
def LengthFramed (headers : HeaderMap) : Prop :=
  (MultiMap.getAll headers contentLengthName).length ≤ 1 ∧
    (MultiMap.getAll headers contentLengthName = [] ∨ MultiMap.getAll headers transferEncodingName = [])

/-- The lengths before all are one number, which the length after says once. -/
def LengthKept (before after : HeaderMap) : Prop :=
  MultiMap.getAll after contentLengthName = [] ∧ MultiMap.getAll before contentLengthName = [] ∨
    ∃ value n, MultiMap.getAll after contentLengthName = [value] ∧ DecimalText value n ∧
      MultiMap.getAll before contentLengthName ≠ [] ∧
      ∀ field ∈ MultiMap.getAll before contentLengthName, ∀ token ∈ field.splitOn (byte ','),
        DecimalText (trimAscii token) n

/-- A header of an upstream as its client sees it, with the context in which the filters find it. -/
structure ClientView {env : Surroundings} (g : Gateway env) (session : Session) (plan : PreparedPlan)
    (ctx : ResponseContext) (response sent : ResponseHeader) : Prop where
  status : sent.status = response.status
  /-- What an upstream says about its connection, about itself and about security is replaced. -/
  policy : ∀ name, isFixedResponseRemovedHeader name = true →
    ¬(switchesProtocols session response = true ∧ (name = upgradeName ∨ name = connectionName)) →
      MultiMap.getAll sent.headers name = MultiMap.getAll (addedFields g session plan) name
  nominated : ∀ name ∉ changedNames plan.route ctx, isFixedResponseRemovedHeader name = false →
    Nominated response.headers name → MultiMap.getAll sent.headers name = []
  framed : LengthFramed sent.headers
  length : contentLengthName ∉ changedNames plan.route ctx → LengthKept response.headers sent.headers
  others : ∀ name ∉ changedNames plan.route ctx, name ≠ contentLengthName →
    isFixedResponseRemovedHeader name = false → ¬Nominated response.headers name →
      MultiMap.getAll sent.headers name = MultiMap.getAll response.headers name

lemma isSome_disableCompressor {compressor compressor' : Option CompressionCtx}
    (h : disableCompressor compressor = .ok compressor') : compressor'.isSome = compressor.isSome := by
  unfold disableCompressor at h
  split at h
  · rw [← Except.ok.inj h]
  · split at h
    · rw [← Except.ok.inj h]
      rfl
    · cases h

lemma isSome_moduleHeaderFilter {compressor compressor' : Option CompressionCtx} {response sent : ResponseHeader}
    {endOfStream : Bool} (h : moduleHeaderFilter compressor response endOfStream = .ok (compressor', sent)) :
    compressor'.isSome = compressor.isSome := by
  unfold moduleHeaderFilter at h
  split at h
  · rw [← (Prod.mk.inj (Except.ok.inj h)).1]
  · split at h
    · rw [← (Prod.mk.inj (Except.ok.inj h)).1]
      rfl
    · cases h

lemma isSome_moduleBodyFilter {compressor compressor' : Option CompressionCtx} {encoder : Option Algorithm}
    {encodes : Bool} (h : moduleBodyFilter compressor encodes = .ok (compressor', encoder)) :
    compressor'.isSome = compressor.isSome := by
  unfold moduleBodyFilter at h
  split at h
  · rw [← (Prod.mk.inj (Except.ok.inj h)).1]
  · split at h
    · rw [← (Prod.mk.inj (Except.ok.inj h)).1]
      rfl
    · cases h

lemma LengthFramed.congr {headers headers' : HeaderMap} (h : LengthFramed headers)
    (hlength : MultiMap.getAll headers' contentLengthName = MultiMap.getAll headers contentLengthName)
    (hencoding : MultiMap.getAll headers' transferEncodingName = MultiMap.getAll headers transferEncodingName) :
    LengthFramed headers' := by
  rwa [LengthFramed, hlength, hencoding]

lemma LengthFramed.of_length_nil {headers : HeaderMap} (h : MultiMap.getAll headers contentLengthName = []) :
    LengthFramed headers :=
  ⟨by rw [h]; exact Nat.zero_le 1, .inl h⟩

lemma applyWebResponse_cases (grpcWeb : GrpcWebCtx) (response : ResponseHeader) :
    ((applyWebResponse grpcWeb response).1 = .upgrade → grpcWeb = .upgrade) ∧
      ((applyWebResponse grpcWeb response).2 = response ∨
        grpcWeb = .upgrade ∧ (applyWebResponse grpcWeb response).2 = webResponse response) := by
  unfold applyWebResponse GrpcWebCtx.responseHeaderFilter
  dsimp only
  split_ifs with hdisabled hupgrade
  · exact ⟨id, .inl rfl⟩
  · exact ⟨id, .inl rfl⟩
  · exact ⟨id, .inl rfl⟩
  · exact ⟨fun h => (by cases h), .inr ⟨not_not.mp hupgrade, rfl⟩⟩
  · exact ⟨fun h => (by cases h), .inl rfl⟩

lemma getAll_webResponse (response : ResponseHeader) (name : Bytes) :
    MultiMap.getAll (webResponse response).headers name =
      if name = transferEncodingName then [ascii "chunked"] else if name = contentLengthName then []
      else if name = contentTypeName then [Replace.replaceAll grpcType grpcWebType (contentTypeText response.headers)]
      else MultiMap.getAll response.headers name := by
  rw [webResponse, ResponseHeader.insertTypedHeader, MultiMap.getAll_insert]
  refine if_congr Iff.rfl rfl ?_
  refine (MultiMap.getAll_remove _ _ _).trans (if_congr Iff.rfl rfl ?_)
  exact MultiMap.getAll_insert _ _ _ _

lemma getAll_stripDohCachingHeaders (response : ResponseHeader) {name : Bytes} (h : name ∉ dohNames) :
    MultiMap.getAll (stripDohCachingHeaders response).headers name = MultiMap.getAll response.headers name := by
  have hremoved : (dohNames.foldl ResponseHeader.removeHeader response).headers =
      MultiMap.removeAll response.headers dohNames := by
    rw [foldl_removeHeader_response]
  have hcontrol : name ≠ ascii "cache-control" := by
    rintro rfl
    exact h (by decide)
  change MultiMap.getAll ((dohNames.foldl ResponseHeader.removeHeader response).insertTypedHeader _ _).headers name = _
  rw [ResponseHeader.insertTypedHeader, MultiMap.getAll_insert_of_ne hcontrol, hremoved, MultiMap.getAll_removeAll,
    if_neg h]

section

variable {env : Surroundings} {g : Gateway env} {C : HttpCrate} {session : Session} {plan : PreparedPlan}
variable {response : ResponseHeader}

lemma getAll_decorateResponse (response : ResponseHeader) (name : Bytes) :
    MultiMap.getAll (decorateResponse g session plan response).headers name =
      if MultiMap.getAll (addedFields g session plan) name = [] then MultiMap.getAll response.headers name
      else MultiMap.getAll (addedFields g session plan) name := by
  have hnodup := (addedFields_names g session plan).nodup (by decide)
  rw [decorateResponse_eq]
  exact MultiMap.getAll_insertAll_of_nodup hnodup _ _

lemma getAll_addedFields_of_not_fixed {name : Bytes} (h : isFixedResponseRemovedHeader name = false) :
    MultiMap.getAll (addedFields g session plan) name = [] := by
  by_contra hne
  have hmem : name ∈ (addedFields g session plan).map Prod.fst :=
    List.mem_dedup.mp (MultiMap.mem_keys_iff.mpr hne)
  have hfixed : ∀ name ∈ ["x-content-type-options", "strict-transport-security", "x-frame-options", "referrer-policy",
      "alt-svc"].map ascii, isFixedResponseRemovedHeader name = true := by
    decide
  rw [hfixed name ((addedFields_names g session plan).subset hmem)] at h
  cases h

lemma mem_changedNames {route : RouteClass} {ctx : ResponseContext} {name : Bytes} :
    name ∈ changedNames route ctx ↔ ctx.grpcWeb = .upgrade ∧ name ∈ webNames ∨
      ctx.compressor.isSome = true ∧ name ∈ recodedNames ∨ route = .doh ∧ name ∈ dohNames := by
  simp only [changedNames, List.mem_append, List.mem_ite_nil_right, or_assoc]

lemma not_changed_of_fixed {route : RouteClass} {ctx : ResponseContext} {name : Bytes}
    (h : isFixedResponseRemovedHeader name = true) : name ∉ changedNames route ctx := by
  have hall : ∀ name ∈ fixedRequestHopHeaders ++ upstreamIdentityHeaders,
      name ∉ webNames ∧ name ∉ recodedNames ∧ name ∉ dohNames := by decide
  obtain ⟨hweb, hrecoded, hdoh⟩ := hall name (mem_of_isFixedResponseRemovedHeader h)
  simp only [mem_changedNames, hweb, hrecoded, hdoh, and_false, or_false, not_false_eq_true]

/-- The filters turn nothing on that was not on before. -/
lemma changedNames_subset {route : RouteClass} {ctx ctx' : ResponseContext}
    (hweb : ctx'.grpcWeb = .upgrade → ctx.grpcWeb = .upgrade) (hcompressor : ctx'.compressor.isSome = ctx.compressor.isSome) :
    changedNames route ctx' ⊆ changedNames route ctx := by
  intro name hname
  rw [mem_changedNames, hcompressor] at hname
  exact mem_changedNames.mpr (hname.imp_left fun h => ⟨hweb h.1, h.2⟩)

/-- Stripping keeps the fields that are neither fixed nor nominated. -/
lemma getAll_stripped_of_kept {stripped : ResponseHeader} {forwardsUpgrade : Bool}
    (h : stripResponseHopHeaders C response forwardsUpgrade = .ok stripped) {name : Bytes}
    (hfixed : isFixedResponseRemovedHeader name = false) (hnominated : ¬Nominated response.headers name)
    (hlength : name ≠ contentLengthName) :
    MultiMap.getAll stripped.headers name = MultiMap.getAll response.headers name := by
  obtain ⟨hoptions, headers, hnormalized, hheaders⟩ := stripResponseHopHeaders_eq_ok h
  have hkept : MultiMap.getAll headers name = MultiMap.getAll response.headers name := by
    rw [hnormalized.others name hlength, getAll_removed, if_neg]
    rw [hoptions.mem_namesOf_iff, hfixed]
    exact fun hor => hor.elim Bool.false_ne_true hnominated
  rcases hheaders with ⟨-, hheaders⟩ | ⟨-, upgrade, -, hheaders⟩
  · rw [hheaders, hkept]
  · have hne : name ≠ connectionName ∧ name ≠ upgradeName := by
      constructor
      · rintro rfl
        cases hfixed
      · rintro rfl
        cases hfixed
    rw [hheaders, MultiMap.getAll_insert_of_ne hne.1, MultiMap.getAll_insert_of_ne hne.2, hkept]

/-- The length is read once more, or stays as it is. -/
lemma lengthKept_stripped {stripped : ResponseHeader} {forwardsUpgrade : Bool}
    (h : stripResponseHopHeaders C response forwardsUpgrade = .ok stripped) :
    LengthKept response.headers stripped.headers := by
  obtain ⟨hoptions, headers, hnormalized, hheaders⟩ := stripResponseHopHeaders_eq_ok h
  have hbefore : MultiMap.getAll (MultiMap.removeAll (MultiMap.removeAll response.headers
      (namesOf C (connectionOptions response.headers)))
      ((MultiMap.keys response.headers).filter isFixedResponseRemovedHeader)) contentLengthName =
        MultiMap.getAll response.headers contentLengthName := by
    rw [getAll_removed, if_neg]
    rw [hoptions.mem_namesOf_iff]
    exact fun hor => hoptions.ne_contentLength (p := isFixedResponseRemovedHeader) rfl hor rfl
  have hafter : MultiMap.getAll stripped.headers contentLengthName = MultiMap.getAll headers contentLengthName := by
    rcases hheaders with ⟨-, hheaders⟩ | ⟨-, upgrade, -, hheaders⟩
    · rw [hheaders]
    · rw [hheaders, MultiMap.getAll_insert_of_ne (by decide), MultiMap.getAll_insert_of_ne (by decide)]
  rw [LengthKept, hafter, ← hbefore]
  rcases hnormalized.length with hnone | ⟨value, n, hvalue, htext, -, hpresent, htokens⟩
  · exact .inl hnone
  · exact .inr ⟨value, n, hvalue, htext, hpresent, htokens⟩

lemma getAll_applyWebResponse (grpcWeb : GrpcWebCtx) (response : ResponseHeader) {name : Bytes}
    (h : grpcWeb = .upgrade → name ∉ webNames) :
    MultiMap.getAll (applyWebResponse grpcWeb response).2.headers name = MultiMap.getAll response.headers name := by
  rcases (applyWebResponse_cases grpcWeb response).2 with hsame | ⟨hupgrade, hweb⟩
  · rw [hsame]
  · have hname := h hupgrade
    simp only [webNames, List.mem_cons, List.not_mem_nil, or_false, not_or] at hname
    rw [hweb, getAll_webResponse, if_neg hname.2.2, if_neg hname.2.1, if_neg hname.1]

lemma lengthFramed_applyWebResponse (grpcWeb : GrpcWebCtx) {response : ResponseHeader} (h : LengthFramed response.headers) :
    LengthFramed (applyWebResponse grpcWeb response).2.headers := by
  rcases (applyWebResponse_cases grpcWeb response).2 with hsame | ⟨-, hweb⟩
  · rwa [hsame]
  · rw [hweb]
    refine .of_length_nil ?_
    rw [getAll_webResponse, if_neg (by decide), if_pos rfl]

/-- The view once the response has been stripped, bridged and decorated. -/
lemma clientView_decorated {stripped : ResponseHeader} (ctx : ResponseContext)
    (hstripped : stripResponseHopHeaders C response (switchesProtocols session response) = .ok stripped) :
    ClientView g session plan ctx response
      (decorateResponse g session plan (applyWebResponse ctx.grpcWeb stripped).2) := by
  have hview := responseStripped hstripped
  have hframed : LengthFramed stripped.headers := ⟨hview.length, or_iff_not_imp_left.mpr hview.encoding⟩
  have hplain : ∀ name, isFixedResponseRemovedHeader name = false →
      MultiMap.getAll (decorateResponse g session plan (applyWebResponse ctx.grpcWeb stripped).2).headers name =
        MultiMap.getAll (applyWebResponse ctx.grpcWeb stripped).2.headers name := by
    intro name hfixed
    rw [getAll_decorateResponse, if_pos (getAll_addedFields_of_not_fixed hfixed)]
  have hbridged : ∀ name ∉ changedNames plan.route ctx,
      MultiMap.getAll (applyWebResponse ctx.grpcWeb stripped).2.headers name = MultiMap.getAll stripped.headers name :=
    fun name hname => getAll_applyWebResponse _ _ fun hupgrade hweb =>
      hname (mem_changedNames.mpr (.inl ⟨hupgrade, hweb⟩))
  refine ⟨?_, fun name hfixed hkept => ?_, fun name hname hfixed hnominated => ?_, ?_, fun hname => ?_,
    fun name hname hlength hfixed hnominated => ?_⟩
  · rw [decorateResponse_eq, status_applyWebResponse]
    exact stripResponseHopHeaders_status hstripped
  · rw [getAll_decorateResponse, hbridged name (not_changed_of_fixed hfixed), hview.removed name (.inl hfixed) hkept]
    split
    · next hnone => exact hnone.symm
    · rfl
  · rw [hplain name hfixed, hbridged name hname]
    refine hview.removed name (.inr hnominated) ?_
    rintro ⟨-, rfl | rfl⟩
    · cases hfixed
    · cases hfixed
  · exact (lengthFramed_applyWebResponse _ hframed).congr (hplain _ (by decide)) (hplain _ (by decide))
  · rw [LengthKept, hplain _ (by decide), hbridged _ hname]
    exact lengthKept_stripped hstripped
  · rw [hplain name hfixed, hbridged name hname, getAll_stripped_of_kept hstripped hfixed hnominated hlength]

namespace ClientView

variable {ctx : ResponseContext} {sent sent' : ResponseHeader}

/-- A later filter that changes the names above only and keeps the framing keeps the view. -/
lemma changed (h : ClientView g session plan ctx response sent) (hstatus : sent'.status = sent.status)
    (hframed : LengthFramed sent'.headers) (hothers : ∀ name ∉ changedNames plan.route ctx,
      MultiMap.getAll sent'.headers name = MultiMap.getAll sent.headers name) :
    ClientView g session plan ctx response sent' where
  status := hstatus.trans h.status
  policy name hfixed hkept := (hothers name (not_changed_of_fixed hfixed)).trans (h.policy name hfixed hkept)
  nominated name hname hfixed hnominated := (hothers name hname).trans (h.nominated name hname hfixed hnominated)
  framed := hframed
  length hname := by
    rw [LengthKept, hothers _ hname]
    exact h.length hname
  others name hname hlength hfixed hnominated :=
    (hothers name hname).trans (h.others name hname hlength hfixed hnominated)

/-- With more names that may change the view says less. -/
lemma mono {ctx' : ResponseContext} (h : ClientView g session plan ctx' response sent)
    (hsubset : changedNames plan.route ctx' ⊆ changedNames plan.route ctx) :
    ClientView g session plan ctx response sent where
  status := h.status
  policy := h.policy
  nominated name hname := h.nominated name fun hmem => hname (hsubset hmem)
  framed := h.framed
  length hname := h.length fun hmem => hname (hsubset hmem)
  others name hname := h.others name fun hmem => hname (hsubset hmem)

lemma stripDoh (h : ClientView g session plan ctx response sent) (hroute : plan.route = .doh) :
    ClientView g session plan ctx response (stripDohCachingHeaders sent) := by
  refine h.changed rfl ?_ fun name hname => getAll_stripDohCachingHeaders sent fun hdoh =>
    hname (mem_changedNames.mpr (.inr (.inr ⟨hroute, hdoh⟩)))
  exact h.framed.congr (getAll_stripDohCachingHeaders sent (by decide)) (getAll_stripDohCachingHeaders sent (by decide))

lemma recoded (h : ClientView g session plan ctx response sent) {compressor compressor' : Option CompressionCtx}
    {endOfStream : Bool} (hinstalled : compressor.isSome = ctx.compressor.isSome)
    (hfilter : moduleHeaderFilter compressor sent endOfStream = .ok (compressor', sent')) :
    ClientView g session plan ctx response sent' := by
  unfold moduleHeaderFilter at hfilter
  split at hfilter
  · obtain ⟨-, rfl⟩ := Prod.mk.inj (Except.ok.inj hfilter)
    exact h
  have hkept : ∀ name ∉ changedNames plan.route ctx, name ∉ recodedNames :=
    fun name hname hrecoded => hname (mem_changedNames.mpr (.inr (.inl ⟨hinstalled.symm, hrecoded⟩)))
  split at hfilter
  · next hheader =>
    obtain ⟨-, rfl⟩ := Prod.mk.inj (Except.ok.inj hfilter)
    rcases CompressionCtx.responseHeaderFilter_cases hheader with rfl | rfl | ⟨algorithm, hrecoded⟩
    · exact h
    · refine h.changed ?_ ?_ fun name hname => ?_
      · unfold addVaryHeader
        dsimp only
        split
        · rfl
        · rfl
      · exact h.framed.congr (getAll_addVaryHeader _ _ (by decide)) (getAll_addVaryHeader _ _ (by decide))
      · refine getAll_addVaryHeader _ _ ?_
        rintro rfl
        exact hkept _ hname (by decide)
    · exact h.changed hrecoded.status (.of_length_nil hrecoded.length) fun name hname =>
        hrecoded.others name (hkept name hname)
  · cases hfilter

end ClientView

/-- The gate passes a header, without its cache fields for a DNS answer, and installs no compressor. -/
lemma gateCompression_eq_ok {route : RouteClass} {ctx ctx' : ResponseContext} {response filtered : ResponseHeader}
    (h : gateCompression route ctx response = .ok (ctx', filtered)) :
    ctx'.grpcWeb = ctx.grpcWeb ∧ ctx'.compressor.isSome = ctx.compressor.isSome ∧
      (filtered = response ∨ route = .doh ∧ filtered = stripDohCachingHeaders response) := by
  have hadjusted : ∀ adjusted, adjustCompressor ctx response = .ok adjusted →
      adjusted.grpcWeb = ctx.grpcWeb ∧ adjusted.compressor.isSome = ctx.compressor.isSome := by
    intro adjusted h
    unfold adjustCompressor at h
    dsimp only at h
    split at h
    · obtain ⟨compressor, hdisabled, h⟩ := except_bind_eq_ok.mp h
      split at h
      · cases h
      · obtain rfl := Except.ok.inj h
        exact ⟨rfl, isSome_disableCompressor hdisabled⟩
    · obtain rfl := Except.ok.inj h
      exact ⟨rfl, rfl⟩
  unfold gateCompression at h
  split at h
  · obtain ⟨rfl, rfl⟩ := Prod.mk.inj (Except.ok.inj h)
    exact ⟨rfl, rfl, .inl rfl⟩
  · obtain ⟨adjusted, hadjust, h⟩ := except_bind_eq_ok.mp h
    obtain ⟨rfl, rfl⟩ := Prod.mk.inj (Except.ok.inj h)
    obtain ⟨hweb, hcompressor⟩ := hadjusted _ hadjust
    refine ⟨hweb, hcompressor, ?_⟩
    split
    · next hroute => exact .inr ⟨hroute, rfl⟩
    · exact .inl rfl

/-- What one step adds, with the names that the later steps may still change. -/
lemma step_sent {s t : Downstream} {task : ResponseTask} (h : Downstream.step g C session plan s task = .ok t) :
    changedNames plan.route t.ctx ⊆ changedNames plan.route s.ctx ∧
    ∃ sent, t.sent = s.sent ++ [sent] ∧ ∀ header endOfStream, sent = .header header endOfStream →
      ∃ response, task = .header response endOfStream ∧ ClientView g session plan s.ctx response header := by
  cases task with
  | header response endOfStream =>
    rw [Downstream.step] at h
    obtain ⟨⟨ctx, filtered⟩, hfilter, h⟩ := except_bind_eq_ok.mp h
    obtain ⟨⟨compressor, header⟩, hmodule, h⟩ := except_bind_eq_ok.mp h
    rw [responseFilter] at hfilter
    obtain ⟨stripped, hstripped, hgate⟩ := except_bind_eq_ok.mp hfilter
    obtain ⟨hweb, hinstalled, hfiltered⟩ := gateCompression_eq_ok hgate
    obtain rfl := Except.ok.inj h
    refine ⟨changedNames_subset ?_ ((isSome_moduleHeaderFilter hmodule).trans hinstalled),
      .header header endOfStream, rfl, ?_⟩
    · intro hupgrade
      exact (applyWebResponse_cases s.ctx.grpcWeb stripped).1 (hweb.symm.trans hupgrade)
    intro header' endOfStream' hsame
    obtain ⟨rfl, rfl⟩ := SentTask.header.inj hsame
    refine ⟨response, rfl, ?_⟩
    have hdecorated : ClientView g session plan s.ctx response
        (decorateResponse g session plan (applyWebResponse s.ctx.grpcWeb stripped).2) :=
      clientView_decorated s.ctx hstripped
    have hgated : ClientView g session plan s.ctx response filtered := by
      rcases hfiltered with rfl | ⟨hroute, rfl⟩
      · exact hdecorated
      · exact hdecorated.stripDoh hroute
    exact hgated.recoded hinstalled hmodule
  | body chunk =>
    rw [Downstream.step] at h
    obtain ⟨⟨compressor, encoder⟩, hmodule, h⟩ := except_bind_eq_ok.mp h
    obtain rfl := Except.ok.inj h
    refine ⟨changedNames_subset id (isSome_moduleBodyFilter hmodule), .body encoder chunk.bytes, rfl, ?_⟩
    intro header endOfStream hsame
    cases hsame

end

/-- Whatever an upstream says and in whatever order its headers and chunks come, every header that is sent has the
status and the ordinary fields of one that came, and says about connections, servers and security what the gateway is
configured to say. -/
theorem client_sees_gateway_policy {env : Surroundings} {g : Gateway env} {C : HttpCrate} {session : Session}
    {plan : PreparedPlan} {ctx : ResponseContext} {tasks : List ResponseTask} {s : Downstream}
    (h : Downstream.run g C session plan ⟨ctx, []⟩ tasks = .ok s) {header : ResponseHeader} {endOfStream : Bool}
    (hsent : .header header endOfStream ∈ s.sent) :
    ∃ response, .header response endOfStream ∈ tasks ∧ ClientView g session plan ctx response header := by
  have hrun : ∀ (tasks : List ResponseTask) (s t : Downstream), Downstream.run g C session plan s tasks = .ok t →
      .header header endOfStream ∈ t.sent → .header header endOfStream ∈ s.sent ∨
        ∃ response, .header response endOfStream ∈ tasks ∧ ClientView g session plan s.ctx response header := by
    intro tasks
    induction tasks with
    | nil =>
      intro s t h hmem
      rw [← Except.ok.inj h] at hmem
      exact .inl hmem
    | cons task tasks ih =>
      intro s t h hmem
      rw [Downstream.run, List.foldlM_cons] at h
      obtain ⟨between, hstep, h⟩ := except_bind_eq_ok.mp h
      obtain ⟨hsubset, sent, hsent, hview⟩ := step_sent hstep
      rcases ih between t h hmem with hbefore | ⟨response, htask, hclient⟩
      · rw [hsent, List.mem_append, List.mem_singleton] at hbefore
        rcases hbefore with hbefore | rfl
        · exact .inl hbefore
        · obtain ⟨response, rfl, hclient⟩ := hview header endOfStream rfl
          exact .inr ⟨response, List.mem_cons_self, hclient⟩
      · exact .inr ⟨response, List.mem_cons_of_mem _ htask, hclient.mono hsubset⟩
  rcases hrun tasks ⟨ctx, []⟩ s h hsent with hnone | hsome
  · cases hnone
  · exact hsome

/-- The header of the page as it is sent. -/
def pageSent : ResponseHeader where
  status := 200
  headers := [(contentTypeName, ascii "text/html"), (ascii "x-content-type-options", ascii "nosniff"),
    (ascii "strict-transport-security", ascii "max-age=63072000; includeSubDomains; preload"),
    (varyName, acceptEncodingName), (contentEncodingName, ascii "gzip"), (transferEncodingName, ascii "chunked")]

theorem page_header_view : ∃ s response, pageRun = .ok s ∧ .header pageSent false ∈ s.sent ∧
    ClientView (exampleGateway true) pageSession pagePlan
      (.new .disabled (requestEncoding pageSession.request .adguardUi none)) response pageSent := by
  have hsent : (pageRun.toOption.map fun s => decide (.header pageSent false ∈ s.sent)) = some true := by
    decide +kernel
  cases hrun : pageRun with
  | error e =>
    rw [hrun] at hsent
    cases hsent
  | ok s =>
    rw [hrun] at hsent
    have hmem : .header pageSent false ∈ s.sent := of_decide_eq_true (Option.some.inj hsent)
    obtain ⟨response, -, hview⟩ := client_sees_gateway_policy hrun hmem
    exact ⟨s, response, rfl, hmem, hview⟩

end Pingola
