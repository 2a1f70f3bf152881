import Pingola.Cache.DnsAging
import Pingola.Gateway.HopHeaders
import Pingola.Lib.CaseFold
import Pingola.Lib.Replace

/-!
# From gRPC-web to gRPC and back

The bridge of `handlers/grpc.rs` with `GrpcWebCtx` of the vendored `bridge/grpc_web.rs`. A gRPC-web request
becomes a gRPC request; the response becomes a gRPC-web response, whose trailers are the last part of its body.
-/

namespace Pingola
open ByteText

inductive GrpcWebCtx where
  | disabled
  | init
  | upgrade
  | trailers
  | done
  deriving DecidableEq

def grpcType : Bytes := ascii "application/grpc"

def grpcWebType : Bytes := ascii "application/grpc-web"

def contentTypeName : Bytes := ascii "content-type"

/-- The first content type, where it is text. -/
def contentTypeText (headers : HeaderMap) : Bytes :=
  ((HeaderMap.get headers contentTypeName).bind headerValueToStr).getD []

/-- A request for an upstream; its header may end the stream. -/
structure UpstreamRequest where
  request : RequestHeader
  sendEndStream : Bool

def statusIsInformational (status : ℕ) : Bool := decide (100 ≤ status ∧ status < 200)

/-- One line for each trailer. -/
def encodeTrailers (trailers : HeaderMap) : Bytes :=
  trailers.flatMap fun trailer => trailer.1 ++ byte ':' :: trailer.2 ++ [13, 10]

namespace GrpcWebCtx

def requestHeaderFilter (ctx : GrpcWebCtx) (out : UpstreamRequest) : GrpcWebCtx × UpstreamRequest :=
  if ctx ≠ .init then (ctx, out)
  else
    let contentType := contentTypeText out.request.headers
    if grpcWebType.length ≤ contentType.length ∧
        eqIgnoreAsciiCase (contentType.take grpcWebType.length) grpcWebType = true then
      let request := out.request.insertTypedHeader contentTypeName
        (Replace.replaceAll grpcWebType grpcType (toAsciiLowercase contentType))
      let request := request.insertTypedHeader teName (ascii "trailers")
      (.upgrade, ⟨request, false⟩)
    else (ctx, out)

def responseHeaderFilter (ctx : GrpcWebCtx) (response : ResponseHeader) : GrpcWebCtx × ResponseHeader :=
  if ctx ≠ .upgrade then (ctx, response)
  else if statusIsInformational response.status then (ctx, response)
  else
    let contentType := contentTypeText response.headers
    if grpcType.isPrefixOf contentType then
      let response := response.insertTypedHeader contentTypeName
        (Replace.replaceAll grpcType grpcWebType contentType)
      let response := response.removeHeader contentLengthName
      (.trailers, response.insertTypedHeader transferEncodingName (ascii "chunked"))
    else (.disabled, response)

/-- The frame of the trailers; an error leaves the context as it is. -/
def responseTrailerFilter (ctx : GrpcWebCtx) (trailers : HeaderMap) : GrpcWebCtx × Except Bytes (Option Bytes) :=
  if ctx ≠ .trailers then (.disabled, .ok none)
  else
    let encoded := encodeTrailers trailers
    if encoded.length < 2 ^ 32 then (.done, .ok (some (0x80 :: u32Bytes encoded.length ++ encoded)))
    else (ctx, .error (ascii "invalid gRPC trailer length: " ++ natText encoded.length))

end GrpcWebCtx

/-- `grpc::prepare_upstream_request`. -/
def prepareUpstreamRequest (out : UpstreamRequest) (grpcWeb : GrpcWebCtx) (kind : Option GrpcKind) :
    GrpcWebCtx × UpstreamRequest :=
  match kind with
  | some .web => GrpcWebCtx.init.requestHeaderFilter out
  | some .native => (grpcWeb, ⟨out.request.insertTypedHeader teName (ascii "trailers"), false⟩)
  | none => (grpcWeb, out)

/-- `grpc::apply_web_response`. -/
def applyWebResponse (grpcWeb : GrpcWebCtx) (response : ResponseHeader) : GrpcWebCtx × ResponseHeader :=
  if grpcWeb = .disabled then (grpcWeb, response) else grpcWeb.responseHeaderFilter response

/-! ### One exchange -/

/-- What an exchange sends to its upstreams and to its client. -/
structure BridgedExchange where
  ctx : GrpcWebCtx
  requests : List UpstreamRequest
  headers : List ResponseHeader

namespace BridgedExchange

/-- An attempt to reach an upstream. -/
def attempt (kind : Option GrpcKind) (ex : BridgedExchange) (out : UpstreamRequest) : BridgedExchange :=
  let prepared := prepareUpstreamRequest out ex.ctx kind
  { ex with ctx := prepared.1, requests := ex.requests ++ [prepared.2] }

def respond (ex : BridgedExchange) (response : ResponseHeader) : BridgedExchange :=
  let applied := applyWebResponse ex.ctx response
  { ex with ctx := applied.1, headers := ex.headers ++ [applied.2] }

/-- All attempts of an exchange, then its responses, of which only the last one is not informational. -/
def run (kind : Option GrpcKind) (attempts : List UpstreamRequest) (responses : List ResponseHeader) :
    BridgedExchange :=
  responses.foldl respond (attempts.foldl (attempt kind) ⟨.disabled, [], []⟩)

end BridgedExchange

/-! ### Trailers as a client reads them -/

/-- The lines of a text, each with its end; `line` is what has been read of the current one. -/
def readLines : Bytes → Bytes → Option (List Bytes)
  | line, [] => if line = [] then some [] else none
  | line, 13 :: 10 :: text => (readLines [] text).map (line :: ·)
  | line, b :: text => readLines (line ++ [b]) text

/-- The trailers of a frame that fills its length. -/
def readTrailerFrame (frame : Bytes) : Option (List (Bytes × Bytes)) :=
  if frame.head? = some 0x80 ∧ 5 ≤ frame.length ∧ u32At frame 1 = frame.length - 5 then
    (readLines [] (frame.drop 5)).bind fun lines => lines.mapM (splitOnce (byte ':'))
  else none

/-- A trailer that fits on a line and is split at its first colon. -/
def OnLine (trailer : Bytes × Bytes) : Prop := byte ':' ∉ trailer.1 ∧ 13 ∉ trailer.1 ∧ 13 ∉ trailer.2

lemma readLines_append {line more text : Bytes} (h : 13 ∉ more) :
    readLines line (more ++ 13 :: 10 :: text) = (readLines [] text).map ((line ++ more) :: ·) := by
  induction more generalizing line with
  | nil => simp [readLines]
  | cons b more ih =>
    obtain ⟨hb, hmore⟩ := not_or.mp (List.mem_cons.not.mp h)
    have hread : readLines line (b :: (more ++ 13 :: 10 :: text)) =
        readLines (line ++ [b]) (more ++ 13 :: 10 :: text) := by
      rw [readLines]
      exact fun _ h13 => absurd h13.symm hb
    rw [List.cons_append, hread, ih hmore, List.append_assoc, List.singleton_append]

/-- A client reads the trailers back, in their order. -/
lemma readLines_encodeTrailers {trailers : HeaderMap} (h : ∀ trailer ∈ trailers, OnLine trailer) :
    readLines [] (encodeTrailers trailers) =
      some (trailers.map fun trailer => trailer.1 ++ byte ':' :: trailer.2) := by
  induction trailers with
  | nil => rfl
  | cons trailer trailers ih =>
    obtain ⟨htrailer, htrailers⟩ := List.forall_mem_cons.mp h
    have hline : 13 ∉ trailer.1 ++ byte ':' :: trailer.2 := by
      have hcolon : (13 : UInt8) ≠ byte ':' := by decide
      simp [htrailer.2.1, htrailer.2.2, hcolon]
    have hencode : encodeTrailers (trailer :: trailers) =
        (trailer.1 ++ byte ':' :: trailer.2) ++ 13 :: 10 :: encodeTrailers trailers := by
      simp [encodeTrailers]
    rw [hencode, readLines_append hline, ih htrailers]
    rfl

lemma mapM_splitOnce {trailers : HeaderMap} (h : ∀ trailer ∈ trailers, OnLine trailer) :
    (trailers.map fun trailer => trailer.1 ++ byte ':' :: trailer.2).mapM (splitOnce (byte ':')) = some trailers := by
  induction trailers with
  | nil => rfl
  | cons trailer trailers ih =>
    obtain ⟨htrailer, htrailers⟩ := List.forall_mem_cons.mp h
    have hsplit : splitOnce (byte ':') (trailer.1 ++ byte ':' :: trailer.2) = some (trailer.1, trailer.2) :=
      splitOnce_eq_some_iff.mpr ⟨rfl, htrailer.1⟩
    rw [List.map_cons, List.mapM_cons, hsplit, ih htrailers]
    rfl

/-- The length field of a frame. -/
lemma u32At_frame {n : ℕ} (hn : n < 2 ^ 32) (tail : Bytes) : u32At (0x80 :: u32Bytes n ++ tail) 1 = n := by
  have hframe : copyAt (0x80 :: 0 :: 0 :: 0 :: 0 :: tail) 1 (u32Bytes n) = 0x80 :: u32Bytes n ++ tail := rfl
  rw [← hframe]
  exact u32At_copyAt (by simp) hn

lemma readTrailerFrame_encode {trailers : HeaderMap} (h : ∀ trailer ∈ trailers, OnLine trailer)
    (hlength : (encodeTrailers trailers).length < 2 ^ 32) :
    readTrailerFrame (0x80 :: u32Bytes (encodeTrailers trailers).length ++ encodeTrailers trailers) =
      some trailers := by
  have hsize : (0x80 :: u32Bytes (encodeTrailers trailers).length ++ encodeTrailers trailers).length =
      (encodeTrailers trailers).length + 5 := by
    simp [u32Bytes, u16Bytes]
  have hbody : (0x80 :: u32Bytes (encodeTrailers trailers).length ++ encodeTrailers trailers).drop 5 =
      encodeTrailers trailers := rfl
  rw [readTrailerFrame, if_pos, hbody, readLines_encodeTrailers h, Option.bind_some, mapM_splitOnce h]
  refine ⟨rfl, ?_, ?_⟩
  · rw [hsize]
    exact Nat.le_add_left _ _
  · rw [hsize, u32At_frame hlength, Nat.add_sub_cancel]

/-! ### All or nothing -/

/-- The request is one of gRPC-web. -/
def IsGrpcWeb (headers : HeaderMap) : Prop :=
  grpcWebType.length ≤ (contentTypeText headers).length ∧
    eqIgnoreAsciiCase ((contentTypeText headers).take grpcWebType.length) grpcWebType = true

/-- The header of a gRPC response for a client of gRPC-web. -/
def webResponse (response : ResponseHeader) : ResponseHeader :=
  ((response.insertTypedHeader contentTypeName
    (Replace.replaceAll grpcType grpcWebType (contentTypeText response.headers))).removeHeader
      contentLengthName).insertTypedHeader transferEncodingName (ascii "chunked")

namespace BridgedExchange

variable {kind : Option GrpcKind} {ex : BridgedExchange}

/-- Only the last attempt counts. -/
lemma ctx_attempts (attempts : List UpstreamRequest) (last : UpstreamRequest) :
    ((attempts ++ [last]).foldl (attempt kind) ⟨.disabled, [], []⟩).ctx =
      if kind = some .web then (GrpcWebCtx.init.requestHeaderFilter last).1 else .disabled := by
  have hother : kind ≠ some .web → ∀ attempts : List UpstreamRequest,
      (attempts.foldl (attempt kind) ⟨.disabled, [], []⟩).ctx = .disabled := by
    intro hkind attempts
    induction attempts using List.reverseRecOn with
    | nil => rfl
    | append_singleton attempts last ih =>
      rw [List.foldl_append, List.foldl_cons, List.foldl_nil, attempt]
      rcases kind with - | ⟨- | -⟩
      · exact ih
      · exact ih
      · exact absurd rfl hkind
  split_ifs with hkind
  · rw [List.foldl_append, hkind]
    rfl
  · exact hother hkind (attempts ++ [last])

lemma headers_attempts (attempts : List UpstreamRequest) :
    (attempts.foldl (attempt kind) ⟨.disabled, [], []⟩).headers = [] := by
  induction attempts using List.reverseRecOn with
  | nil => rfl
  | append_singleton attempts last ih =>
    rw [List.foldl_append]
    exact ih

/-- Informational responses pass. -/
lemma foldl_respond_interim {interim : List ResponseHeader}
    (h : ∀ response ∈ interim, statusIsInformational response.status = true) :
    interim.foldl respond ex = { ex with headers := ex.headers ++ interim } := by
  induction interim generalizing ex with
  | nil => simp
  | cons response interim ih =>
    obtain ⟨hresponse, hinterim⟩ := List.forall_mem_cons.mp h
    have hpass : ex.respond response = { ex with headers := ex.headers ++ [response] } := by
      simp [respond, applyWebResponse, GrpcWebCtx.responseHeaderFilter, hresponse]
    rw [List.foldl_cons, hpass, ih hinterim]
    simp

lemma run_eq {kind : Option GrpcKind} (attempts : List UpstreamRequest) {interim : List ResponseHeader}
    (h : ∀ response ∈ interim, statusIsInformational response.status = true) (final : ResponseHeader) :
    (run kind attempts (interim ++ [final])).ctx =
        (applyWebResponse (attempts.foldl (attempt kind) ⟨.disabled, [], []⟩).ctx final).1 ∧
      (run kind attempts (interim ++ [final])).headers =
        interim ++ [(applyWebResponse (attempts.foldl (attempt kind) ⟨.disabled, [], []⟩).ctx final).2] := by
  rw [run, List.foldl_append, foldl_respond_interim h, headers_attempts, List.nil_append]
  exact ⟨rfl, rfl⟩

end BridgedExchange

/-- What the bridge makes of a request of gRPC-web. -/
def grpcRequest (out : UpstreamRequest) : UpstreamRequest :=
  ⟨(out.request.insertTypedHeader contentTypeName (Replace.replaceAll grpcWebType grpcType
    (toAsciiLowercase (contentTypeText out.request.headers)))).insertTypedHeader teName (ascii "trailers"), false⟩

lemma requestHeaderFilter_of_web {out : UpstreamRequest} (h : IsGrpcWeb out.request.headers) :
    GrpcWebCtx.init.requestHeaderFilter out = (.upgrade, grpcRequest out) := by
  rw [GrpcWebCtx.requestHeaderFilter, if_neg (not_not_intro rfl)]
  exact if_pos h

lemma requestHeaderFilter_of_not_web {out : UpstreamRequest} (h : ¬IsGrpcWeb out.request.headers) :
    GrpcWebCtx.init.requestHeaderFilter out = (.init, out) := by
  rw [GrpcWebCtx.requestHeaderFilter, if_neg (not_not_intro rfl)]
  exact if_neg h

lemma applyWebResponse_of_ne {ctx : GrpcWebCtx} (h : ctx ≠ .upgrade) (response : ResponseHeader) :
    applyWebResponse ctx response = (ctx, response) := by
  rw [applyWebResponse, GrpcWebCtx.responseHeaderFilter, if_pos h, ite_self]

lemma applyWebResponse_upgrade {response : ResponseHeader} (hfinal : statusIsInformational response.status = false) :
    applyWebResponse .upgrade response =
      if grpcType <+: contentTypeText response.headers then (.trailers, webResponse response)
      else (.disabled, response) := by
  rw [applyWebResponse, if_neg (by decide), GrpcWebCtx.responseHeaderFilter, if_neg (not_not_intro rfl), hfinal,
    if_neg Bool.false_ne_true]
  dsimp only
  simp only [← List.isPrefixOf_iff_prefix]
  rfl

lemma responseTrailerFilter_of_ne {ctx : GrpcWebCtx} (h : ctx ≠ .trailers) (trailers : HeaderMap) :
    (ctx.responseTrailerFilter trailers).2 = .ok none := by
  rw [GrpcWebCtx.responseTrailerFilter, if_pos h]

/-- A response is made one of gRPC-web, with its trailers in its body, exactly when the request has been made one of
gRPC and the upstream answers in gRPC. Otherwise nothing of the response is changed. -/
theorem grpc_web_all_or_nothing (kind : Option GrpcKind) (attempts : List UpstreamRequest) (last : UpstreamRequest)
    (interim : List ResponseHeader) (hinterim : ∀ response ∈ interim, statusIsInformational response.status = true)
    (final : ResponseHeader) (hfinal : statusIsInformational final.status = false) (trailers : HeaderMap) :
    let ex := BridgedExchange.run kind (attempts ++ [last]) (interim ++ [final])
    (kind = some .web ∧ IsGrpcWeb last.request.headers ∧ grpcType <+: contentTypeText final.headers →
      ex.headers = interim ++ [webResponse final] ∧
      ((∀ trailer ∈ trailers, OnLine trailer) → (encodeTrailers trailers).length < 2 ^ 32 →
        ∃ frame, (ex.ctx.responseTrailerFilter trailers).2 = .ok (some frame) ∧
          readTrailerFrame frame = some trailers)) ∧
    (¬(kind = some .web ∧ IsGrpcWeb last.request.headers ∧ grpcType <+: contentTypeText final.headers) →
      ex.headers = interim ++ [final] ∧ (ex.ctx.responseTrailerFilter trailers).2 = .ok none) := by
  intro ex
  obtain ⟨hctx, hheaders⟩ : ex.ctx = _ ∧ ex.headers = _ :=
    BridgedExchange.run_eq (attempts ++ [last]) hinterim final
  rw [BridgedExchange.ctx_attempts] at hctx hheaders
  constructor
  · rintro ⟨hkind, hweb, hgrpc⟩
    rw [if_pos hkind, requestHeaderFilter_of_web hweb, applyWebResponse_upgrade hfinal, if_pos hgrpc] at hctx hheaders
    refine ⟨hheaders, fun honLine hlength => ⟨_, ?_, readTrailerFrame_encode honLine hlength⟩⟩
    rw [hctx, GrpcWebCtx.responseTrailerFilter, if_neg (not_not_intro rfl)]
    dsimp only
    rw [if_pos hlength]
  · intro hnot
    have hpasses : (applyWebResponse (if kind = some .web then (GrpcWebCtx.init.requestHeaderFilter last).1
        else .disabled) final).1 ≠ .trailers ∧
        (applyWebResponse (if kind = some .web then (GrpcWebCtx.init.requestHeaderFilter last).1
          else .disabled) final).2 = final := by
      by_cases hkind : kind = some .web
      · rw [if_pos hkind]
        by_cases hweb : IsGrpcWeb last.request.headers
        · rw [requestHeaderFilter_of_web hweb, applyWebResponse_upgrade hfinal,
            if_neg fun hgrpc => hnot ⟨hkind, hweb, hgrpc⟩]
          exact ⟨nofun, rfl⟩
        · have hinit : GrpcWebCtx.init ≠ .upgrade := nofun
          rw [requestHeaderFilter_of_not_web hweb, applyWebResponse_of_ne hinit]
          exact ⟨nofun, rfl⟩
      · rw [if_neg hkind, applyWebResponse_of_ne (by decide)]
        exact ⟨nofun, rfl⟩
    rw [hheaders, hctx, hpasses.2]
    exact ⟨rfl, responseTrailerFilter_of_ne hpasses.1 trailers⟩

def exampleGrpcWebRequest : UpstreamRequest :=
  ⟨⟨ascii "POST", ⟨false, none, ascii "/pkg.Svc/Method"⟩, .http2,
    [(contentTypeName, ascii "application/gRPC-web+proto")]⟩, true⟩

def exampleGrpcResponse : ResponseHeader := ⟨200, [(contentTypeName, ascii "application/grpc+proto")]⟩

def exampleTrailers : HeaderMap := [(ascii "grpc-status", ascii "0"), (ascii "grpc-message", ascii "a: b")]

/-- A retried call with an early hint. -/
theorem grpc_web_example :
    let ex := BridgedExchange.run (some .web) [exampleGrpcWebRequest, exampleGrpcWebRequest]
      [⟨103, []⟩, exampleGrpcResponse]
    ex.headers = [⟨103, []⟩, webResponse exampleGrpcResponse] ∧
      ∃ frame, (ex.ctx.responseTrailerFilter exampleTrailers).2 = .ok (some frame) ∧
        readTrailerFrame frame = some exampleTrailers := by
  have hall := grpc_web_all_or_nothing (some .web) [exampleGrpcWebRequest] exampleGrpcWebRequest [⟨103, []⟩]
    (by decide) exampleGrpcResponse (by decide) exampleTrailers
  obtain ⟨hheaders, hframe⟩ := hall.1 ⟨rfl, ⟨by decide, by decide +kernel⟩, by decide +kernel⟩
  exact ⟨hheaders, hframe (by unfold OnLine; decide +kernel) (by decide +kernel)⟩

/-! ### Content types -/

lemma replaceAll_grpcWebType {rest : Bytes} (h : ¬grpcType <:+: rest) :
    Replace.replaceAll grpcWebType grpcType (grpcWebType ++ rest) = grpcType ++ rest := by
  have hstarts : grpcType <+: grpcWebType := by decide +kernel
  rw [Replace.replaceAll_append (by decide),
    Replace.replaceAll_of_not_infix fun hweb => h (hstarts.isInfix.trans hweb)]

lemma replaceAll_grpcType {rest : Bytes} (h : ¬grpcType <:+: rest) :
    Replace.replaceAll grpcType grpcWebType (grpcType ++ rest) = grpcWebType ++ rest := by
  rw [Replace.replaceAll_append (by decide), Replace.replaceAll_of_not_infix h]

/-- The upstream is asked in gRPC with the parameters of the client; if it answers in the same type, the client gets
back its own, in lower case. No other field is touched but those of the framing. -/
theorem grpc_web_content_type_round_trip (out : UpstreamRequest) (rest : Bytes)
    (htype : toAsciiLowercase (contentTypeText out.request.headers) = grpcWebType ++ rest)
    (hrest : ¬grpcType <:+: rest) (ctx : GrpcWebCtx) :
    (prepareUpstreamRequest out ctx (some .web)).1 = .upgrade ∧
    (prepareUpstreamRequest out ctx (some .web)).2.sendEndStream = false ∧
    (∀ name, MultiMap.getAll (prepareUpstreamRequest out ctx (some .web)).2.request.headers name =
      if name = contentTypeName then [grpcType ++ rest] else if name = teName then [ascii "trailers"]
      else MultiMap.getAll out.request.headers name) ∧
    ∀ response : ResponseHeader, statusIsInformational response.status = false →
      contentTypeText response.headers = grpcType ++ rest →
      (applyWebResponse .upgrade response).2.status = response.status ∧
      ∀ name, MultiMap.getAll (applyWebResponse .upgrade response).2.headers name =
        if name = contentTypeName then [grpcWebType ++ rest] else if name = transferEncodingName then [ascii "chunked"]
        else if name = contentLengthName then [] else MultiMap.getAll response.headers name := by
  have hweb : IsGrpcWeb out.request.headers := by
    have hlength := congrArg List.length htype
    rw [toAsciiLowercase, List.length_map, List.length_append] at hlength
    have htake : toAsciiLowercase ((contentTypeText out.request.headers).take grpcWebType.length) = grpcWebType := by
      rw [toAsciiLowercase, List.map_take]
      exact (congrArg (List.take _) htype).trans (List.take_left' rfl)
    have hlower : toAsciiLowercase grpcWebType = grpcWebType := by decide +kernel
    exact ⟨hlength ▸ Nat.le_add_right _ _, beq_iff_eq.mpr (htake.trans hlower.symm)⟩
  have hprepared : prepareUpstreamRequest out ctx (some .web) = (.upgrade, grpcRequest out) :=
    requestHeaderFilter_of_web hweb
  rw [hprepared]
  refine ⟨rfl, rfl, fun name => ?_, fun response hfinal hanswer => ?_⟩
  · have hte : contentTypeName ≠ teName := by decide
    simp only [grpcRequest, RequestHeader.insertTypedHeader, MultiMap.getAll_insert, htype,
      replaceAll_grpcWebType hrest]
    by_cases hname : name = contentTypeName
    · rw [hname, if_neg hte, if_pos rfl, if_pos rfl]
    · rw [if_neg hname, if_neg hname]
  · have hgrpc : grpcType <+: contentTypeText response.headers := by
      rw [hanswer]
      exact List.prefix_append _ _
    rw [applyWebResponse_upgrade hfinal, if_pos hgrpc]
    refine ⟨rfl, fun name => ?_⟩
    have hcoding : contentTypeName ≠ transferEncodingName := by decide
    have hlength : contentTypeName ≠ contentLengthName := by decide
    have hremoved : ∀ headers : HeaderMap, MultiMap.getAll (headers.filter fun p => p.1 ≠ contentLengthName) name =
        if name = contentLengthName then [] else MultiMap.getAll headers name :=
      fun headers => MultiMap.getAll_remove headers contentLengthName name
    simp only [webResponse, ResponseHeader.insertTypedHeader, ResponseHeader.removeHeader, MultiMap.getAll_insert,
      hremoved, hanswer, replaceAll_grpcType hrest]
    by_cases hname : name = contentTypeName
    · rw [hname, if_neg hcoding, if_neg hlength, if_pos rfl, if_pos rfl]
    · rw [if_neg hname, if_neg hname]

theorem grpc_web_proto_round_trip :
    (prepareUpstreamRequest exampleGrpcWebRequest .disabled (some .web)).1 = .upgrade ∧
      MultiMap.getAll (applyWebResponse .upgrade exampleGrpcResponse).2.headers contentTypeName =
        [ascii "application/grpc-web+proto"] := by
  have hround := grpc_web_content_type_round_trip exampleGrpcWebRequest (ascii "+proto") (by decide +kernel)
    (by decide +kernel) .disabled
  refine ⟨hround.1, ?_⟩
  rw [(hround.2.2.2 exampleGrpcResponse (by decide) (by decide +kernel)).2 contentTypeName, if_pos rfl]
  decide +kernel

end Pingola
