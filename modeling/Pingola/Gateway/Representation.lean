import Pingola.Gateway.Transparency

/-!
# Representations of cached Navidrome responses

The cache keeps the bytes that Navidrome sent and forgets their content coding. A cached reply has
no `Content-Encoding`, so it denotes the document of the original response only where the bytes
mean the same without their coding.
-/

namespace Pingola
open ByteText

/-- The content codings of a response, in the order of application. -/
def contentCodings (headers : HeaderMap) : List Bytes := MultiMap.getAll headers (ascii "content-encoding")

lemma contentCodings_insertTypedHeader (header : ResponseHeader) {name : Bytes} (value : Bytes)
    (h : ascii "content-encoding" ≠ name) :
    contentCodings (header.insertTypedHeader name value).headers = contentCodings header.headers :=
  MultiMap.getAll_insert_of_ne h header.headers value

lemma contentCodings_insertSecurityHeaders (header : ResponseHeader) (handler : HandlerKind) (tls : Bool) :
    contentCodings (insertSecurityHeaders header handler tls).headers = contentCodings header.headers := by
  have hsniff : ascii "content-encoding" ≠ ascii "x-content-type-options" := by decide
  have hsts : ascii "content-encoding" ≠ ascii "strict-transport-security" := by decide
  have hframe : ascii "content-encoding" ≠ ascii "x-frame-options" := by decide
  have hreferrer : ascii "content-encoding" ≠ ascii "referrer-policy" := by decide
  unfold insertSecurityHeaders
  cases tls <;> cases handler <;>
    simp [contentCodings_insertTypedHeader, hsniff, hsts, hframe, hreferrer]

/-- A reply from the cache names no content coding. -/
lemma contentCodings_cachedResponseHeader {env : Surroundings} (g : Gateway env) (session : Session)
    {plan : PreparedPlan} (hroute : plan.route ≠ .doh) (response : CachedHttpResponse) :
    contentCodings (cachedResponseHeader g session plan response).headers = [] := by
  have htype : ascii "content-encoding" ≠ ascii "content-type" := by decide
  have hlength : ascii "content-encoding" ≠ ascii "content-length" := by decide
  have halt : ascii "content-encoding" ≠ ascii "alt-svc" := by decide
  have hempty : contentCodings [] = [] := rfl
  unfold cachedResponseHeader
  simp only [hroute, if_false]
  split <;> split_ifs <;>
    simp only [contentCodings_insertTypedHeader, contentCodings_insertSecurityHeaders, htype, hlength, halt,
      ne_eq, not_false_eq_true, hempty]

/-! ### The response of an upstream -/

namespace GatewayEvent

/-- A header starts the response of an exchange anew, a body part extends it. -/
def extendResponse (i : ℕ) (response : Option (ResponseHeader × Bytes)) :
    GatewayEvent → Option (ResponseHeader × Bytes)
  | .responseHeader j header => if j = i then some (header, []) else response
  | .responseBody j chunk _ _ _ =>
    if j = i then response.map fun r => (r.1, r.2 ++ chunk.getD []) else response
  | _ => response

def isBody (i : ℕ) : GatewayEvent → Bool
  | .responseBody j .. => j = i
  | _ => false

lemma bodyPart_of_not_isBody {i : ℕ} {ev : GatewayEvent} (h : ev.isBody i = false) : ev.bodyPart i = [] := by
  cases ev <;> simp_all [isBody, bodyPart]

end GatewayEvent

/-- The last response that the upstream of an exchange has sent. -/
def responseOf (events : List GatewayEvent) (i : ℕ) : Option (ResponseHeader × Bytes) :=
  events.foldl (GatewayEvent.extendResponse i) none

/-- No response header of an exchange comes after a part of a body: its upstream was not tried
again once it had begun to answer. -/
def OneAttempt (events : List GatewayEvent) (i : ℕ) : Prop :=
  events.Pairwise fun a b => a.isBody i = true → b.headerPart i = none

instance (events : List GatewayEvent) (i : ℕ) : Decidable (OneAttempt events i) := by
  unfold OneAttempt
  infer_instance

/-- The body collected over one attempt is the body of the response. -/
lemma OneAttempt.responseOf_eq {events : List GatewayEvent} {i : ℕ} (h : OneAttempt events i) :
    ∀ header, headerOf events i = some header → responseOf events i = some (header, bodyOf events i) := by
  induction events using List.reverseRecOn with
  | nil => simp [headerOf]
  | append_singleton events ev ih =>
    intro header hheader
    obtain ⟨hevents, -, hlast⟩ := List.pairwise_append.mp h
    rw [headerOf_append] at hheader
    rw [responseOf, List.foldl_append, bodyOf_append]
    change GatewayEvent.extendResponse i (responseOf events i) ev = _
    cases hpart : ev.headerPart i with
    | some header' =>
      -- the attempt starts here, so nothing was collected before
      have hnone : bodyOf events i = [] := by
        refine List.flatMap_eq_nil_iff.mpr fun a ha => GatewayEvent.bodyPart_of_not_isBody ?_
        by_contra hbody
        have := hlast a ha ev (by simp) (by simpa using hbody)
        simp [hpart] at this
      obtain rfl : header' = header := by simpa [hpart] using hheader
      cases ev <;> simp_all [GatewayEvent.headerPart, GatewayEvent.extendResponse, GatewayEvent.bodyPart]
    | none =>
      rw [hpart, Option.none_or] at hheader
      rw [ih hevents header hheader]
      cases ev <;> simp_all [GatewayEvent.headerPart, GatewayEvent.extendResponse, GatewayEvent.bodyPart]
      split_ifs <;> simp

section
variable {env : Surroundings} {g : Gateway env} {H : AHasher UInt64} {events : List GatewayEvent}
  {s : GatewayState} {i : ℕ} {ex : Exchange}

/-- A cached reply of the Navidrome API carries the bytes that the source of its hit collected from a response
with status 200 under the same key, which are the body of that response if it came in one attempt. It denotes the
document of the response exactly where the bytes denote the same document without their content coding. -/
theorem navidrome_hit_document_iff {Doc : Type} (decode : List Bytes → Bytes → Doc)
    (hrun : g.Run H events s) (hex : s.exchanges i = some ex)
    (hroute : ex.plan.route = .navidromeApi) {served : ResponseHeader} {body : Bytes}
    (hreply : ex.reply = some (served, body)) :
    ∃ hit ∈ ex.hits, ∃ key j exj header, hit.source = some j ∧ hit.response.body = body ∧
      ex.requestKey H g.settings = some key ∧ s.exchanges j = some exj ∧
      exj.requestKey H g.settings = some key ∧ headerOf events j = some header ∧ bodyOf events j = body ∧
      (OneAttempt events j → responseOf events j = some (header, body)) ∧ header.status = 200 ∧
      (decode (contentCodings served.headers) body = decode (contentCodings header.headers) body ↔
        decode [] body = decode (contentCodings header.headers) body) := by
  have hinv := (gatewayInv_of_run hrun).exchanges i ex hex
  obtain ⟨hit, hmem, hserved⟩ := hinv.reply _ hreply
  obtain ⟨key, j, value, now, queryId, -, hkey, hsource, horigin, hmat⟩ := hinv.hits hit hmem
  obtain ⟨exj, header, hexj, -, hkeyj, hbody, hheader, hstatus⟩ := horigin
  obtain ⟨rfl, rfl⟩ := Prod.mk.inj hserved
  have hvalue : bodyOf events j = hit.response.body := by
    rw [hroute] at hmat
    rw [← Option.some.inj hmat, hbody]
  refine ⟨hit, hmem, key, j, exj, header, hsource, rfl, hkey, hexj, hkeyj, hheader, hvalue, ?_, hstatus, ?_⟩
  · intro hattempt
    rw [hattempt.responseOf_eq header hheader, hvalue]
  · rw [contentCodings_cachedResponseHeader g ex.session (by simp [hroute])]

end

/-! ### A compressed response -/

/-- The content of a gzip member with one stored block. -/
def gunzipStored (body : Bytes) : Option Bytes :=
  if body.take 4 = [0x1f, 0x8b, 8, 0] ∧ (body.drop 10).head? = some 1 then
    let length := (body.getD 11 0).toNat + 256 * (body.getD 12 0).toNat
    if body.length = length + 23 then some ((body.drop 15).take length) else none
  else none

def decodeBody (codings : List Bytes) (body : Bytes) : Option Bytes :=
  if codings = [] then some body
  else if codings = [ascii "gzip"] then gunzipStored body
  else none

def exampleDocument : Bytes := ascii "\x7b\"subsonic-response\":\x7b\"status\":\"ok\"\x7d\x7d"

/-- The header of the response and the two parts of its body. -/
def apiResponse (compressed : Bool) : ResponseHeader × Bytes × Bytes :=
  if compressed then
    (⟨200, [(ascii "content-type", jsonContentType), (ascii "content-encoding", ascii "gzip")]⟩,
      [31, 139, 8, 0, 0, 0, 0, 0, 0, 255], [1, 37, 0, 218, 255] ++ exampleDocument ++
        [246, 118, 221, 163, 37, 0, 0, 0])
  else (⟨200, [(ascii "content-type", jsonContentType)]⟩, exampleDocument.take 10, exampleDocument.drop 10)

def apiBody (compressed : Bool) : Bytes := (apiResponse compressed).2.1 ++ (apiResponse compressed).2.2

def exampleAlbum : Bytes := ascii "/rest/getAlbum.view?u=alice&p=secret&id=1&f=json"

/-- A client that accepts gzip asks for an album, then another client does. -/
def apiEvents (compressed : Bool) : List GatewayEvent :=
  [exampleRequest 0 (ascii "music.tae00217.cloud") exampleAlbum [(ascii "accept-encoding", ascii "gzip")] 0,
    .proxy 0 false 0,
    .responseHeader 0 (apiResponse compressed).1,
    .responseBody 0 (some (apiResponse compressed).2.1) false 0 [],
    .responseBody 0 (some (apiResponse compressed).2.2) true 0 [],
    exampleRequest 1 (ascii "music.tae00217.cloud") exampleAlbum [] (fromSecs 1)]

def apiRun (compressed : Bool) : Option GatewayState :=
  Runs.exec (GatewayState.step (exampleGateway true) fnvHasher) (.init (exampleGateway true)) (apiEvents compressed)

/-- The second client gets the bytes of the first response, without a content coding. -/
lemma apiRun_observed (compressed : Bool) : ((apiRun compressed).bind fun s => (s.exchanges 1).bind fun ex =>
    ex.reply.map fun reply => (ex.plan.route, contentCodings reply.1.headers, reply.2)) =
      some (.navidromeApi, [], apiBody compressed) := by
  revert compressed
  decide +kernel

lemma apiRun_spec (compressed : Bool) :
    ∃ (s : GatewayState) (ex : Exchange) (served : ResponseHeader),
      (exampleGateway true).Run fnvHasher (apiEvents compressed) s ∧ s.exchanges 1 = some ex ∧
      ex.plan.route = .navidromeApi ∧ ex.reply = some (served, apiBody compressed) ∧
      contentCodings served.headers = [] := by
  obtain ⟨s, hs, h⟩ := Option.bind_eq_some_iff.mp (apiRun_observed compressed)
  obtain ⟨ex, hex, h⟩ := Option.bind_eq_some_iff.mp h
  obtain ⟨⟨served, body⟩, hreply, h⟩ := Option.map_eq_some_iff.mp h
  obtain ⟨hroute, hcodings, rfl⟩ : _ ∧ _ ∧ _ = _ := by simpa only [Prod.mk.injEq] using h
  exact ⟨s, ex, served, Runs.run_of_exec hs, hex, hroute, hreply, hcodings⟩

lemma apiEvents_oneAttempt (compressed : Bool) (j : ℕ) : OneAttempt (apiEvents compressed) j := by
  simp [OneAttempt, apiEvents, exampleRequest, GatewayEvent.isBody, GatewayEvent.headerPart]

/-- The second client of an uncompressed response. -/
theorem navidrome_hit_document_identity :
    ∃ (s : GatewayState) (ex : Exchange) (served : ResponseHeader),
      (exampleGateway true).Run fnvHasher (apiEvents false) s ∧ s.exchanges 1 = some ex ∧
      ex.plan.route = .navidromeApi ∧ ex.reply = some (served, exampleDocument) ∧
      ∃ hit ∈ ex.hits, ∃ j header, hit.source = some j ∧ OneAttempt (apiEvents false) j ∧
        responseOf (apiEvents false) j = some (header, exampleDocument) ∧ header.status = 200 ∧
        (decodeBody (contentCodings served.headers) exampleDocument =
            decodeBody (contentCodings header.headers) exampleDocument ↔
          decodeBody [] exampleDocument = decodeBody (contentCodings header.headers) exampleDocument) := by
  obtain ⟨s, ex, served, hrun, hex, hroute, hreply, -⟩ := apiRun_spec false
  have hbody : apiBody false = exampleDocument := List.take_append_drop 10 exampleDocument
  rw [hbody] at hreply
  obtain ⟨hit, hmem, key, j, exj, header, hsource, -, -, -, -, -, -, hresponse, hstatus, hiff⟩ :=
    navidrome_hit_document_iff decodeBody hrun hex hroute hreply
  have hattempt := apiEvents_oneAttempt false j
  exact ⟨s, ex, served, hrun, hex, hroute, hreply, hit, hmem, j, header, hsource, hattempt, hresponse hattempt,
    hstatus, hiff⟩

/-- The upstream is told that the first client accepts gzip and answers in gzip; the second client
gets the compressed bytes as a plain document. -/
theorem navidrome_hit_loses_coding :
    ∃ (s : GatewayState) (ex : Exchange) (served header : ResponseHeader) (body : Bytes),
      (exampleGateway true).Run fnvHasher (apiEvents true) s ∧
      upstreamAcceptEncoding .navidromeApi (exampleSession (ascii "music.tae00217.cloud") exampleAlbum
        [(ascii "accept-encoding", ascii "gzip")]).request = some (ascii "gzip") ∧
      responseOf (apiEvents true) 0 = some (header, body) ∧
      decodeBody (contentCodings header.headers) body = some exampleDocument ∧
      s.exchanges 1 = some ex ∧ ex.reply = some (served, body) ∧
      decodeBody (contentCodings served.headers) body ≠ some exampleDocument := by
  obtain ⟨s, ex, served, hrun, hex, -, hreply, hcodings⟩ := apiRun_spec true
  have horigin : responseOf (apiEvents true) 0 = some ((apiResponse true).1, apiBody true) := by
    decide +kernel
  refine ⟨s, ex, served, _, _, hrun, by decide +kernel, horigin, by decide +kernel, hex, hreply, ?_⟩
  rw [hcodings]
  decide +kernel

end Pingola
