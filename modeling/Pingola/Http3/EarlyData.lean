import Pingola.Http3.DecodePaths
import Pingola.Lib.CaseFold
import Pingola.Lib.Runs

/-!
# Early data

`handle_connection` and `proxy_request` of `http3.rs` up to the session that goes to the proxy. The
gate for early data reads the first `:method` field without regard to case, the decoders keep its
letters.
-/

namespace Pingola
open ByteText

variable {C : HttpCrate}

structure IncomingH3Headers where
  headers : List H3Header
  readFin : Bool

structure Http3Shared where
  allowEarlyData : Bool
  preserveRequestWire : Bool

/-- The session that `process_new_http` gets. -/
structure ProxiedRequest where
  request : RequestHeader
  requestWire : Option (List (Bytes × Bytes))
  readFin : Bool
  deriving DecidableEq

inductive HeadersAnswer where
  | refused (status : ℕ) (message : Bytes)
  | proxied (session : ProxiedRequest)
  deriving DecidableEq

def earlyDataRequestIsReplaySafe (incoming : IncomingH3Headers) : Bool :=
  if !incoming.readFin then false
  else
    (incoming.headers.find? fun h => h.name = pseudoMethod).any fun h =>
      eqIgnoreAsciiCase h.value (ascii "GET") || eqIgnoreAsciiCase h.value (ascii "HEAD")

def proxyRequest (C : HttpCrate) (shared : Http3Shared) (incoming : IncomingH3Headers) : HeadersAnswer :=
  match decodeRequestHeaders C incoming.headers with
  | .error _ => .refused 400 (ascii "invalid HTTP/3 request")
  | .ok request =>
    if request.method == ascii "CONNECT" then .refused 501 (ascii "HTTP/3 CONNECT is not supported")
    else
      .proxied ⟨request,
        if shared.preserveRequestWire then some (incoming.headers.map fun h => (h.name, h.value)) else none,
        incoming.readFin⟩

/-- A connection: its free stream slots, its requests in progress, and the answers to the requests so
far, with whether they came in early data. -/
structure Http3Connection where
  streamSlots : ℕ
  inflight : ℕ
  answers : List (Bool × HeadersAnswer)

inductive ServerH3Event where
  | headers (incoming : IncomingH3Headers) (isInEarlyData : Bool)
  /-- A request in progress ends. -/
  | complete

namespace Http3Connection

def start (maxStreams : ℕ) : Http3Connection := ⟨maxStreams, 0, []⟩

def answer (c : Http3Connection) (isInEarlyData : Bool) (a : HeadersAnswer) : Http3Connection :=
  { c with answers := c.answers ++ [(isInEarlyData, a)] }

/-- A turn of the loop in `handle_connection`. -/
def step (C : HttpCrate) (shared : Http3Shared) (c : Http3Connection) : ServerH3Event → Option Http3Connection
  | .headers incoming isInEarlyData =>
    if isInEarlyData && (!shared.allowEarlyData || !earlyDataRequestIsReplaySafe incoming) then
      some (c.answer isInEarlyData
        (.refused 425 (ascii "HTTP/3 early data is limited to bodyless GET/HEAD")))
    else if c.streamSlots = 0 then
      some (c.answer isInEarlyData (.refused 503 (ascii "HTTP/3 concurrent stream limit reached")))
    else
      some { c.answer isInEarlyData (proxyRequest C shared incoming) with
        streamSlots := c.streamSlots - 1, inflight := c.inflight + 1 }
  | .complete =>
    if c.inflight = 0 then none
    else some { c with streamSlots := c.streamSlots + 1, inflight := c.inflight - 1 }

end Http3Connection

/-- What may go to the proxy from early data: a GET or HEAD whose body is finished. -/
def ReplaySafe (session : ProxiedRequest) : Prop :=
  (session.request.method = ascii "GET" ∨ session.request.method = ascii "HEAD") ∧ session.readFin = true

instance (session : ProxiedRequest) : Decidable (ReplaySafe session) :=
  inferInstanceAs (Decidable (_ ∧ _))

/-! ### The method of a request that passes the gate -/

lemma find?_pseudoMethod {headers : List H3Header} {method : Bytes}
    (h : fieldValues headers pseudoMethod = [method]) :
    (headers.find? fun x => x.name = pseudoMethod).map H3Header.value = some method := by
  have hhead := congrArg List.head? h
  rw [fieldValues, List.head?_map, List.head?_filter] at hhead
  simpa using hhead

/-- No field under this name has a lower-case letter in its value. -/
def UpperCaseField (headers : List H3Header) (name : Bytes) : Prop :=
  ∀ h ∈ headers, h.name = name → h.value.any isAsciiLowercase = false

instance (headers : List H3Header) (name : Bytes) : Decidable (UpperCaseField headers name) :=
  inferInstanceAs (Decidable (∀ h ∈ headers, h.name = name → h.value.any isAsciiLowercase = false))

lemma upperCaseField_iff {headers : List H3Header} {name value : Bytes}
    (h : fieldValues headers name = [value]) :
    UpperCaseField headers name ↔ value.any isAsciiLowercase = false := by
  have hall : UpperCaseField headers name ↔ ∀ v ∈ fieldValues headers name, v.any isAsciiLowercase = false := by
    simp only [UpperCaseField, fieldValues, List.mem_map, List.mem_filter, decide_eq_true_eq]
    constructor
    · rintro hcase v ⟨x, ⟨hx, hname⟩, rfl⟩
      exact hcase x hx hname
    · intro hcase x hx hname
      exact hcase _ ⟨x, ⟨hx, hname⟩, rfl⟩
  rw [hall, h]
  simp

lemma upperCase_iff_of_fold {method : Bytes}
    (h : toAsciiLowercase method = ascii "get" ∨ toAsciiLowercase method = ascii "head") :
    method.any isAsciiLowercase = false ↔ method = ascii "GET" ∨ method = ascii "HEAD" := by
  constructor
  · intro hupper
    rcases h with h | h
    · exact .inl (eq_of_toAsciiLowercase_eq hupper (by decide) (h.trans (by decide)))
    · exact .inr (eq_of_toAsciiLowercase_eq hupper (by decide) (h.trans (by decide)))
  · rintro (rfl | rfl) <;> decide

section

variable {incoming : IncomingH3Headers} {request : RequestHeader}
  (hgate : earlyDataRequestIsReplaySafe incoming = true)
  (hdecode : decodeRequestHeaders C incoming.headers = .ok request)
include hgate hdecode

/-- A list that passes the gate and is accepted has one `:method`, which is GET or HEAD up to case. -/
lemma method_of_replaySafe : fieldValues incoming.headers pseudoMethod = [request.method] ∧
    (toAsciiLowercase request.method = ascii "get" ∨ toAsciiLowercase request.method = ascii "head") ∧
    incoming.readFin = true := by
  obtain ⟨method, authority, path, hwell, rfl⟩ := decodeRequestHeaders_eq_ok hdecode
  have hfin : incoming.readFin = true := by
    by_contra hfin
    simp [earlyDataRequestIsReplaySafe, hfin] at hgate
  obtain ⟨h, hfind, hvalue⟩ := Option.map_eq_some_iff.mp (find?_pseudoMethod hwell.methodField)
  simp only [earlyDataRequestIsReplaySafe, hfin, hfind, hvalue, Bool.not_true, Bool.false_eq_true, if_false,
    Option.any_some, Bool.or_eq_true, eqIgnoreAsciiCase, beq_iff_eq] at hgate
  exact ⟨hwell.methodField, hgate, hfin⟩

/-- The gate refuses CONNECT, so an accepted list goes to the proxy. -/
lemma proxyRequest_of_replaySafe (shared : Http3Shared) :
    ∃ wire, proxyRequest C shared incoming = .proxied ⟨request, wire, true⟩ := by
  obtain ⟨-, hfold, hfin⟩ := method_of_replaySafe hgate hdecode
  have hconnect : request.method ≠ ascii "CONNECT" := by
    intro hmethod
    rw [hmethod] at hfold
    exact absurd hfold (by decide)
  simp [proxyRequest, hdecode, hconnect, hfin]

lemma replaySafe_iff_upperCase {wire : Option (List (Bytes × Bytes))} :
    ReplaySafe ⟨request, wire, true⟩ ↔ UpperCaseField incoming.headers pseudoMethod := by
  obtain ⟨hfield, hfold, -⟩ := method_of_replaySafe hgate hdecode
  rw [upperCaseField_iff hfield, upperCase_iff_of_fold hfold]
  simp [ReplaySafe]

end

/-- A request in early data that passes the gate and is accepted is a finished GET or HEAD exactly when its
`:method` has no lower-case letter. -/
theorem early_data_method_iff (C : HttpCrate) (shared : Http3Shared) (incoming : IncomingH3Headers)
    (request : RequestHeader) (hgate : earlyDataRequestIsReplaySafe incoming = true)
    (hdecode : decodeRequestHeaders C incoming.headers = .ok request) :
    ∃ session, proxyRequest C shared incoming = .proxied session ∧ session.request = request ∧
      (ReplaySafe session ↔ UpperCaseField incoming.headers pseudoMethod) := by
  obtain ⟨wire, hproxied⟩ := proxyRequest_of_replaySafe hgate hdecode shared
  exact ⟨_, hproxied, rfl, replaySafe_iff_upperCase hgate hdecode⟩

theorem early_data_method_iff_get :
    ∃ session, proxyRequest .reference ⟨true, false⟩ ⟨exampleHeaders [] [], true⟩ = .proxied session ∧
      ReplaySafe session := by
  have hdecode : decodeRequestHeaders .reference (exampleHeaders [] []) =
      .ok ⟨ascii "GET", ⟨true, some (ascii "a.example"), ascii "/"⟩, .http2,
        [(hostName, ascii "a.example")]⟩ := by decide +kernel
  obtain ⟨session, hproxied, -, hiff⟩ :=
    early_data_method_iff .reference ⟨true, false⟩ ⟨exampleHeaders [] [], true⟩ _ (by decide +kernel) hdecode
  exact ⟨session, hproxied, hiff.mpr (by decide +kernel)⟩

/-- The gate takes the method `get` for GET; the request that goes to the proxy has the method `get`. -/
theorem early_data_lowercase_method :
    let incoming : IncomingH3Headers :=
      ⟨[⟨pseudoMethod, ascii "get"⟩, ⟨pseudoScheme, ascii "https"⟩, ⟨pseudoAuthority, ascii "a.example"⟩,
        ⟨pseudoPath, ascii "/"⟩], true⟩
    earlyDataRequestIsReplaySafe incoming = true ∧
    ∃ session, proxyRequest .reference ⟨true, false⟩ incoming = .proxied session ∧
      session.request.method = ascii "get" ∧ ¬ReplaySafe session := by
  refine ⟨by decide +kernel, ⟨⟨ascii "get", ⟨true, some (ascii "a.example"), ascii "/"⟩, .http2,
    [(hostName, ascii "a.example")]⟩, none, true⟩, by decide +kernel, rfl, by decide⟩

/-! ### Connections -/

/-- The early data of an event spells its method in upper case. -/
def ServerH3Event.UpperCaseMethod : ServerH3Event → Prop
  | .headers incoming true => UpperCaseField incoming.headers pseudoMethod
  | _ => True

lemma replaySafe_of_proxied {shared : Http3Shared} {incoming : IncomingH3Headers} {session : ProxiedRequest}
    (hgate : earlyDataRequestIsReplaySafe incoming = true)
    (hcase : UpperCaseField incoming.headers pseudoMethod)
    (h : proxyRequest C shared incoming = .proxied session) : ReplaySafe session := by
  cases hdecode : decodeRequestHeaders C incoming.headers with
  | error e => simp [proxyRequest, hdecode] at h
  | ok request =>
    obtain ⟨wire, hproxied⟩ := proxyRequest_of_replaySafe hgate hdecode shared
    obtain rfl := HeadersAnswer.proxied.inj (hproxied.symm.trans h)
    exact (replaySafe_iff_upperCase hgate hdecode).mpr hcase

namespace Http3Connection

lemma mem_answers_step {shared : Http3Shared} {c c' : Http3Connection} {e : ServerH3Event} {a : Bool × HeadersAnswer}
    (h : c.step C shared e = some c') (ha : a ∈ c'.answers) :
    a ∈ c.answers ∨ (∃ status message, a.2 = .refused status message) ∨
      ∃ incoming, e = .headers incoming a.1 ∧ a.2 = proxyRequest C shared incoming ∧
        (a.1 = true → earlyDataRequestIsReplaySafe incoming = true) := by
  cases e with
  | complete =>
    simp only [step] at h
    split at h
    · cases h
    · obtain rfl := Option.some.inj h
      exact .inl ha
  | headers incoming early =>
    simp only [step] at h
    split at h
    · obtain rfl := Option.some.inj h
      rcases List.mem_append.mp ha with ha | ha
      · exact .inl ha
      · rw [List.mem_singleton.mp ha]
        exact .inr (.inl ⟨_, _, rfl⟩)
    · rename_i hgate
      split at h
      · obtain rfl := Option.some.inj h
        rcases List.mem_append.mp ha with ha | ha
        · exact .inl ha
        · rw [List.mem_singleton.mp ha]
          exact .inr (.inl ⟨_, _, rfl⟩)
      · obtain rfl := Option.some.inj h
        rcases List.mem_append.mp ha with ha | ha
        · exact .inl ha
        · rw [List.mem_singleton.mp ha]
          exact .inr (.inr ⟨incoming, rfl, rfl, fun he => by simp_all⟩)

/-- What a connection hands to the proxy from early data is a finished GET or HEAD, as long as early data
spells its methods in upper case. -/
theorem early_data_of_run_replaySafe {shared : Http3Shared} {maxStreams : ℕ} {es : List ServerH3Event}
    {c : Http3Connection} (hcase : ∀ e ∈ es, e.UpperCaseMethod)
    (h : Runs.Run (fun c e c' => step C shared c e = some c') (start maxStreams) es c) :
    ∀ session, (true, .proxied session) ∈ c.answers → ReplaySafe session := by
  have hrun := h.invariant
    (fun past c => (∀ e ∈ past, e.UpperCaseMethod) →
      ∀ session, (true, .proxied session) ∈ c.answers → ReplaySafe session)
    ?_ (by simp [start])
  · exact hrun hcase
  · intro past c e c' hstep ih hcase session hmem
    rcases mem_answers_step hstep hmem with hmem | ⟨status, message, hrefused⟩ | ⟨incoming, rfl, hproxied, hgate⟩
    · exact ih (fun e he => hcase e (List.mem_append_left _ he)) session hmem
    · cases hrefused
    · exact replaySafe_of_proxied (hgate rfl) (hcase _ (List.mem_append_right _ (List.mem_singleton.mpr rfl)))
        hproxied.symm

end Http3Connection

end Pingola
