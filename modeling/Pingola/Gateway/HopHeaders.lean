import Pingola.Gateway.ContentLength

/-!
# Hop-by-hop headers

`strip_request_hop_headers` and `strip_response_hop_headers` of `gateway.rs` with the two scans of the
`Connection` options. The scans check the number of options, their syntax and the critical names in
different orders and accept the same options. An `ArrayVec` panics when it is full.
-/

namespace Pingola
open ByteText

def connectionName : Bytes := ascii "connection"

def proxyConnectionName : Bytes := ascii "proxy-connection"

def teName : Bytes := ascii "te"

def upgradeName : Bytes := ascii "upgrade"

def maxConnectionNominations : ℕ := 10

/-- `collect` into an `ArrayVec`. -/
def collectArrayVec (capacity : ℕ) (names : List Bytes) : Except HeaderError (List Bytes) :=
  if capacity < names.length then .error .panics else .ok names

def fixedRequestHopHeaders : List Bytes :=
  ["connection", "keep-alive", "proxy-connection", "proxy-authenticate", "proxy-authorization", "te", "trailer",
    "upgrade"].map ascii

def isFixedRequestHopHeader (name : Bytes) : Bool := fixedRequestHopHeaders.contains name

/-- What `is_fixed_response_removed_header` adds. -/
def upstreamIdentityHeaders : List Bytes :=
  ["server", "x-powered-by", "alt-svc", "strict-transport-security", "x-content-type-options", "x-frame-options",
    "referrer-policy"].map ascii

def isFixedResponseRemovedHeader (name : Bytes) : Bool :=
  isFixedRequestHopHeader name || upstreamIdentityHeaders.contains name

/-- The framing fields that no option may name. -/
def isCriticalName (name : Bytes) : Bool :=
  name == contentLengthName || name == transferEncodingName || name == ascii "host"

/-- The tokens in the order in which both scans read them. -/
def connectionTokens (headers : HeaderMap) : List Bytes :=
  [connectionName, proxyConnectionName].flatMap fun field =>
    (MultiMap.getAll headers field).flatMap fun value => value.splitOn (byte ',')

def criticalMessage (name : Bytes) : Bytes := ascii "Connection header names critical framing field " ++ name

/-- The loops of `connection_option_names`. -/
def connectionOptionLoop (C : HttpCrate) (invalidStatus : ℕ) :
    List Bytes → List Bytes → Except HeaderError (List Bytes)
  | names, [] => .ok names
  | names, token :: tokens =>
    let token := trimAscii token
    if token.isEmpty then connectionOptionLoop C invalidStatus names tokens
    else
      match C.headerNameFromBytes token with
      | none => .error (.status invalidStatus (ascii "invalid Connection header option"))
      | some name =>
        if isCriticalName name then .error (.status invalidStatus (criticalMessage name))
        else if names.length = maxConnectionNominations then
          .error (.status invalidStatus (ascii "too many Connection header options"))
        else if maxConnectionNominations < (names ++ [name]).length then .error .panics
        else connectionOptionLoop C invalidStatus (names ++ [name]) tokens

def connectionOptionNames (C : HttpCrate) (headers : HeaderMap) (invalidStatus : ℕ) :
    Except HeaderError (List Bytes) :=
  connectionOptionLoop C invalidStatus [] (connectionTokens headers)

def RequestHeader.removeHeader (r : RequestHeader) (name : Bytes) : RequestHeader :=
  { r with headers := MultiMap.remove r.headers name }

/-- The loops of the scan in `strip_request_hop_headers`, which removes each header as it is named. -/
def nominationLoop (C : HttpCrate) : ℕ → RequestHeader → List Bytes → Except HeaderError RequestHeader
  | _, upstream, [] => .ok upstream
  | nominations, upstream, token :: tokens =>
    let token := trimAscii token
    if token.isEmpty then nominationLoop C nominations upstream tokens
    else if maxConnectionNominations < nominations + 1 then
      .error (.status 400 (ascii "too many Connection header options"))
    else
      match C.headerNameFromBytes token with
      | none => .error (.status 400 (ascii "invalid Connection header option"))
      | some name =>
        if isCriticalName name then .error (.status 400 (criticalMessage name))
        else nominationLoop C (nominations + 1) (upstream.removeHeader name) tokens

/-- The scan of the options of a request. -/
def removeNominated (C : HttpCrate) (headers : HeaderMap) (upstream : RequestHeader) :
    Except HeaderError RequestHeader :=
  if headers.containsKey connectionName || headers.containsKey proxyConnectionName then
    nominationLoop C 0 upstream (connectionTokens headers)
  else .ok upstream

def teIncludesTrailers (headers : HeaderMap) : Bool :=
  (MultiMap.getAll headers teName).any fun value =>
    (value.splitOn (byte ',')).any fun token => eqIgnoreAsciiCase (trimAscii token) (ascii "trailers")

def stripRequestHopHeaders (C : HttpCrate) (downstream upstream : RequestHeader) :
    Except HeaderError RequestHeader := do
  let names := MultiMap.keys upstream.headers
  let sawTe := names.contains teName
  let fixed ← collectArrayVec 8 (names.filter fun name => if name = teName then true else isFixedRequestHopHeader name)
  let keepTeTrailers := sawTe && teIncludesTrailers upstream.headers
  let upstream ← removeNominated C downstream.headers upstream
  let upstream := fixed.foldl RequestHeader.removeHeader upstream
  let upstream := if keepTeTrailers then upstream.insertTypedHeader teName (ascii "trailers") else upstream
  normalizeRequestContentLength C upstream 400

def stripResponseHopHeaders (C : HttpCrate) (response : ResponseHeader) (forwardsUpgrade : Bool) :
    Except HeaderError ResponseHeader := do
  let upgrade := if forwardsUpgrade then HeaderMap.get response.headers upgradeName else none
  let connectionOptions ← connectionOptionNames C response.headers 502
  let fixed ← collectArrayVec 15 ((MultiMap.keys response.headers).filter isFixedResponseRemovedHeader)
  let response := connectionOptions.foldl ResponseHeader.removeHeader response
  let response := fixed.foldl ResponseHeader.removeHeader response
  let response ← normalizeResponseContentLength C response 502
  if forwardsUpgrade then
    match upgrade with
    | none => .error (.status 502 (ascii "upstream 101 response is missing its Upgrade header"))
    | some upgrade =>
      .ok ((response.insertTypedHeader upgradeName upgrade).insertTypedHeader connectionName (ascii "upgrade"))
  else .ok response

/-! ### The scans -/

/-- The options among some tokens: those that are not empty. -/
def optionsOf (tokens : List Bytes) : List Bytes := (tokens.map trimAscii).filter fun token => !token.isEmpty

/-- The options that a header map lists in its two fields. -/
def connectionOptions (headers : HeaderMap) : List Bytes := optionsOf (connectionTokens headers)

/-- The names that options stand for. -/
def namesOf (C : HttpCrate) (options : List Bytes) : List Bytes := options.filterMap C.headerNameFromBytes

/-- Options that name headers, none of them critical. -/
def Admissible (C : HttpCrate) (options : List Bytes) : Prop :=
  ∀ option ∈ options, ∃ name, C.headerNameFromBytes option = some name ∧ isCriticalName name = false

section

variable {C : HttpCrate}

lemma optionsOf_cons (token : Bytes) (tokens : List Bytes) :
    optionsOf (token :: tokens) =
      if (trimAscii token).isEmpty then optionsOf tokens else trimAscii token :: optionsOf tokens := by
  unfold optionsOf
  by_cases h : (trimAscii token).isEmpty = true
  · simp [h]
  · simp [h]

lemma admissible_cons {option : Bytes} {options : List Bytes} :
    Admissible C (option :: options) ↔
      (∃ name, C.headerNameFromBytes option = some name ∧ isCriticalName name = false) ∧ Admissible C options := by
  simp [Admissible]

/-- `connection_option_names` succeeds on at most ten admissible options and returns their names. -/
lemma connectionOptionLoop_eq_ok_iff {status : ℕ} {names tokens result : List Bytes}
    (hnames : names.length ≤ maxConnectionNominations) :
    connectionOptionLoop C status names tokens = .ok result ↔
      names.length + (optionsOf tokens).length ≤ maxConnectionNominations ∧ Admissible C (optionsOf tokens) ∧
        result = names ++ namesOf C (optionsOf tokens) := by
  induction tokens generalizing names with
  | nil =>
    simp only [connectionOptionLoop, Except.ok.injEq, optionsOf, List.map_nil, List.filter_nil, List.length_nil, namesOf,
      List.filterMap_nil, List.append_nil, Nat.add_zero, hnames, Admissible, true_and]
    constructor
    · rintro rfl
      simp
    · rintro ⟨-, rfl⟩
      rfl
  | cons token tokens ih =>
    rw [connectionOptionLoop, optionsOf_cons]
    by_cases hempty : (trimAscii token).isEmpty = true
    · rw [if_pos hempty, if_pos hempty, ih hnames]
    · rw [if_neg hempty, if_neg hempty, admissible_cons, List.length_cons]
      cases hname : C.headerNameFromBytes (trimAscii token) with
      | none => simp
      | some name =>
        by_cases hcritical : isCriticalName name = true
        · simp [hcritical]
        · dsimp only
          rw [if_neg hcritical]
          by_cases hfull : names.length = maxConnectionNominations
          · rw [if_pos hfull]
            constructor
            · intro h
              cases h
            · rintro ⟨hlen, -⟩
              omega
          · rw [if_neg hfull, if_neg (by simp; omega), ih (by simp; omega)]
            simp only [List.length_append, List.length_singleton, namesOf, List.filterMap_cons, hname,
              Option.some.injEq, exists_eq_left', hcritical, true_and, List.append_assoc, List.singleton_append]
            rw [show names.length + 1 + (optionsOf tokens).length = names.length + ((optionsOf tokens).length + 1) by omega]

lemma nominationLoop_eq_ok_iff {nominations : ℕ} {upstream result : RequestHeader} {tokens : List Bytes}
    (hcount : nominations ≤ maxConnectionNominations) :
    nominationLoop C nominations upstream tokens = .ok result ↔
      nominations + (optionsOf tokens).length ≤ maxConnectionNominations ∧ Admissible C (optionsOf tokens) ∧
        result = (namesOf C (optionsOf tokens)).foldl RequestHeader.removeHeader upstream := by
  induction tokens generalizing nominations upstream with
  | nil =>
    simp only [nominationLoop, Except.ok.injEq, optionsOf, List.map_nil, List.filter_nil, List.length_nil, namesOf,
      List.filterMap_nil, List.foldl_nil, Nat.add_zero, hcount, Admissible, true_and]
    constructor
    · rintro rfl
      simp
    · rintro ⟨-, rfl⟩
      rfl
  | cons token tokens ih =>
    rw [nominationLoop, optionsOf_cons]
    by_cases hempty : (trimAscii token).isEmpty = true
    · rw [if_pos hempty, if_pos hempty, ih hcount]
    · rw [if_neg hempty, if_neg hempty, admissible_cons, List.length_cons]
      by_cases hfull : maxConnectionNominations < nominations + 1
      · rw [if_pos hfull]
        constructor
        · intro h
          cases h
        · rintro ⟨hlen, -⟩
          omega
      · rw [if_neg hfull]
        cases hname : C.headerNameFromBytes (trimAscii token) with
        | none => simp
        | some name =>
          by_cases hcritical : isCriticalName name = true
          · simp [hcritical]
          · dsimp only
            rw [if_neg hcritical, ih (by omega)]
            simp only [namesOf, List.filterMap_cons, hname, Option.some.injEq, exists_eq_left', hcritical, true_and,
              List.foldl_cons]
            rw [show nominations + 1 + (optionsOf tokens).length = nominations + ((optionsOf tokens).length + 1) by omega]

lemma connectionOptionNames_eq_ok_iff {headers : HeaderMap} {status : ℕ} {names : List Bytes} :
    connectionOptionNames C headers status = .ok names ↔
      (connectionOptions headers).length ≤ maxConnectionNominations ∧ Admissible C (connectionOptions headers) ∧
        names = namesOf C (connectionOptions headers) := by
  have hempty : ([] : List Bytes).length ≤ maxConnectionNominations := Nat.zero_le _
  rw [connectionOptionNames, connectionOptionLoop_eq_ok_iff hempty, List.length_nil, Nat.zero_add, List.nil_append]
  rfl

lemma connectionOptions_eq_nil {headers : HeaderMap}
    (h : ¬(headers.containsKey connectionName || headers.containsKey proxyConnectionName) = true) :
    connectionOptions headers = [] := by
  simp only [HeaderMap.containsKey, Bool.or_eq_true, Bool.not_eq_true', List.isEmpty_eq_false_iff, not_or,
    not_not] at h
  simp [connectionOptions, connectionTokens, optionsOf, h.1, h.2]

/-- The scan of a request accepts the same options and removes their names. -/
lemma removeNominated_eq_ok_iff {headers : HeaderMap} {upstream result : RequestHeader} :
    removeNominated C headers upstream = .ok result ↔
      (connectionOptions headers).length ≤ maxConnectionNominations ∧ Admissible C (connectionOptions headers) ∧
        result = (namesOf C (connectionOptions headers)).foldl RequestHeader.removeHeader upstream := by
  unfold removeNominated
  split_ifs with hfields
  · rw [nominationLoop_eq_ok_iff (Nat.zero_le _), Nat.zero_add]
    rfl
  · rw [connectionOptions_eq_nil hfields, Except.ok.injEq, eq_comm]
    simp [Admissible, namesOf]

/-- The buffer of names never is too small. -/
lemma connectionOptionNames_ne_panics (headers : HeaderMap) (status : ℕ) :
    connectionOptionNames C headers status ≠ .error .panics := by
  have hloop : ∀ tokens names : List Bytes, names.length ≤ maxConnectionNominations →
      connectionOptionLoop C status names tokens ≠ .error .panics := by
    intro tokens
    induction tokens with
    | nil => simp [connectionOptionLoop]
    | cons token tokens ih =>
      intro names hnames
      rw [connectionOptionLoop]
      split
      · exact ih names hnames
      · split
        · simp
        · rename_i name _
          split
          · simp
          · split
            · simp
            · have hroom : (names ++ [name]).length ≤ maxConnectionNominations := by
                rw [List.length_append, List.length_singleton]
                omega
              rw [if_neg (by omega)]
              exact ih _ hroom
  exact hloop _ _ (Nat.zero_le _)

lemma removeNominated_ne_panics (headers : HeaderMap) (upstream : RequestHeader) :
    removeNominated C headers upstream ≠ .error .panics ∧ ∀ code,
      removeNominated C headers upstream ≠
        .error (.status code (ascii "validated Content-Length could not be formatted")) := by
  have hloop : ∀ (tokens : List Bytes) (nominations : ℕ) (upstream : RequestHeader),
      nominationLoop C nominations upstream tokens ≠ .error .panics ∧ ∀ code,
        nominationLoop C nominations upstream tokens ≠
          .error (.status code (ascii "validated Content-Length could not be formatted")) := by
    intro tokens
    induction tokens with
    | nil => simp [nominationLoop]
    | cons token tokens ih =>
      intro nominations upstream
      rw [nominationLoop]
      split
      · exact ih nominations upstream
      · split
        · simp +decide
        · split
          · simp +decide
          · rename_i name _
            split
            · refine ⟨by simp, fun code h => ?_⟩
              have hfirst : (criticalMessage name).head? = some (byte 'C') := rfl
              rw [(HeaderError.status.inj (Except.error.inj h)).2] at hfirst
              exact absurd hfirst (by decide)
            · exact ih _ _
  unfold removeNominated
  split_ifs
  · exact hloop _ _ _
  · simp

end

/-! ### Requests -/

section

variable {C : HttpCrate}

/-- A name that an option of the fields `Connection` and `Proxy-Connection` gives, in any case. -/
def Nominated (headers : HeaderMap) (name : Bytes) : Prop :=
  ∃ option ∈ connectionOptions headers, toAsciiLowercase option = name

lemma headerNameFromBytes_eq_some_iff {b name : Bytes} :
    C.headerNameFromBytes b = some name ↔ C.validHeaderName b = true ∧ toAsciiLowercase b = name := by
  unfold HttpCrate.headerNameFromBytes
  split_ifs with h <;> simp [h]

lemma Admissible.mem_namesOf_iff {headers : HeaderMap} {name : Bytes} (h : Admissible C (connectionOptions headers)) :
    name ∈ namesOf C (connectionOptions headers) ↔ Nominated headers name := by
  simp only [namesOf, List.mem_filterMap, headerNameFromBytes_eq_some_iff]
  constructor
  · rintro ⟨option, hoption, -, hname⟩
    exact ⟨option, hoption, hname⟩
  · rintro ⟨option, hoption, hname⟩
    obtain ⟨_, hvalid, -⟩ := h option hoption
    exact ⟨option, hoption, (headerNameFromBytes_eq_some_iff.mp hvalid).1, hname⟩

lemma Admissible.not_critical {headers : HeaderMap} {name : Bytes} (h : Admissible C (connectionOptions headers))
    (hname : Nominated headers name) : isCriticalName name = false := by
  obtain ⟨option, hoption, rfl⟩ := hname
  obtain ⟨name, hname, hcritical⟩ := h option hoption
  rwa [← (headerNameFromBytes_eq_some_iff.mp hname).2] at hcritical

/-- A header that is removed is not the length, which is neither fixed nor nominated. -/
lemma Admissible.ne_contentLength {headers : HeaderMap} {name : Bytes} {p : Bytes → Bool}
    (hp : p contentLengthName = false)
    (hoptions : Admissible C (connectionOptions headers)) (hname : p name = true ∨ Nominated headers name) :
    name ≠ contentLengthName := by
  rintro rfl
  rcases hname with hfixed | hnominated
  · simp [hp] at hfixed
  · cases hoptions.not_critical hnominated

/-- A `TE` field lists the token `trailers`, in any case. -/
def ListsTrailers (headers : HeaderMap) : Prop :=
  ∃ value ∈ MultiMap.getAll headers teName, ∃ token ∈ value.splitOn (byte ','),
    toAsciiLowercase (trimAscii token) = ascii "trailers"

lemma teIncludesTrailers_iff {headers : HeaderMap} : teIncludesTrailers headers = true ↔ ListsTrailers headers := by
  have hlower : toAsciiLowercase (ascii "trailers") = ascii "trailers" := by decide
  simp [teIncludesTrailers, ListsTrailers, eqIgnoreAsciiCase, hlower]

lemma foldl_removeHeader (names : List Bytes) (request : RequestHeader) :
    names.foldl RequestHeader.removeHeader request =
      { request with headers := MultiMap.removeAll request.headers names } := by
  induction names generalizing request with
  | nil => rfl
  | cons name names ih => exact ih (request.removeHeader name)

/-- The names of a map that stand in a list without repetitions fit into a buffer of its length. -/
lemma collectArrayVec_keys {headers : HeaderMap} {p : Bytes → Bool} {capacity : ℕ} (names : List Bytes)
    (hp : ∀ name, p name = true → name ∈ names) (hcapacity : names.length ≤ capacity) :
    collectArrayVec capacity ((MultiMap.keys headers).filter p) = .ok ((MultiMap.keys headers).filter p) := by
  have hsub : (MultiMap.keys headers).filter p ⊆ names := fun name hname => hp name (List.mem_filter.mp hname).2
  have hle := (List.subperm_of_subset ((MultiMap.nodup_keys headers).filter p) hsub).length_le
  rw [collectArrayVec, if_neg (by omega)]

/-- The fixed names among those of a map are removed. -/
lemma getAll_removeAll_keys (headers removed : HeaderMap) (p : Bytes → Bool) (name : Bytes)
    (hremoved : MultiMap.getAll removed name = MultiMap.getAll headers name ∨ MultiMap.getAll removed name = []) :
    MultiMap.getAll (MultiMap.removeAll removed ((MultiMap.keys headers).filter p)) name =
      if p name then [] else MultiMap.getAll removed name := by
  rw [MultiMap.getAll_removeAll]
  by_cases hp : p name = true
  · rw [if_pos hp]
    split_ifs with hmem
    · rfl
    · rcases hremoved with hsame | hnone
      · rw [hsame]
        by_contra hne
        exact hmem (List.mem_filter.mpr ⟨MultiMap.mem_keys_iff.mpr hne, hp⟩)
      · exact hnone
  · rw [if_neg (by simp [hp]), if_neg hp]

/-- The header map of a request after both removals and with the kept `TE`. -/
def strippedHeaders (C : HttpCrate) (downstream upstream : HeaderMap) : HeaderMap :=
  let removed := MultiMap.removeAll (MultiMap.removeAll upstream (namesOf C (connectionOptions downstream)))
    ((MultiMap.keys upstream).filter isFixedRequestHopHeader)
  if teIncludesTrailers upstream then MultiMap.insert removed teName (ascii "trailers") else removed

/-- Neither buffer is ever full, so stripping is the scan followed by the normalisation. -/
lemma stripRequestHopHeaders_eq (C : HttpCrate) (downstream upstream : RequestHeader) :
    stripRequestHopHeaders C downstream upstream =
      (removeNominated C downstream.headers upstream).bind fun request =>
        (normalizeContentLength C (strippedHeaders C downstream.headers upstream.headers) 400).map fun headers =>
          { request with headers := headers } := by
  have hfixed : ∀ name : Bytes, (if name = teName then true else isFixedRequestHopHeader name) =
      isFixedRequestHopHeader name := by
    intro name
    split_ifs with hte
    · rw [hte]
      decide
    · rfl
  have hsaw : ((MultiMap.keys upstream.headers).contains teName && teIncludesTrailers upstream.headers) =
      teIncludesTrailers upstream.headers := by
    rw [Bool.and_eq_right_iff_imp]
    intro htrailers
    obtain ⟨value, hvalue, -⟩ := teIncludesTrailers_iff.mp htrailers
    exact List.contains_iff_mem.mpr (MultiMap.mem_keys_iff.mpr (List.ne_nil_of_mem hvalue))
  have hbuffer : collectArrayVec 8 ((MultiMap.keys upstream.headers).filter isFixedRequestHopHeader) =
      .ok ((MultiMap.keys upstream.headers).filter isFixedRequestHopHeader) :=
    collectArrayVec_keys fixedRequestHopHeaders (fun name hname => List.contains_iff_mem.mp hname) (by decide)
  unfold stripRequestHopHeaders
  simp only [hfixed, hsaw, hbuffer]
  cases hscan : removeNominated C downstream.headers upstream with
  | error e => rfl
  | ok request =>
    obtain ⟨-, -, rfl⟩ := removeNominated_eq_ok_iff.mp hscan
    change normalizeRequestContentLength C _ 400 = _
    unfold normalizeRequestContentLength
    rw [foldl_removeHeader, foldl_removeHeader]
    unfold strippedHeaders
    split_ifs <;> rfl

lemma getAll_removed (C : HttpCrate) (headers nominating : HeaderMap) (p : Bytes → Bool) (name : Bytes) :
    MultiMap.getAll (MultiMap.removeAll (MultiMap.removeAll headers (namesOf C (connectionOptions nominating)))
        ((MultiMap.keys headers).filter p)) name =
      if p name = true ∨ name ∈ namesOf C (connectionOptions nominating) then [] else MultiMap.getAll headers name := by
  have hnominated := MultiMap.getAll_removeAll headers (namesOf C (connectionOptions nominating)) name
  rw [getAll_removeAll_keys headers _ p name (by rw [hnominated]; split_ifs <;> simp), hnominated]
  by_cases hp : p name = true
  · simp [hp]
  · simp [hp]

/-- What stripping leaves of a request's headers. -/
structure RequestStripped (downstream upstream result : HeaderMap) : Prop where
  /-- The fixed and the nominated headers are gone. -/
  removed : ∀ name, isFixedRequestHopHeader name = true ∨ Nominated downstream name →
    ¬(name = teName ∧ ListsTrailers upstream) → MultiMap.getAll result name = []
  /-- One `TE` stays if it listed the token. -/
  trailers : ListsTrailers upstream → MultiMap.getAll result teName = [ascii "trailers"]
  /-- At most one `Content-Length`, which is the number of every token, without `Transfer-Encoding`. -/
  framing : MultiMap.getAll result contentLengthName = [] ∧ MultiMap.getAll upstream contentLengthName = [] ∨
    ∃ value n, MultiMap.getAll result contentLengthName = [value] ∧ DecimalText value n ∧
      MultiMap.getAll result transferEncodingName = [] ∧
      ∀ field ∈ MultiMap.getAll upstream contentLengthName, ∀ token ∈ field.splitOn (byte ','),
        DecimalText (trimAscii token) n
  others : ∀ name, isFixedRequestHopHeader name = false → ¬Nominated downstream name → name ≠ contentLengthName →
    MultiMap.getAll result name = MultiMap.getAll upstream name

lemma getAll_strippedHeaders_of_kept {downstream upstream : HeaderMap} {name : Bytes}
    (hoptions : Admissible C (connectionOptions downstream)) (hfixed : isFixedRequestHopHeader name = false)
    (hnominated : ¬Nominated downstream name) :
    MultiMap.getAll (strippedHeaders C downstream upstream) name = MultiMap.getAll upstream name := by
  have hte : name ≠ teName := by
    rintro rfl
    cases hfixed
  have hkept := getAll_removed C upstream downstream isFixedRequestHopHeader name
  rw [if_neg (by rw [hoptions.mem_namesOf_iff]; simp [hfixed, hnominated])] at hkept
  unfold strippedHeaders
  split_ifs
  · rw [MultiMap.getAll_insert_of_ne hte, hkept]
  · exact hkept

lemma getAll_strippedHeaders_of_removed {downstream upstream : HeaderMap} {name : Bytes}
    (hoptions : Admissible C (connectionOptions downstream))
    (hname : isFixedRequestHopHeader name = true ∨ Nominated downstream name)
    (hte : ¬(name = teName ∧ ListsTrailers upstream)) :
    MultiMap.getAll (strippedHeaders C downstream upstream) name = [] := by
  have hremoved := getAll_removed C upstream downstream isFixedRequestHopHeader name
  rw [if_pos (by rwa [hoptions.mem_namesOf_iff])] at hremoved
  unfold strippedHeaders
  split_ifs with htrailers
  · have hne : name ≠ teName := fun h => hte ⟨h, teIncludesTrailers_iff.mp htrailers⟩
    rw [MultiMap.getAll_insert_of_ne hne, hremoved]
  · exact hremoved

lemma requestStripped {downstream upstream result : HeaderMap}
    (hoptions : Admissible C (connectionOptions downstream))
    (h : Normalized (strippedHeaders C downstream upstream) result) : RequestStripped downstream upstream result := by
  have hlength : MultiMap.getAll (strippedHeaders C downstream upstream) contentLengthName =
      MultiMap.getAll upstream contentLengthName := by
    refine getAll_strippedHeaders_of_kept hoptions (by decide) fun hnominated => ?_
    cases hoptions.not_critical hnominated
  refine ⟨fun name hname hte => ?_, fun htrailers => ?_, ?_, fun name hfixed hnominated hne => ?_⟩
  · have hne := hoptions.ne_contentLength (p := isFixedRequestHopHeader) rfl hname
    rw [h.others name hne, getAll_strippedHeaders_of_removed hoptions hname hte]
  · rw [h.others teName (by decide), strippedHeaders, if_pos (teIncludesTrailers_iff.mpr htrailers),
      MultiMap.getAll_insert_self]
  · rw [← hlength]
    rcases h.length with hnone | ⟨value, n, hvalue, htext, hencoding, -, htokens⟩
    · exact .inl hnone
    · exact .inr ⟨value, n, hvalue, htext, hencoding, htokens⟩
  · rw [h.others name hne, getAll_strippedHeaders_of_kept hoptions hfixed hnominated]

/-- How stripping a request succeeds. -/
lemma stripRequestHopHeaders_eq_ok {downstream upstream result : RequestHeader}
    (h : stripRequestHopHeaders C downstream upstream = .ok result) :
    (connectionOptions downstream.headers).length ≤ maxConnectionNominations ∧
      Admissible C (connectionOptions downstream.headers) ∧
        Normalized (strippedHeaders C downstream.headers upstream.headers) result.headers := by
  rw [stripRequestHopHeaders_eq] at h
  obtain ⟨request, hrequest, h⟩ := except_bind_eq_ok.mp h
  obtain ⟨hlen, hoptions, -⟩ := removeNominated_eq_ok_iff.mp hrequest
  cases hresult : normalizeContentLength C (strippedHeaders C downstream.headers upstream.headers) 400 with
  | error e =>
    rw [hresult] at h
    cases h
  | ok headers =>
    rw [hresult] at h
    obtain rfl := Except.ok.inj h
    exact ⟨hlen, hoptions, normalized_of_eq_ok hresult⟩

lemma stripRequestHopHeaders_eq_error {downstream upstream : RequestHeader} {e : HeaderError}
    (h : stripRequestHopHeaders C downstream upstream = .error e) :
    removeNominated C downstream.headers upstream = .error e ∨
      normalizeContentLength C (strippedHeaders C downstream.headers upstream.headers) 400 = .error e := by
  rw [stripRequestHopHeaders_eq] at h
  cases hrequest : removeNominated C downstream.headers upstream with
  | error e' =>
    rw [hrequest] at h
    exact .inl h
  | ok request =>
    rw [hrequest] at h
    cases hresult : normalizeContentLength C (strippedHeaders C downstream.headers upstream.headers) 400 with
    | error e' =>
      rw [hresult] at h
      exact .inr (congrArg Except.error (Except.error.inj h))
    | ok headers =>
      rw [hresult] at h
      cases h

/-- The stripped headers of every request that is accepted; no buffer ever is full; a critical name or more
than ten options are refused. -/
theorem request_headers_stripped (C : HttpCrate) (downstream upstream : RequestHeader) :
    (∀ result, stripRequestHopHeaders C downstream upstream = .ok result →
      RequestStripped downstream.headers upstream.headers result.headers) ∧
    (stripRequestHopHeaders C downstream upstream ≠ .error .panics ∧ ∀ code,
      stripRequestHopHeaders C downstream upstream ≠
        .error (.status code (ascii "validated Content-Length could not be formatted"))) ∧
    ((∃ name, Nominated downstream.headers name ∧ isCriticalName name = true) ∨
        maxConnectionNominations < (connectionOptions downstream.headers).length →
      ∃ e, stripRequestHopHeaders C downstream upstream = .error e) := by
  refine ⟨fun result h => ?_, ⟨fun h => ?_, fun code h => ?_⟩, fun hrefused => ?_⟩
  · obtain ⟨-, hoptions, hnormalized⟩ := stripRequestHopHeaders_eq_ok h
    exact requestStripped hoptions hnormalized
  · rcases stripRequestHopHeaders_eq_error h with h | h
    · exact (removeNominated_ne_panics _ _).1 h
    · exact (normalizeContentLength_ne_overflow _ _ _).1 h
  · rcases stripRequestHopHeaders_eq_error h with h | h
    · exact (removeNominated_ne_panics _ _).2 code h
    · exact (normalizeContentLength_ne_overflow _ _ _).2 code h
  · cases hresult : stripRequestHopHeaders C downstream upstream with
    | error e => exact ⟨e, rfl⟩
    | ok result =>
      obtain ⟨hlen, hoptions, -⟩ := stripRequestHopHeaders_eq_ok hresult
      rcases hrefused with ⟨name, hnominated, hcritical⟩ | hmany
      · rw [hoptions.not_critical hnominated] at hcritical
        cases hcritical
      · omega

/-- A request whose options name a header and whose lengths repeat, in both roles. -/
def hopRequest : RequestHeader where
  method := ascii "GET"
  uri := ⟨false, none, ascii "/"⟩
  version := .http11
  headers := [(connectionName, ascii "Keep-Alive, X-Trace"), (ascii "x-trace", ascii "1"),
    (teName, ascii "gzip, Trailers"), (contentLengthName, ascii "05, 5"), (ascii "accept", ascii "a"), (contentLengthName, ascii "5")]

theorem request_headers_stripped_example :
    (∃ result, stripRequestHopHeaders HttpCrate.reference hopRequest hopRequest = .ok result ∧
      result.headers = [(ascii "accept", ascii "a"), (teName, ascii "trailers"), (contentLengthName, ascii "5")] ∧
      RequestStripped hopRequest.headers hopRequest.headers result.headers) ∧
    ∃ e, stripRequestHopHeaders HttpCrate.reference
      { hopRequest with headers := [(proxyConnectionName, ascii "Host")] } hopRequest = .error e :=
  ⟨⟨{ hopRequest with
        headers := [(ascii "accept", ascii "a"), (teName, ascii "trailers"), (contentLengthName, ascii "5")] },
      by decide +kernel, rfl,
      (request_headers_stripped HttpCrate.reference hopRequest hopRequest).1 _ (by decide +kernel)⟩,
    (request_headers_stripped HttpCrate.reference
      { hopRequest with headers := [(proxyConnectionName, ascii "Host")] } hopRequest).2.2
      (.inl ⟨ascii "host", ⟨ascii "Host", by decide +kernel, by decide +kernel⟩, by decide⟩)⟩

end

/-! ### Responses -/

section

variable {C : HttpCrate}

lemma foldl_removeHeader_response (names : List Bytes) (response : ResponseHeader) :
    names.foldl ResponseHeader.removeHeader response =
      { response with headers := MultiMap.removeAll response.headers names } := by
  induction names generalizing response with
  | nil => rfl
  | cons name names ih => exact ih (response.removeHeader name)

lemma mem_of_isFixedResponseRemovedHeader {name : Bytes} (h : isFixedResponseRemovedHeader name = true) :
    name ∈ fixedRequestHopHeaders ++ upstreamIdentityHeaders := by
  simpa [isFixedResponseRemovedHeader, isFixedRequestHopHeader] using h

/-- How stripping a response succeeds: the options are admissible, the headers are removed and the rest is
normalised, and a forwarded upgrade is put back. -/
lemma stripResponseHopHeaders_eq_ok {response result : ResponseHeader} {forwardsUpgrade : Bool}
    (h : stripResponseHopHeaders C response forwardsUpgrade = .ok result) :
    Admissible C (connectionOptions response.headers) ∧
      ∃ headers, Normalized
        (MultiMap.removeAll (MultiMap.removeAll response.headers (namesOf C (connectionOptions response.headers)))
          ((MultiMap.keys response.headers).filter isFixedResponseRemovedHeader)) headers ∧
        (forwardsUpgrade = false ∧ result.headers = headers ∨
          forwardsUpgrade = true ∧ ∃ upgrade, HeaderMap.get response.headers upgradeName = some upgrade ∧
            result.headers =
              MultiMap.insert (MultiMap.insert headers upgradeName upgrade) connectionName (ascii "upgrade")) := by
  unfold stripResponseHopHeaders at h
  obtain ⟨names, hnames, h⟩ := except_bind_eq_ok.mp h
  obtain ⟨-, hoptions, rfl⟩ := connectionOptionNames_eq_ok_iff.mp hnames
  refine ⟨hoptions, ?_⟩
  obtain ⟨fixed, hfixed, h⟩ := except_bind_eq_ok.mp h
  rw [collectArrayVec_keys _ (fun name => mem_of_isFixedResponseRemovedHeader) (by decide)] at hfixed
  obtain rfl := Except.ok.inj hfixed
  obtain ⟨normalized, hnormalized, h⟩ := except_bind_eq_ok.mp h
  rw [foldl_removeHeader_response, foldl_removeHeader_response] at hnormalized
  obtain ⟨headers, hheaders, rfl⟩ := except_map_eq_ok.mp hnormalized
  refine ⟨headers, normalized_of_eq_ok hheaders, ?_⟩
  cases forwardsUpgrade with
  | false =>
    obtain rfl := Except.ok.inj h
    exact .inl ⟨rfl, rfl⟩
  | true =>
    rw [if_pos rfl, if_pos rfl] at h
    cases hupgrade : HeaderMap.get response.headers upgradeName with
    | none =>
      rw [hupgrade] at h
      cases h
    | some upgrade =>
      rw [hupgrade] at h
      obtain rfl := Except.ok.inj h
      exact .inr ⟨rfl, upgrade, rfl, rfl⟩

/-- What stripping leaves of a response's headers. -/
structure ResponseStripped (response : HeaderMap) (forwardsUpgrade : Bool) (result : HeaderMap) : Prop where
  removed : ∀ name, isFixedResponseRemovedHeader name = true ∨ Nominated response name →
    ¬(forwardsUpgrade = true ∧ (name = upgradeName ∨ name = connectionName)) → MultiMap.getAll result name = []
  /-- A forwarded upgrade has the two headers once each. -/
  upgrade : forwardsUpgrade = true → ∃ value, HeaderMap.get response upgradeName = some value ∧
    MultiMap.getAll result upgradeName = [value] ∧ MultiMap.getAll result connectionName = [ascii "upgrade"]
  length : (MultiMap.getAll result contentLengthName).length ≤ 1
  encoding : MultiMap.getAll result contentLengthName ≠ [] → MultiMap.getAll result transferEncodingName = []

lemma Normalized.length_le {before after : HeaderMap} (h : Normalized before after) :
    (MultiMap.getAll after contentLengthName).length ≤ 1 := by
  rcases h.length with ⟨hnone, -⟩ | ⟨value, n, hvalue, -⟩
  · simp [hnone]
  · simp [hvalue]

lemma Normalized.encoding {before after : HeaderMap} (h : Normalized before after)
    (hlength : MultiMap.getAll after contentLengthName ≠ []) : MultiMap.getAll after transferEncodingName = [] := by
  rcases h.length with ⟨hnone, -⟩ | ⟨value, n, -, -, hencoding, -⟩
  · exact absurd hnone hlength
  · exact hencoding

lemma responseStripped {response result : ResponseHeader} {forwardsUpgrade : Bool}
    (h : stripResponseHopHeaders C response forwardsUpgrade = .ok result) :
    ResponseStripped response.headers forwardsUpgrade result.headers := by
  obtain ⟨hoptions, headers, hnormalized, hresult⟩ := stripResponseHopHeaders_eq_ok h
  have hremoved : ∀ name, isFixedResponseRemovedHeader name = true ∨ Nominated response.headers name →
      MultiMap.getAll headers name = [] := by
    intro name hname
    have hne := hoptions.ne_contentLength (p := isFixedResponseRemovedHeader) rfl hname
    rw [hnormalized.others name hne, getAll_removed, if_pos (by rwa [hoptions.mem_namesOf_iff])]
  rcases hresult with ⟨rfl, hresult⟩ | ⟨rfl, upgrade, hupgrade, hresult⟩
  · rw [hresult]
    exact ⟨fun name hname _ => hremoved name hname, by simp, hnormalized.length_le, hnormalized.encoding⟩
  · -- the two insertions touch nothing but their own names
    have hothers : ∀ name, name ≠ upgradeName → name ≠ connectionName →
        MultiMap.getAll result.headers name = MultiMap.getAll headers name := by
      intro name hu hc
      rw [hresult, MultiMap.getAll_insert_of_ne hc, MultiMap.getAll_insert_of_ne hu]
    refine ⟨fun name hname hkept => ?_, fun _ => ⟨upgrade, hupgrade, ?_, ?_⟩, ?_, ?_⟩
    · simp only [true_and, not_or] at hkept
      rw [hothers name hkept.1 hkept.2, hremoved name hname]
    · rw [hresult, MultiMap.getAll_insert_of_ne (by decide), MultiMap.getAll_insert_self]
    · rw [hresult, MultiMap.getAll_insert_self]
    · rw [hothers _ (by decide) (by decide)]
      exact hnormalized.length_le
    · rw [hothers _ (by decide) (by decide), hothers _ (by decide) (by decide)]
      exact hnormalized.encoding

/-- The two scans accept the same header maps and remove the same names, and nothing that is to be removed
is left in a response. -/
theorem scans_agree_and_response_stripped (C : HttpCrate) :
    (∀ (headers : HeaderMap) (status : ℕ) (upstream : RequestHeader),
      ((∃ e, removeNominated C headers upstream = .error e) ↔
        ∃ e, connectionOptionNames C headers status = .error e) ∧
      connectionOptionNames C headers status ≠ .error .panics ∧
      ∀ names, connectionOptionNames C headers status = .ok names →
        removeNominated C headers upstream = .ok (names.foldl RequestHeader.removeHeader upstream)) ∧
    ∀ (response result : ResponseHeader) (forwardsUpgrade : Bool),
      stripResponseHopHeaders C response forwardsUpgrade = .ok result →
        ResponseStripped response.headers forwardsUpgrade result.headers := by
  refine ⟨fun headers status upstream => ⟨?_, connectionOptionNames_ne_panics headers status, fun names hnames => ?_⟩,
    fun response result forwardsUpgrade h => ?_⟩
  · rw [exists_error_iff, exists_error_iff, not_iff_not]
    simp only [removeNominated_eq_ok_iff, connectionOptionNames_eq_ok_iff, exists_and_left, exists_eq]
  · obtain ⟨hlen, hoptions, rfl⟩ := connectionOptionNames_eq_ok_iff.mp hnames
    exact removeNominated_eq_ok_iff.mpr ⟨hlen, hoptions, rfl⟩
  · exact responseStripped h

/-- A response that switches protocols. -/
def upgradeResponse : ResponseHeader where
  status := 101
  headers := [(connectionName, ascii "upgrade, X-Trace"), (ascii "x-trace", ascii "1"),
    (upgradeName, ascii "websocket"), (upgradeName, ascii "h2c"), (ascii "server", ascii "s")]

theorem scans_agree_and_response_stripped_example :
    removeNominated HttpCrate.reference hopRequest.headers hopRequest =
      .ok ([ascii "keep-alive", ascii "x-trace"].foldl RequestHeader.removeHeader hopRequest) ∧
    ∃ result, stripResponseHopHeaders HttpCrate.reference upgradeResponse true = .ok result ∧
      ResponseStripped upgradeResponse.headers true result.headers :=
  ⟨((scans_agree_and_response_stripped HttpCrate.reference).1 hopRequest.headers 502 hopRequest).2.2 _
      (by decide +kernel),
    ⟨101, [(upgradeName, ascii "websocket"), (connectionName, ascii "upgrade")]⟩, by decide +kernel,
    (scans_agree_and_response_stripped HttpCrate.reference).2 _ _ _ (by decide +kernel)⟩

end

end Pingola
