import Pingola.Http.Header

/-!
# Decoding of HTTP/3 request headers

`decode_request_headers` of `http3.rs` with its fast and its slow path. An error is its
outermost text. The capacities that are only hints for an allocation are left out.
-/

namespace Pingola
open ByteText

/-- `h3::Header`. -/
structure H3Header where
  name : Bytes
  value : Bytes
  deriving DecidableEq

def H3Header.isPseudo (h : H3Header) : Bool := (ascii ":").isPrefixOf h.name

def hostName : Bytes := ascii "host"

def pseudoMethod : Bytes := ascii ":method"

def pseudoScheme : Bytes := ascii ":scheme"

def pseudoAuthority : Bytes := ascii ":authority"

def pseudoPath : Bytes := ascii ":path"

structure FastScan where
  method : Option Bytes
  scheme : Bool
  authority : Option Bytes
  path : Option Bytes
  deriving DecidableEq

/-- The fields `decode_request_headers_fast` refuses by their raw name. -/
def connectionSpecific (name value : Bytes) : Bool :=
  name == ascii "connection" || name == ascii "keep-alive" || name == ascii "proxy-connection" ||
    name == ascii "transfer-encoding" || name == ascii "upgrade" ||
    (name == ascii "te" && !eqIgnoreAsciiCase value (ascii "trailers"))

/-- One round of the scan of the fast path. The error `none` leaves the list to the slow path,
`some` is a final refusal. -/
def fastStep (s : FastScan) (h : H3Header) : Except (Option Bytes) FastScan :=
  if h.isPseudo then
    if h.name = pseudoMethod ∧ s.method = none then .ok { s with method := some h.value }
    else if h.name = pseudoScheme ∧ s.scheme = false then
      if !eqIgnoreAsciiCase h.value (ascii "https") then
        .error (some (ascii "HTTP/3 :scheme must be https"))
      else .ok { s with scheme := true }
    else if h.name = pseudoAuthority ∧ s.authority = none then
      .ok { s with authority := some h.value }
    else if h.name = pseudoPath ∧ s.path = none then .ok { s with path := some h.value }
    else .error none
  else if h.name.any isAsciiUppercase then .error none
  else if h.name = hostName then .ok s
  else if connectionSpecific h.name h.value then
    .error (some (ascii "HTTP/3 request contains a connection-specific field"))
  else .ok s

def fastScan (s : FastScan) : List H3Header → Except (Option Bytes) FastScan
  | [] => .ok s
  | h :: hs =>
    match fastStep s h with
    | .ok s => fastScan s hs
    | .error e => .error e

/-- The second loop of the fast path, which copies the regular fields. -/
def fastCopy (C : HttpCrate) (r : RequestHeader) : List H3Header → Option RequestHeader
  | [] => some r
  | h :: hs =>
    if h.isPseudo || h.name = hostName then fastCopy C r hs
    else do
      let name ← C.headerNameFromBytes h.name
      let value ← C.headerValueFromBytes h.value
      fastCopy C (r.insertTypedHeader name value) hs

def decodeRequestHeadersFast (C : HttpCrate) (headers : List H3Header) :
    Option (Except Bytes RequestHeader) :=
  if headers.isEmpty || 32 < headers.length then none
  else
    match fastScan ⟨none, false, none, none⟩ headers with
    | .error none => none
    | .error (some e) => some (.error e)
    | .ok s => do
      let method ← C.methodFromBytes (← s.method)
      if !s.scheme then none
      else do
        let authority ← s.authority.filter isUtf8
        let path ← s.path.filter isUtf8
        if !(ascii "/").isPrefixOf path then
          some (.error (ascii "HTTP/3 :path must be origin-form"))
        else do
          let host ← C.headerValueFromStr authority
          let uri ← buildHttpsUri C authority path
          let request ← (RequestHeader.buildNoCase C method path).toOption
          let request := ((request.setVersion .http2).setUri uri).insertTypedHeader hostName host
          let request ← fastCopy C request headers
          some (.ok request)

structure SlowScan where
  method : Option Bytes
  scheme : Option Bytes
  authority : Option Bytes
  path : Option Bytes
  regularSeen : Bool
  regular : List (Bytes × Bytes)
  deriving DecidableEq

def forbiddenRequestHeader (name value : Bytes) : Bool :=
  name == ascii "connection" || name == ascii "keep-alive" || name == ascii "proxy-connection" ||
    name == ascii "transfer-encoding" || name == ascii "upgrade" ||
    (name == ascii "te" && !eqIgnoreAsciiCase value (ascii "trailers"))

/-- `Option::context`. -/
def context {α : Type} (message : String) : Option α → Except Bytes α
  | some a => .ok a
  | none => .error (ascii message)

def slowStep (C : HttpCrate) (s : SlowScan) (h : H3Header) : Except Bytes SlowScan :=
  if h.isPseudo then
    if s.regularSeen then .error (ascii "HTTP/3 pseudo-header appears after a regular header")
    else if h.name = pseudoMethod ∧ s.method = none then do
      let method ← context "invalid :method" (C.methodFromBytes h.value)
      .ok { s with method := some method }
    else if h.name = pseudoScheme ∧ s.scheme = none then .ok { s with scheme := some h.value }
    else if h.name = pseudoAuthority ∧ s.authority = none then
      .ok { s with authority := some h.value }
    else if h.name = pseudoPath ∧ s.path = none then .ok { s with path := some h.value }
    else .error (ascii "duplicate or unsupported HTTP/3 pseudo-header")
  else
    let s := { s with regularSeen := true }
    if h.name.any isAsciiUppercase then
      .error (ascii "HTTP/3 field name contains uppercase bytes")
    else do
      let name ← context "invalid HTTP/3 field name" (C.headerNameFromBytes h.name)
      if forbiddenRequestHeader name h.value then
        .error (ascii "HTTP/3 request contains a connection-specific field: " ++ name)
      else if name = hostName then .ok s
      else do
        let value ← context "invalid HTTP/3 field value" (C.headerValueFromBytes h.value)
        .ok { s with regular := s.regular ++ [(name, value)] }

def slowScan (C : HttpCrate) (s : SlowScan) : List H3Header → Except Bytes SlowScan
  | [] => .ok s
  | h :: hs => do
    let s ← slowStep C s h
    slowScan C s hs

def decodeRequestHeadersSlow (C : HttpCrate) (headers : List H3Header) : Except Bytes RequestHeader := do
  let s ← slowScan C ⟨none, none, none, none, false, []⟩ headers
  let method ← context "missing :method" s.method
  let scheme ← context "missing :scheme" s.scheme
  if !eqIgnoreAsciiCase scheme (ascii "https") then .error (ascii "HTTP/3 :scheme must be https")
  else do
    let authority ← context "missing :authority" s.authority
    let authority ← context ":authority is not UTF-8" ((some authority).filter isUtf8)
    let host ← context "invalid :authority" (C.headerValueFromStr authority)
    let path ← context "missing :path" s.path
    let path ← context ":path is not UTF-8" ((some path).filter isUtf8)
    if !(ascii "/").isPrefixOf path then .error (ascii "HTTP/3 :path must be origin-form")
    else do
      let path ← context "invalid HTTP/3 :path" (C.pathAndQuery path)
      let uri ← context "failed to construct HTTP/3 request URI"
        (buildHttpsUri C authority (pathAndQueryStr path))
      let request ← (RequestHeader.buildNoCase C method (pathAndQueryStr path)).mapError fun error =>
        ascii "failed to build HTTP/3 request header: " ++ error
      let request := ((request.setVersion .http2).setUri uri).insertTypedHeader hostName host
      .ok (s.regular.foldl (fun r p => r.insertTypedHeader p.1 p.2) request)

def decodeRequestHeaders (C : HttpCrate) (headers : List H3Header) : Except Bytes RequestHeader :=
  match decodeRequestHeadersFast C headers with
  | some result => result
  | none => decodeRequestHeadersSlow C headers

end Pingola
