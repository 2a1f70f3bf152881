import Pingola.Http3.Decode
import Pingola.Lib.CaseFold
import Pingola.Lib.Table

/-!
# The two encoders of an upstream HTTP/3 request

`encode_pingora_request` of `upstream_h3.rs` builds the header block from the filtered request;
`finalize_upstream_wire_pairs` of `h3_wire.rs` builds it from the captured header block of the
client, of which it reuses what the request still has. A buffer is its bytes.
-/

namespace Pingola
open ByteText

abbrev WirePairs := List (Bytes × Bytes)

def isPseudo : Bytes → Bool
  | [] => false
  | b :: _ => b == byte ':'

/-- The predicate `is_hop_by_hop` of `h3_wire.rs`. -/
def isHopByHop (name : Bytes) : Bool :=
  eqIgnoreAsciiCase name (ascii "connection") || eqIgnoreAsciiCase name (ascii "transfer-encoding") ||
    eqIgnoreAsciiCase name (ascii "upgrade") || eqIgnoreAsciiCase name (ascii "keep-alive") ||
    eqIgnoreAsciiCase name (ascii "proxy-connection")

def skipRegularHeader (name value : Bytes) : Bool :=
  eqIgnoreAsciiCase name hostName || isHopByHop name ||
    (eqIgnoreAsciiCase name (ascii "te") && !eqIgnoreAsciiCase value (ascii "trailers"))

/-- A request header as Pingora holds it: `HeaderName` has no upper-case letters. -/
structure FilteredRequest extends RequestHeader where
  lower : ∀ p ∈ headers, toAsciiLowercase p.1 = p.1

namespace FilteredRequest

variable (req : FilteredRequest)

/-- The `Host` header if it is text, else the authority of the target. -/
def authority : Option Bytes :=
  ((req.headers.get hostName).bind headerValueToStr).or req.uri.authority

def target : Bytes := req.uri.pathAndQueryText.getD (ascii "/")

/-- The filters of `encode_regular_headers`, which compare names exactly. -/
def keepsRegular (name value : Bytes) : Bool :=
  (name != hostName && name != ascii "connection" && name != ascii "transfer-encoding" &&
    name != ascii "upgrade" && name != ascii "keep-alive" && name != ascii "proxy-connection") &&
    (name != ascii "te" || eqIgnoreAsciiCase value (ascii "trailers"))

def encodeRegularHeaders (headers : HeaderMap) : List H3Header :=
  (headers.filter fun p => keepsRegular p.1 p.2).map fun p => ⟨p.1, p.2⟩

def encodePingoraRequest : Except Bytes (List H3Header) :=
  match req.authority with
  | none => .error (ascii "upstream HTTP/3 request is missing Host")
  | some authority =>
    .ok ([⟨pseudoMethod, req.method⟩, ⟨pseudoScheme, ascii "https"⟩, ⟨pseudoAuthority, authority⟩,
      ⟨pseudoPath, req.target⟩] ++ encodeRegularHeaders req.headers)

end FilteredRequest

/-- The key of a captured header in the map of reusable ones. -/
def reusableKey (name : Bytes) : Bytes := if name.any isAsciiUppercase then toAsciiLowercase name else name

/-- The captured headers by name; a later header replaces an earlier one of its name. -/
def reusableHeaders (wire : WirePairs) : Table Bytes (Bytes × Bytes) :=
  wire.foldl (fun reusable p =>
    if isPseudo p.1 || skipRegularHeader p.1 p.2 then reusable
    else reusable.insert (reusableKey p.1) p) ∅

/-- The last loop of `finalize_upstream_wire_pairs`. A captured header is taken out of the map at the
first header of its name, also when its value has changed. -/
def finalizeRegularHeaders (reusable : Table Bytes (Bytes × Bytes)) : HeaderMap → WirePairs
  | [] => []
  | (name, value) :: rest =>
    if skipRegularHeader name value then finalizeRegularHeaders reusable rest
    else
      let pair :=
        match reusable.lookup name with
        | some existing => if existing.2 = value then existing else (name, value)
        | none => (name, value)
      pair :: finalizeRegularHeaders (reusable.erase name) rest

def finalizeUpstreamWirePairs (wire : WirePairs) (req : FilteredRequest) : WirePairs :=
  [(pseudoMethod, req.method), (pseudoScheme, ascii "https"),
    (pseudoAuthority, req.authority.getD []), (pseudoPath, req.target)] ++
    finalizeRegularHeaders (reusableHeaders wire) req.headers

def bytesPairsToHeaders (pairs : WirePairs) : List H3Header := pairs.map fun p => ⟨p.1, p.2⟩

/-! ### What is reused -/

/-- Every reusable header has the name it is filed under. -/
def FiledByName (reusable : Table Bytes (Bytes × Bytes)) : Prop :=
  ∀ name p, reusable.lookup name = some p → p.1 = name

lemma FiledByName.erase {reusable : Table Bytes (Bytes × Bytes)} (h : FiledByName reusable) (name : Bytes) :
    FiledByName (reusable.erase name) := by
  intro other p hp
  exact h other p (Table.lookup_of_erase other p hp)

lemma FiledByName.insert {reusable : Table Bytes (Bytes × Bytes)} (h : FiledByName reusable)
    (p : Bytes × Bytes) : FiledByName (reusable.insert p.1 p) := by
  intro other q hq
  rcases Table.lookup_insert_cases hq with ⟨hother, rfl⟩ | ⟨-, hq⟩
  · exact hother.symm
  · exact h other q hq

lemma filedByName_reusableHeaders {wire : WirePairs} (hwire : ∀ p ∈ wire, p.1.any isAsciiUppercase = false) :
    FiledByName (reusableHeaders wire) := by
  refine List.foldlRecOn wire _ (motive := FiledByName) (fun name p hp => by simp at hp) ?_
  intro reusable h p hp
  split
  · exact h
  · rw [reusableKey, hwire p hp]
    exact h.insert p

/-- A name without upper-case letters is one of the names in lower case iff it is so up to case. -/
lemma eqIgnoreAsciiCase_of_lower {name other : Bytes} (hname : toAsciiLowercase name = name)
    (hother : toAsciiLowercase other = other) : eqIgnoreAsciiCase name other = (name == other) := by
  rw [eqIgnoreAsciiCase, hname, hother]

/-- For lower-case names the filter of one encoder is the filter of the other. -/
lemma skipRegularHeader_of_lower {name : Bytes} (hname : toAsciiLowercase name = name) (value : Bytes) :
    skipRegularHeader name value = !FilteredRequest.keepsRegular name value := by
  have hcase : ∀ other : Bytes, toAsciiLowercase other = other →
      eqIgnoreAsciiCase name other = (name == other) := fun other => eqIgnoreAsciiCase_of_lower hname
  rw [skipRegularHeader, isHopByHop, hcase hostName (by decide), hcase (ascii "connection") (by decide),
    hcase (ascii "transfer-encoding") (by decide), hcase (ascii "upgrade") (by decide),
    hcase (ascii "keep-alive") (by decide), hcase (ascii "proxy-connection") (by decide),
    hcase (ascii "te") (by decide), FilteredRequest.keepsRegular]
  simp only [bne, Bool.not_and, Bool.not_or, Bool.not_not, Bool.or_assoc]

/-- Reuse does not change a single byte. -/
lemma finalizeRegularHeaders_eq {reusable : Table Bytes (Bytes × Bytes)} {headers : HeaderMap}
    (hreusable : FiledByName reusable) (hlower : ∀ p ∈ headers, toAsciiLowercase p.1 = p.1) :
    finalizeRegularHeaders reusable headers =
      headers.filter fun p => FilteredRequest.keepsRegular p.1 p.2 := by
  induction headers generalizing reusable with
  | nil => rfl
  | cons p rest ih =>
    obtain ⟨name, value⟩ := p
    have hname : toAsciiLowercase name = name := hlower (name, value) (by simp)
    have hrest : ∀ p ∈ rest, toAsciiLowercase p.1 = p.1 := fun p hp => hlower p (by simp [hp])
    rw [finalizeRegularHeaders, skipRegularHeader_of_lower hname]
    cases hkeep : FilteredRequest.keepsRegular name value with
    | false => simpa [hkeep] using ih hreusable hrest
    | true =>
      have hpair : (match reusable.lookup name with
          | some existing => if existing.2 = value then existing else (name, value)
          | none => (name, value)) = (name, value) := by
        split
        case h_1 existing hexisting =>
          split
          case isTrue hvalue => rw [← hvalue, ← hreusable name existing hexisting]
          case isFalse => rfl
        case h_2 => rfl
      simp only [Bool.not_true, Bool.false_eq_true, if_false, hpair, hkeep, List.filter_cons_of_pos]
      rw [ih (hreusable.erase name) hrest]

/-- Both encoders give the same list, and everything in it beside the pseudo-headers is a header of
the filtered request. -/
theorem finalize_eq_encode {wire : WirePairs} {req : FilteredRequest} {encoded : List H3Header}
    (hwire : ∀ p ∈ wire, p.1.any isAsciiUppercase = false)
    (hencoded : req.encodePingoraRequest = .ok encoded) :
    finalizeUpstreamWirePairs wire req = encoded.map (fun h => (h.name, h.value)) ∧
    bytesPairsToHeaders (finalizeUpstreamWirePairs wire req) = encoded ∧
    ∀ p ∈ finalizeUpstreamWirePairs wire req, isPseudo p.1 = true ∨ p ∈ req.headers := by
  have hregular := finalizeRegularHeaders_eq (filedByName_reusableHeaders hwire) req.lower
  unfold FilteredRequest.encodePingoraRequest at hencoded
  split at hencoded
  case h_1 => cases hencoded
  case h_2 authority hauthority =>
    obtain rfl := Except.ok.inj hencoded
    rw [finalizeUpstreamWirePairs, hregular, hauthority]
    refine ⟨?_, ?_, ?_⟩
    · simp [FilteredRequest.encodeRegularHeaders, Function.comp_def]
    · simp [bytesPairsToHeaders, FilteredRequest.encodeRegularHeaders]
    · intro p hp
      rcases List.mem_append.mp hp with hpseudo | hp
      · left
        simp only [List.mem_cons, List.not_mem_nil, or_false] at hpseudo
        rcases hpseudo with rfl | rfl | rfl | rfl <;> rfl
      · exact .inr (List.mem_filter.mp hp).1

/-- A repeated name, a replaced value, a header the request has lost and a `te` field. -/
def capturedWire : WirePairs :=
  [(pseudoMethod, ascii "GET"), (ascii "x-value", ascii "first"), (ascii "x-value", ascii "second"),
    (ascii "forwarded", ascii "for=192.0.2.1"), (ascii "te", ascii "trailers"),
    (ascii "accept-encoding", ascii "br")]

def filteredRequest : FilteredRequest where
  method := ascii "GET"
  uri := ⟨true, some (ascii "music.example"), ascii "/rest/stream?id=1"⟩
  version := .http2
  headers := [(hostName, ascii "origin.internal"), (ascii "x-value", ascii "second"),
    (ascii "x-value", ascii "first"), (ascii "te", ascii "gzip"), (ascii "accept-encoding", ascii "gzip")]
  lower := by decide

theorem finalize_eq_encode_captured :
    finalizeUpstreamWirePairs capturedWire filteredRequest =
      [(pseudoMethod, ascii "GET"), (pseudoScheme, ascii "https"),
        (pseudoAuthority, ascii "origin.internal"), (pseudoPath, ascii "/rest/stream?id=1"),
        (ascii "x-value", ascii "second"), (ascii "x-value", ascii "first"),
        (ascii "accept-encoding", ascii "gzip")] :=
  (finalize_eq_encode (by decide) rfl).1.trans (by decide)

end Pingola
