import Pingola.Cache.Key

/-!
# DNS wire-format helpers

The functions of `cache/dns.rs`. A message is a byte string, read with `getD` at the
offsets the code has just bounded. A `loop` over an offset is a recursion on fuel that
exceeds the bytes left; `skipName_eq_some_iff` and `readName_eq_some_iff` say that this fuel
never runs out. Sixteen and thirty-two bit fields are natural numbers.
-/

namespace Pingola
open ByteText

def edns0Type : ℕ := 41

structure DnsQueryKey where
  qname : Bytes
  qtype : ℕ
  qclass : ℕ
  rd : Bool
  cd : Bool
  doBit : Bool
  ednsFingerprint : ℕ
  deriving DecidableEq

structure DnsCachePolicy where
  enabled : Bool
  maxTtl : ℕ
  negativeTtl : ℕ
  maxResponseBytes : ℕ

/-- `DnsCachePolicy::default`. -/
def DnsCachePolicy.default : DnsCachePolicy where
  enabled := true
  maxTtl := fromSecs 300
  negativeTtl := fromSecs 60
  maxResponseBytes := 65535

def byteAt (wire : Bytes) (i : ℕ) : ℕ := (wire.getD i 0).toNat

/-- `u16::from_be_bytes` of the two bytes at `i`. -/
def u16At (wire : Bytes) (i : ℕ) : ℕ := byteAt wire i * 256 + byteAt wire (i + 1)

/-- `u32::from_be_bytes` of the four bytes at `i`. -/
def u32At (wire : Bytes) (i : ℕ) : ℕ := u16At wire i * 65536 + u16At wire (i + 2)

def skipNameLoop (wire : Bytes) : ℕ → ℕ → Option ℕ
  | 0, _ => none
  | fuel + 1, offset =>
    if wire.length ≤ offset then none
    else
      let len := wire.getD offset 0
      if len = 0 then some (offset + 1)
      else if len &&& 0xC0 = 0xC0 then
        if wire.length ≤ offset + 1 then none else some (offset + 2)
      else
        let next := offset + 1 + len.toNat
        if wire.length < next then none else skipNameLoop wire fuel next

def skipName (wire : Bytes) (offset : ℕ) : Option ℕ := skipNameLoop wire (wire.length + 1) offset

/-- The body of `read_name_labels`; `jump` follows a compression pointer. -/
def readNameLoop (wire : Bytes) (jump : ℕ → List Bytes → Option (List Bytes)) :
    ℕ → ℕ → List Bytes → Option (List Bytes × ℕ)
  | 0, _, _ => none
  | fuel + 1, offset, labels =>
    if wire.length ≤ offset then none
    else
      let len := wire.getD offset 0
      if len = 0 then some (labels, offset + 1)
      else if len &&& 0xC0 = 0xC0 then
        if wire.length ≤ offset + 1 then none
        else
          let pointer := (len &&& 0x3F).toNat * 256 + byteAt wire (offset + 1)
          (jump pointer labels).map fun pointerLabels => (pointerLabels, offset + 2)
      else
        let next := offset + 1 + len.toNat
        if wire.length < next then none
        else
          let label := (wire.drop (offset + 1)).take len.toNat
          if !isUtf8 label then none
          else readNameLoop wire jump fuel next (labels ++ [toAsciiLowercase label])

/-- `read_name_labels` with the number of nested calls still allowed, nine at depth 0. -/
def readNameLabels (wire : Bytes) : ℕ → ℕ → List Bytes → Option (List Bytes × ℕ)
  | 0, _, _ => none
  | depth + 1, offset, labels =>
    readNameLoop wire (fun pointer ls => (readNameLabels wire depth pointer ls).map Prod.fst)
      (wire.length + 1) offset labels

def readName (wire : Bytes) (offset : ℕ) : Option (Bytes × ℕ) :=
  (readNameLabels wire 9 offset []).map fun r => ([byte '.'].intercalate r.1, r.2)

def skipRrs (wire : Bytes) : ℕ → ℕ → Option ℕ
  | 0, offset => some offset
  | count + 1, offset => do
    let offset ← skipName wire offset
    if wire.length < offset + 10 then none
    else
      let next := offset + (10 + u16At wire (offset + 8))
      if wire.length < next then none else skipRrs wire count next

/-- The loop of `edns_state` over the additional records, with the calls made on its hasher. -/
def ednsLoop (wire : Bytes) : ℕ → ℕ → Bool → List HashWrite → Bool →
    Option (Bool × List HashWrite × Bool)
  | 0, _, doBit, calls, sawOpt => some (doBit, calls, sawOpt)
  | count + 1, offset, doBit, calls, _ => do
    let offset ← skipName wire offset
    if wire.length < offset + 10 then none
    else
      let pseudoTtl := u32At wire (offset + 4)
      let rdataStart := offset + 10
      let next := rdataStart + u16At wire (offset + 8)
      if wire.length < next || u16At wire offset != edns0Type then none
      else
        let rdata := (wire.drop rdataStart).take (next - rdataStart)
        ednsLoop wire count next (doBit || pseudoTtl &&& 0x8000 != 0)
          (calls ++ [.u16 (u16At wire (offset + 2)), .u32 pseudoTtl, .bytes rdata]) true

def ednsState {D : Type} (H : AHasher D) (wire : Bytes) (offset : ℕ) : Option (Bool × ℕ) := do
  let offset ← skipRrs wire (u16At wire 6 + u16At wire 8) offset
  let (doBit, calls, sawOpt) ← ednsLoop wire (u16At wire 10) offset false [] false
  some (doBit, if sawOpt then H.value (H.finish calls) else 0)

def dnsQueryKey {D : Type} (H : AHasher D) (wire : Bytes) : Option DnsQueryKey :=
  if wire.length < 12 then none
  else
    let flags := u16At wire 2
    if flags &&& 0x8000 != 0 then none
    else if u16At wire 4 != 1 then none
    else do
      let (qname, offset) ← readName wire 12
      if wire.length < offset + 4 then none
      else do
        let (doBit, ednsFingerprint) ← ednsState H wire (offset + 4)
        some {
          qname := qname
          qtype := u16At wire offset
          qclass := u16At wire (offset + 2)
          rd := flags &&& 0x0100 != 0
          cd := flags &&& 0x0010 != 0
          doBit := doBit
          ednsFingerprint := ednsFingerprint }

/-- The calls `cache_key_for_query` makes on its hasher. -/
def queryWrites (query : DnsQueryKey) : List HashWrite :=
  [.bytes query.qname, .u16 query.qtype, .u16 query.qclass, .u8 query.rd.toNat,
    .u8 query.cd.toNat, .u8 query.doBit.toNat, .u64 query.ednsFingerprint]

def cacheKeyForQuery {D : Type} (H : AHasher D) (query : DnsQueryKey) : CacheKey D :=
  ⟨.dns, H.finish (queryWrites query)⟩

def skipQuestionsLoop (wire : Bytes) : ℕ → ℕ → Option ℕ
  | 0, offset => some offset
  | count + 1, offset => do
    let offset ← skipName wire offset
    if wire.length < offset + 4 then none else skipQuestionsLoop wire count (offset + 4)

def skipQuestions (wire : Bytes) (offset : ℕ) : Option ℕ :=
  if wire.length < 12 then none else skipQuestionsLoop wire (u16At wire 4) offset

def minRrTtlLoop (wire : Bytes) : ℕ → ℕ → Option ℕ → Option (Option ℕ)
  | 0, _, least => some least
  | count + 1, offset, least => do
    let offset ← skipName wire offset
    if wire.length < offset + 10 then none
    else
      let next := offset + (10 + u16At wire (offset + 8))
      if wire.length < next then none
      else if u16At wire offset != edns0Type then
        let ttl := u32At wire (offset + 4)
        minRrTtlLoop wire count next (some (least.elim ttl fun current => min current ttl))
      else minRrTtlLoop wire count next least

def minRrTtl (wire : Bytes) : Option ℕ := do
  let offset ← skipQuestions wire 12
  let least ← minRrTtlLoop wire (u16At wire 6 + u16At wire 8 + u16At wire 10) offset none
  (least.filter fun ttl => 0 < ttl).map fromSecs

def negativeTtlLoop (wire : Bytes) : ℕ → ℕ → Option ℕ → Option (Option ℕ)
  | 0, _, least => some least
  | count + 1, offset, least => do
    let offset ← skipName wire offset
    if wire.length < offset + 10 then none
    else
      let rdlength := u16At wire (offset + 8)
      let next := offset + (10 + rdlength)
      if wire.length < next then none
      else if u16At wire offset == 6 && 4 ≤ rdlength then
        let candidate := min (u32At wire (next - 4)) (u32At wire (offset + 4))
        negativeTtlLoop wire count next
          (some (least.elim candidate fun current => min current candidate))
      else negativeTtlLoop wire count next least

def negativeTtl (wire : Bytes) : Option ℕ := do
  let offset ← skipQuestions wire 12
  let offset ← skipRrs wire (u16At wire 6) offset
  let least ← negativeTtlLoop wire (u16At wire 8) offset none
  least.map fun seconds => fromSecs (max seconds 1)

inductive DnsCacheDecision where
  | cacheable (ttl : ℕ)
  | notCacheable
  deriving DecidableEq

def dnsCacheable (response : Bytes) (policy : DnsCachePolicy) : DnsCacheDecision :=
  if !policy.enabled || response.length < 12 || policy.maxResponseBytes < response.length then
    .notCacheable
  else
    let flags := u16At response 2
    if flags &&& 0x0200 != 0 then .notCacheable
    else
      match flags &&& 0x000F with
      | 0 =>
        match minRrTtl response with
        | none => .notCacheable
        | some minTtl => if minTtl = 0 then .notCacheable else .cacheable (min minTtl policy.maxTtl)
      | 3 => .cacheable (min ((negativeTtl response).getD policy.negativeTtl) policy.maxTtl)
      | _ => .notCacheable

def u16Bytes (n : ℕ) : Bytes := [(n / 256).toUInt8, n.toUInt8]

def u32Bytes (n : ℕ) : Bytes := u16Bytes (n / 65536) ++ u16Bytes (n % 65536)

/-- `out[i..i + data.len()].copy_from_slice(data)`. -/
def copyAt (out : Bytes) (i : ℕ) (data : Bytes) : Bytes :=
  out.take i ++ data ++ out.drop (i + data.length)

def ageLoop (elapsedSecs : ℕ) : ℕ → Bytes → ℕ → Bool → Option (Bytes × Bool)
  | 0, out, _, sawRealTtl => some (out, sawRealTtl)
  | count + 1, out, offset, sawRealTtl => do
    let offset ← skipName out offset
    if out.length < offset + 10 then none
    else
      let next := offset + (10 + u16At out (offset + 8))
      if out.length < next then none
      else if u16At out offset != edns0Type then
        let remaining := u32At out (offset + 4) - elapsedSecs
        if remaining = 0 then none
        else ageLoop elapsedSecs count (copyAt out (offset + 4) (u32Bytes remaining)) next true
      else ageLoop elapsedSecs count out next sawRealTtl

def ageDnsResponseForQuery (response : Bytes) (storedAt now queryId : ℕ) : Option Bytes :=
  if response.length < 12 then none
  else do
    let elapsedSecs := min ((now - storedAt) / 1000000000) (2 ^ 32 - 1)
    let out := copyAt response 0 (u16Bytes queryId)
    let offset ← skipQuestions out 12
    let (out, sawRealTtl) ← ageLoop elapsedSecs (u16At out 6 + u16At out 8 + u16At out 10) out offset false
    if sawRealTtl then some out else none

/-- The six-bit value of a base64url character, `none` outside the alphabet. -/
def base64urlValue (ch : UInt8) : Option ℕ :=
  if byte 'A' ≤ ch ∧ ch ≤ byte 'Z' then some (ch - byte 'A').toNat
  else if byte 'a' ≤ ch ∧ ch ≤ byte 'z' then some ((ch - byte 'a').toNat + 26)
  else if byte '0' ≤ ch ∧ ch ≤ byte '9' then some ((ch - byte '0').toNat + 52)
  else if ch = byte '-' then some 62
  else if ch = byte '_' then some 63
  else none

def decodeLoop : Bytes → ℕ → ℕ → Bytes → Option Bytes
  | [], _, _, output => some output
  | ch :: input, buffer, bits, output =>
    if ch = byte '=' then decodeLoop input buffer bits output
    else do
      let value ← base64urlValue ch
      let buffer := buffer * 2 ^ 6 % 2 ^ 32 ||| value
      let bits := bits + 6
      if 8 ≤ bits then
        let bits := bits - 8
        decodeLoop input (buffer &&& (2 ^ bits - 1)) bits (output ++ [(buffer / 2 ^ bits).toUInt8])
      else decodeLoop input buffer bits output

def decodeBase64url (input : Bytes) : Option Bytes := decodeLoop input 0 0 []

/-- The loop of `parse_doh_query` over the pairs of a query string. -/
def findDnsPair : List Bytes → Option Bytes
  | [] => none
  | pair :: pairs => do
    let (name, value) ← splitOnce (byte '=') pair
    if name = ascii "dns" then decodeBase64url value else findDnsPair pairs

def parseDohQuery (method path body : Bytes) : Option Bytes :=
  if eqIgnoreAsciiCase method (ascii "GET") then do
    let query ← (path.splitOn (byte '?'))[1]?
    findDnsPair (query.splitOn (byte '&'))
  else if eqIgnoreAsciiCase method (ascii "POST") && !body.isEmpty then some body
  else none

end Pingola
