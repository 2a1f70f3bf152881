import Pingola.Cache.Navidrome
import Pingola.Gateway.ContentLength
import Pingola.Gateway.ContentEncoding
import Pingola.Http.EntityTag
import Pingola.Lib.Runs
import Pingola.StaticFiles.AssetCache
import Pingola.StaticFiles.PathCache

/-!
# Serving static files

`StaticFiles::serve` of `static_files.rs` with what it calls. Many calls share the two caches and the three
semaphores, so a call is cut where it waits: for the file system, for a permit to read, for a chunk of a
streamed file. At each of these points it can also be dropped, which gives its permits back.
-/

namespace Pingola.StaticFiles
open ByteText

def maxBufferedAssetBytes : ℕ := 8 * 1024 * 1024

def fileChunkBytes : ℕ := 64 * 1024

def maxActiveStaticRequests : ℕ := 256

def maxActiveStaticStreams : ℕ := 32

/-- The permits of `cold_read_slot`. -/
def maxColdReads : ℕ := 2

/-! ### Representations -/

namespace Encoding

def header : Encoding → Option Bytes
  | .identity => none
  | .gzip => some (ascii "gzip")
  | .brotli => some (ascii "br")
  | .zstd => some (ascii "zstd")

def fileExtension : Encoding → Option Bytes
  | .identity => none
  | .gzip => some (ascii "gz")
  | .brotli => some (ascii "br")
  | .zstd => some (ascii "zst")

end Encoding

/-- An open file: what its metadata are and what reading it to the end gives. -/
structure OpenFile where
  metadata : Option Metadata
  contents : Option Bytes

/-- The file system at one moment. -/
structure Disk extends FileSystem where
  openFile : Bytes → Option OpenFile
  read : Bytes → Option Bytes

/-- What `serve` uses of other crates: percent escapes, the compressors, the guess of a media type, the format of
dates. -/
structure StaticEnv where
  http : HttpCrate
  hash : CacheKey → UInt64
  percentDecode : Bytes → Bytes
  gzip : Bytes → Option Bytes
  brotli : Bytes → Option Bytes
  zstd : Bytes → Option Bytes
  mimeFromPath : Bytes → Option Bytes
  fmtHttpDate : ℤ → Bytes

/-- `Path::file_name`. -/
def fileName (path : Bytes) : Option Bytes :=
  match (UnixPath.components path).getLast? with
  | some (.normal name) => some name
  | _ => none

/-- `Path::extension`: what follows the last dot of a name that does not begin with it. -/
def pathExtension (path : Bytes) : Option Bytes := do
  let name ← fileName path
  let (stem, ending) ← rsplitOnce (byte '.') name
  if stem = [] then none else some ending

def compressibleExtensions : List Bytes :=
  ["css", "eot", "htm", "html", "js", "json", "ldjson", "map", "markdown", "md", "mjs", "otf", "rss", "svg", "ttf",
    "txt", "vtt", "wasm", "webmanifest", "xhtml", "xml"].map ascii

def compressibleTypes : List Bytes :=
  ["application/javascript", "application/json", "application/ld+json", "application/manifest+json",
    "application/wasm", "application/xhtml+xml", "application/xml", "application/rss+xml", "image/svg+xml",
    "font/ttf", "font/otf", "application/vnd.ms-fontobject"].map ascii

def compressibleContentType (contentType : Bytes) : Bool :=
  (ascii "text/").isPrefixOf contentType || compressibleTypes.contains contentType

section

variable (env : StaticEnv)

def contentType (path : Bytes) : Bytes := (env.mimeFromPath path).getD (ascii "application/octet-stream")

def compressiblePath (path : Bytes) : Bool :=
  ((pathExtension path).filter isUtf8).any
      (fun ending => compressibleExtensions.any fun candidate => eqIgnoreAsciiCase ending candidate) ||
    (env.mimeFromPath path).any compressibleContentType

def compress (data : Bytes) : Encoding → Option Bytes
  | .identity => some data
  | .gzip => env.gzip data
  | .brotli => env.brotli data
  | .zstd => env.zstd data

/-- An error is `none`; a sidecar that must not be used is `some none`. -/
def readBoundedSidecar (disk : ℕ → Disk) (root path : Bytes) : Option (Option Bytes) :=
  match (disk 0).canonicalize path with
  | none => some none
  | some canonical =>
    if ¬UnixPath.StartsWith canonical root then some none
    else
      match (disk 1).openFile canonical with
      | none => some none
      | some file => do
        let metadata ← file.metadata
        if !metadata.isFile ∨ maxBufferedAssetBytes < metadata.len then some none
        else
          let data := (← file.contents).take (maxBufferedAssetBytes + 1)
          if maxBufferedAssetBytes < data.length then some none else some (some data)

/-- The path with the ending of a coding. -/
def sidecarPath (path ending : Bytes) : Bytes := path ++ byte '.' :: ending

/-- The last part of `read_representation`, without a sidecar. -/
def readAndCompress (disk : ℕ → Disk) (path : Bytes) (encoding : Encoding) : Option (Bytes × Encoding) :=
  if encoding = .identity then ((disk 2).read path).map fun data => (data, .identity)
  else do
    let data ← (disk 2).read path
    let compressed ← compress env data encoding
    some (compressed, encoding)

def readRepresentation (disk : ℕ → Disk) (root path : Bytes) (encoding : Encoding) : Option (Bytes × Encoding) :=
  match encoding.fileExtension with
  | none => readAndCompress env disk path encoding
  | some ending => do
    match ← readBoundedSidecar disk root (sidecarPath path ending) with
    | some data => some (data, encoding)
    | none => readAndCompress env disk path encoding

/-! ### Headers -/

/-- The security headers of this file, which do not depend on a handler. -/
def insertSecurityHeaders (header : ResponseHeader) (tls : Bool) : ResponseHeader :=
  let header := header.insertTypedHeader (ascii "x-content-type-options") (ascii "nosniff")
  let header := header.insertTypedHeader (ascii "x-frame-options") (ascii "SAMEORIGIN")
  let header := header.insertTypedHeader (ascii "referrer-policy") (ascii "strict-origin-when-cross-origin")
  if tls then
    header.insertTypedHeader (ascii "strict-transport-security") (ascii "max-age=63072000; includeSubDomains; preload")
  else header

def insertCacheHeader (header : ResponseHeader) (path : Bytes) (spaFallback : Bool) : ResponseHeader :=
  if spaFallback || fileName path == some indexHtml then
    header.insertTypedHeader (ascii "cache-control") (ascii "no-cache")
  else header.insertTypedHeader (ascii "cache-control") (ascii "public, max-age=2592000, immutable")

/-- The header that `send_empty` writes. -/
def emptyHeader (status : ℕ) (headers : List (Bytes × Bytes)) (tls : Bool) : ResponseHeader :=
  let header : ResponseHeader := ⟨status, []⟩
  let header := header.insertTypedHeader contentLengthName (ascii "0")
  let header := headers.foldl (fun header field => header.insertTypedHeader field.1 field.2) header
  insertSecurityHeaders header tls

/-- The fields that a file has in every response: tag, date and the rest after the content fields. -/
def insertFileHeaders (header : ResponseHeader) (etag lastModified : Bytes) : ResponseHeader :=
  let header := header.insertTypedHeader (ascii "etag") etag
  let header := header.insertTypedHeader (ascii "last-modified") lastModified
  header.insertTypedHeader (ascii "vary") (ascii "Accept-Encoding")

def notModifiedHeader (asset : ResolvedAsset) (etag lastModified : Bytes) (tls : Bool) : ResponseHeader :=
  let header := insertFileHeaders ⟨304, []⟩ etag lastModified
  let header := insertCacheHeader header asset.path asset.spaFallback
  insertSecurityHeaders header tls

def okHeader (asset : ResolvedAsset) (encoding : Encoding) (cached : CachedAsset) (tls : Bool) : ResponseHeader :=
  let header : ResponseHeader := ⟨200, []⟩
  let header := header.insertTypedHeader (ascii "content-type") cached.contentType
  let header := header.insertTypedHeader contentLengthName cached.contentLength
  let header := insertFileHeaders header cached.etag cached.lastModified
  let header := match encoding.header with
    | some coding => header.insertTypedHeader (ascii "content-encoding") coding
    | none => header
  let header := insertCacheHeader header asset.path asset.spaFallback
  insertSecurityHeaders header tls

/-- `cached_header_value` for each part of the asset; a text that is no header value fails the call. -/
def cachedAsset (asset : ResolvedAsset) (body : Bytes) : Option CachedAsset := do
  let contentType ← env.http.headerValueFromStr (contentType env asset.path)
  let contentLength ← env.http.headerValueFromStr (natText body.length)
  let etag ← env.http.headerValueFromStr (etagText asset.length asset.modifiedNanos)
  let lastModified ← env.http.headerValueFromStr (env.fmtHttpDate asset.modified)
  some ⟨body, contentType, contentLength, etag, lastModified⟩

/-- What `serve_streaming_file` inserts; a text that is no header value fails the call. -/
def streamedTag (asset : ResolvedAsset) : Option (Bytes × Bytes) := do
  let etag ← env.http.headerValueFromStr (etagText asset.length asset.modifiedNanos)
  let lastModified ← env.http.headerValueFromStr (env.fmtHttpDate asset.modified)
  some (etag, lastModified)

def streamedHeader (asset : ResolvedAsset) (tls : Bool) : Option ResponseHeader := do
  let contentType ← env.http.headerValueFromStr (contentType env asset.path)
  let contentLength ← env.http.headerValueFromStr (natText asset.length)
  let (etag, lastModified) ← streamedTag env asset
  some (okHeader asset .identity ⟨[], contentType, contentLength, etag, lastModified⟩ tls)

end

/-! ### Calls -/

/-- What `serve` is called with. -/
structure StaticRequest where
  hostName : Bytes
  request : RequestHeader
  tls : Bool

namespace StaticRequest

variable (session : StaticRequest)

def isHead : Bool := session.request.method == ascii "HEAD"

def path : Bytes := session.request.uri.path

def negotiation : EncodingNegotiation :=
  negotiate (MultiMap.getAll session.request.headers (ascii "accept-encoding"))

def revalidates (etag : Bytes) : Bool := ifNoneMatchMatches session.request.headers etag

end StaticRequest

/-- What has been written to the session. -/
structure StaticResponse where
  header : ResponseHeader
  body : Bytes
  ended : Bool

/-- Where a call waits. A call that has nothing left to do but to return is `leaving`. -/
inductive ServePhase where
  | resolving (root : Bytes) (now : ℕ)
  | queued (root : Bytes) (asset : ResolvedAsset) (encoding : Encoding)
  | reading (root : Bytes) (asset : ResolvedAsset) (encoding : Encoding)
  | opening (asset : ResolvedAsset)
  | streaming (asset : ResolvedAsset) (remaining : ℕ)
  | leaving
  | returned

structure ServeCall where
  session : StaticRequest
  phase : ServePhase
  response : Option StaticResponse
  requestPermit : Bool
  streamPermit : Bool
  coldReadPermit : Bool

namespace ServeCall

variable (call : ServeCall)

def start (session : StaticRequest) : ServeCall := ⟨session, .leaving, none, false, false, false⟩

def write (header : ResponseHeader) (body : Bytes) : ServeCall :=
  { call with phase := .leaving, response := some ⟨header, body, true⟩ }

def sendEmpty (status : ℕ) (headers : List (Bytes × Bytes)) : ServeCall :=
  call.write (emptyHeader status headers call.session.tls) []

/-- An error of the call: nothing is written. -/
def fail : ServeCall := { call with phase := .leaving }

/-- The end of `serve`, with the asset in hand. -/
def answer (asset : ResolvedAsset) (encoding : Encoding) (cached : CachedAsset) : ServeCall :=
  if call.session.revalidates cached.etag then
    call.write (notModifiedHeader asset cached.etag cached.lastModified call.session.tls) []
  else
    call.write (okHeader asset encoding cached call.session.tls) (if call.session.isHead then [] else cached.body)

/-- `serve_streaming_file` up to the opening of the file. -/
def stream (env : StaticEnv) (asset : ResolvedAsset) : ServeCall :=
  if call.session.revalidates (etagText asset.length asset.modifiedNanos) then
    match streamedTag env asset with
    | some (etag, lastModified) => call.write (notModifiedHeader asset etag lastModified call.session.tls) []
    | none => call.fail
  else if call.session.isHead then
    match streamedHeader env asset call.session.tls with
    | some header => call.write header []
    | none => call.fail
  else { call with phase := .opening asset }

/-- The header of a streamed file goes out before its first chunk. -/
def opened (env : StaticEnv) (asset : ResolvedAsset) (ok : Bool) : ServeCall :=
  match ok, streamedHeader env asset call.session.tls with
  | true, some header =>
    if asset.length = 0 then call.write header []
    else { call with phase := .streaming asset asset.length, response := some ⟨header, [], false⟩ }
  | _, _ => call.fail

/-- A chunk of the file, or its end, which ends the body. -/
def sendChunk (asset : ResolvedAsset) (remaining : ℕ) (chunk : Bytes) : ServeCall :=
  let remaining := remaining - chunk.length
  { call with
    phase := if chunk = [] ∨ remaining = 0 then .leaving else .streaming asset remaining
    response := call.response.map fun response =>
      { response with body := response.body ++ chunk, ended := decide (chunk = [] ∨ remaining = 0) } }

/-- A call that returns or is dropped. -/
def leave : ServeCall :=
  { call with phase := .returned, requestPermit := false, streamPermit := false, coldReadPermit := false }

end ServeCall

/-- The coding that `serve` asks for, if one is acceptable. -/
def requestedEncoding (env : StaticEnv) (asset : ResolvedAsset) (negotiation : EncodingNegotiation) : Option Encoding :=
  if 1024 ≤ asset.length ∧ compressiblePath env asset.path = true then
    match negotiation.preferred with
    | .identity => some .identity
    | .gzip => some .gzip
    | .brotli => some .brotli
    | .zstd => some .zstd
    | .notAcceptable => none
  else if negotiation.identityAcceptable then some .identity
  else none

def keyOf (asset : ResolvedAsset) (encoding : Encoding) : CacheKey :=
  ⟨UnixPath.components asset.path, asset.modifiedNanos, asset.length, encoding⟩

/-! ### The system -/

/-- The shared state of `StaticFiles` with all its calls; of a semaphore it has the permits left. -/
structure ServeState (L : LruCrate) (n : ℕ) where
  cache : AssetCache L
  paths : PathCache L n
  coldReadSlot : ℕ
  requestSlots : ℕ
  streamSlots : ℕ
  calls : Table ℕ ServeCall

/-- What happens to a call, with the answers that it gets. -/
inductive ServeEvent where
  | serve (i : ℕ) (session : StaticRequest) (now : ℕ)
  | resolve (i : ℕ) (fs : ℕ → FileSystem)
  | acquireColdRead (i : ℕ)
  | read (i : ℕ) (disk : ℕ → Disk)
  | openFile (i : ℕ) (ok : Bool)
  | readChunk (i : ℕ) (chunk : Option Bytes)
  | leave (i : ℕ)

namespace ServeState

variable {L : LruCrate} {n : ℕ} (env : StaticEnv) (roots : Table Bytes Bytes)

def new (hosts : List Bytes) (cacheBytes : ℕ) : ServeState L n where
  cache := AssetCache.new cacheBytes
  paths := PathCache.new hosts
  coldReadSlot := maxColdReads
  requestSlots := maxActiveStaticRequests
  streamSlots := maxActiveStaticStreams
  calls := ∅

def put (s : ServeState L n) (i : ℕ) (call : ServeCall) : ServeState L n := { s with calls := s.calls.insert i call }

/-- `serve` from the resolved path to its next wait. -/
def select (s : ServeState L n) (i : ℕ) (call : ServeCall) (root : Bytes) (asset : ResolvedAsset) : ServeState L n :=
  if maxBufferedAssetBytes < asset.length then
    if !call.session.negotiation.identityAcceptable then s.put i (call.sendEmpty 406 [])
    else if s.streamSlots = 0 then s.put i (call.sendEmpty 503 retryAfter)
    else
      { s with streamSlots := s.streamSlots - 1 }.put i ({ call with streamPermit := true }.stream env asset)
  else
    match requestedEncoding env asset call.session.negotiation with
    | none => s.put i (call.sendEmpty 406 [])
    | some encoding =>
      match s.cache.get env.hash (keyOf asset encoding) with
      | (some cached, cache) => { s with cache }.put i (call.answer asset encoding cached)
      | (none, cache) => { s with cache }.put i { call with phase := .queued root asset encoding }

/-- `serve` up to its first wait. -/
def serve (s : ServeState L n) (i : ℕ) (session : StaticRequest) (now : ℕ) : ServeState L n :=
  let call := ServeCall.start session
  if s.requestSlots = 0 then s.put i (call.sendEmpty 503 retryAfter)
  else
    let s := { s with requestSlots := s.requestSlots - 1 }
    let call := { call with requestPermit := true }
    if session.request.method ≠ methodGet ∧ session.isHead = false then
      s.put i (call.sendEmpty 405 [(ascii "allow", ascii "GET, HEAD")])
    else
      match roots.lookup session.hostName with
      | none => s.put i (call.sendEmpty 500 [])
      | some root =>
        match s.paths.get session.hostName session.path now with
        | (some asset, paths) => { s with paths }.select env i call root asset
        | (none, paths) => { s with paths }.put i { call with phase := .resolving root now }

/-- The path has been resolved on the file system. -/
def resolve (s : ServeState L n) (i : ℕ) (call : ServeCall) (root : Bytes) (now : ℕ) (fs : ℕ → FileSystem) :
    ServeState L n :=
  match resolveAsset env.percentDecode fs root call.session.path with
  | none => s.put i (call.sendEmpty 404 [])
  | some asset =>
    { s with paths := s.paths.insert call.session.hostName call.session.path asset now }.select env i call root asset

/-- A permit to read is there; another call may have read the file meanwhile. -/
def acquireColdRead (s : ServeState L n) (i : ℕ) (call : ServeCall) (root : Bytes) (asset : ResolvedAsset)
    (encoding : Encoding) : ServeState L n :=
  match s.cache.get env.hash (keyOf asset encoding) with
  | (some cached, cache) => { s with cache }.put i (call.answer asset encoding cached)
  | (none, cache) =>
    { s with cache, coldReadSlot := s.coldReadSlot - 1 }.put i
      { call with phase := .reading root asset encoding, coldReadPermit := true }

/-- The file has been read. After an error the permit is kept until the call returns. -/
def read (s : ServeState L n) (i : ℕ) (call : ServeCall) (root : Bytes) (asset : ResolvedAsset) (encoding : Encoding)
    (disk : ℕ → Disk) : ServeState L n :=
  match readRepresentation env disk root asset.path encoding with
  | none => s.put i (call.sendEmpty 500 [])
  | some (body, actualEncoding) =>
    match cachedAsset env asset body with
    | none => s.put i call.fail
    | some cached =>
      { s with
        cache := s.cache.insert env.hash (keyOf asset actualEncoding) cached
        coldReadSlot := s.coldReadSlot + 1 }.put i
          ({ call with coldReadPermit := false }.answer asset encoding cached)

/-- Dropping the call drops its permits. -/
def leave (s : ServeState L n) (i : ℕ) (call : ServeCall) : ServeState L n :=
  { s with
    requestSlots := s.requestSlots + call.requestPermit.toNat
    streamSlots := s.streamSlots + call.streamPermit.toNat
    coldReadSlot := s.coldReadSlot + call.coldReadPermit.toNat }.put i call.leave

def step (s : ServeState L n) : ServeEvent → Option (ServeState L n)
  | .serve i session now => if (s.calls.lookup i).isSome then none else some (s.serve env roots i session now)
  | .resolve i fs => do
    let call ← s.calls.lookup i
    match call.phase with
    | .resolving root now => some (s.resolve env i call root now fs)
    | _ => none
  | .acquireColdRead i => do
    let call ← s.calls.lookup i
    match call.phase with
    | .queued root asset encoding =>
      if 0 < s.coldReadSlot then some (s.acquireColdRead env i call root asset encoding) else none
    | _ => none
  | .read i disk => do
    let call ← s.calls.lookup i
    match call.phase with
    | .reading root asset encoding => some (s.read env i call root asset encoding disk)
    | _ => none
  | .openFile i ok => do
    let call ← s.calls.lookup i
    match call.phase with
    | .opening asset => some (s.put i (call.opened env asset ok))
    | _ => none
  | .readChunk i chunk => do
    let call ← s.calls.lookup i
    match call.phase with
    | .streaming asset remaining =>
      match chunk with
      | none => some (s.put i call.fail)
      | some chunk =>
        if chunk.length ≤ min remaining fileChunkBytes then some (s.put i (call.sendChunk asset remaining chunk))
        else none
    | _ => none
  | .leave i => do
    let call ← s.calls.lookup i
    match call.phase with
    | .returned => none
    | _ => some (s.leave i call)

/-- The branches of `step` in which it has a result, with their guards. -/
inductive Steps (s : ServeState L n) : ServeEvent → ServeState L n → Prop
  | serve {i session now} : s.calls.lookup i = none → Steps s (.serve i session now) (s.serve env roots i session now)
  | resolve {i fs call root now} : s.calls.lookup i = some call → call.phase = .resolving root now →
      Steps s (.resolve i fs) (s.resolve env i call root now fs)
  | acquireColdRead {i call root asset encoding} : s.calls.lookup i = some call →
      call.phase = .queued root asset encoding → 0 < s.coldReadSlot →
      Steps s (.acquireColdRead i) (s.acquireColdRead env i call root asset encoding)
  | read {i disk call root asset encoding} : s.calls.lookup i = some call →
      call.phase = .reading root asset encoding →
      Steps s (.read i disk) (s.read env i call root asset encoding disk)
  | openFile {i ok call asset} : s.calls.lookup i = some call → call.phase = .opening asset →
      Steps s (.openFile i ok) (s.put i (call.opened env asset ok))
  | readChunk {i chunk call asset remaining} : s.calls.lookup i = some call →
      call.phase = .streaming asset remaining → chunk.length ≤ min remaining fileChunkBytes →
      Steps s (.readChunk i (some chunk)) (s.put i (call.sendChunk asset remaining chunk))
  | readError {i call asset remaining} : s.calls.lookup i = some call → call.phase = .streaming asset remaining →
      Steps s (.readChunk i none) (s.put i call.fail)
  | leave {i call} : s.calls.lookup i = some call → Steps s (.leave i) (s.leave i call)

lemma steps_of_step {s t : ServeState L n} {ev : ServeEvent} (h : s.step env roots ev = some t) :
    s.Steps env roots ev t := by
  cases ev with
  | serve i session now =>
    rw [step] at h
    split_ifs at h with hnew
    obtain rfl := Option.some.inj h
    exact .serve (Option.not_isSome_iff_eq_none.mp hnew)
  | resolve i fs =>
    obtain ⟨call, hcall, h⟩ := Option.bind_eq_some_iff.mp h
    split at h
    · rename_i root now hphase
      obtain rfl := Option.some.inj h
      exact .resolve hcall hphase
    · cases h
  | acquireColdRead i =>
    obtain ⟨call, hcall, h⟩ := Option.bind_eq_some_iff.mp h
    split at h
    · rename_i root asset encoding hphase
      split_ifs at h with hfree
      obtain rfl := Option.some.inj h
      exact .acquireColdRead hcall hphase hfree
    · cases h
  | read i disk =>
    obtain ⟨call, hcall, h⟩ := Option.bind_eq_some_iff.mp h
    split at h
    · rename_i root asset encoding hphase
      obtain rfl := Option.some.inj h
      exact .read hcall hphase
    · cases h
  | openFile i ok =>
    obtain ⟨call, hcall, h⟩ := Option.bind_eq_some_iff.mp h
    split at h
    · rename_i asset hphase
      obtain rfl := Option.some.inj h
      exact .openFile hcall hphase
    · cases h
  | readChunk i chunk =>
    obtain ⟨call, hcall, h⟩ := Option.bind_eq_some_iff.mp h
    split at h
    · rename_i asset remaining hphase
      cases chunk with
      | none =>
        obtain rfl := Option.some.inj h
        exact .readError hcall hphase
      | some chunk =>
        dsimp only at h
        split_ifs at h with hsize
        obtain rfl := Option.some.inj h
        exact .readChunk hcall hphase hsize
    · cases h
  | leave i =>
    obtain ⟨call, hcall, h⟩ := Option.bind_eq_some_iff.mp h
    split at h
    · cases h
    · obtain rfl := Option.some.inj h
      exact .leave hcall

/-- The events lead from empty caches and free permits to the state. -/
def Run (cacheBytes : ℕ) (events : List ServeEvent) (s : ServeState L (perHostCapacity roots.entries.length)) : Prop :=
  Runs.Run (fun s ev t => step env roots s ev = some t) (new roots.keys cacheBytes) events s

end ServeState

/-! ### Two downloads -/

def exampleStaticEnv : StaticEnv :=
  ⟨HttpCrate.reference, fun _ => 0, percentDecode, some, some, some, fun _ => none,
    fun _ => ascii "Thu, 01 Jan 1970 00:00:00 GMT"⟩

def exampleRoots : Table Bytes Bytes := AList.insert (ascii "www") (ascii "/srv") ∅

def exampleLargeFiles : FileSystem := ⟨some, fun _ => some ⟨true, false, 9000000, none⟩⟩

def exampleDownload (headers : HeaderMap) : StaticRequest :=
  ⟨ascii "www", ⟨methodGet, ⟨false, none, ascii "/film"⟩, .http11, headers⟩, true⟩

/-- A client downloads a large file that has become short meanwhile; another client has the file already. -/
def exampleDownloads : List ServeEvent :=
  [.serve 0 (exampleDownload []) 0,
    .resolve 0 fun _ => exampleLargeFiles,
    .openFile 0 true,
    .readChunk 0 (some [1, 2, 3]),
    .serve 1 (exampleDownload [(ascii "if-none-match", etagText 9000000 0)]) 5,
    .readChunk 0 (some []),
    .leave 1,
    .leave 0]

abbrev ExampleServeState := ServeState .reference (perHostCapacity exampleRoots.entries.length)

def exampleDownloadsEnd : Option ExampleServeState :=
  Runs.exec (ServeState.step exampleStaticEnv exampleRoots) (.new exampleRoots.keys 0) exampleDownloads

end Pingola.StaticFiles
