import Pingola.Cache.Key

/-!
# Navidrome metadata cache helpers

The functions of `cache/navidrome.rs`. Text is a byte string, a duration is a number of
nanoseconds. The two hashers of the file are modelled by the calls made on them
(`scopeWrites`, `keyWrites`) and the digest of these calls.
-/

namespace Pingola
open ByteText

def methodGet : Bytes := ascii "GET"

def cacheableSuffixes : List Bytes :=
  ["getAlbum", "getArtist", "getSong", "getGenres", "getMusicFolders", "getAlbumInfo",
    "getArtistInfo", "getSongInfo"].map ascii

def blockedSuffixes : List Bytes :=
  ["scrobble", "star", "unstar", "setRating", "savePlayQueue", "create", "update", "delete",
    "search", "getStarred", "getRandomSongs", "getNowPlaying", "getPlaylists", "getPlaylist",
    "getUser", "getUsers", "getCoverArt", "download", "stream"].map ascii

def invalidatingSuffixes : List Bytes := ["star", "unstar", "setRating"].map ascii

structure NavidromeCachePolicy where
  enabled : Bool
  defaultTtl : ℕ
  maxTtl : ℕ
  maxResponseBytes : ℕ

/-- `NavidromeCachePolicy::default`. -/
def NavidromeCachePolicy.default : NavidromeCachePolicy where
  enabled := true
  defaultTtl := fromSecs 60
  maxTtl := fromSecs 300
  maxResponseBytes := 512 * 1024

structure NavidromeCacheable where
  endpoint : Bytes
  userScope : Bytes
  stableParams : List (Bytes × Bytes)
  deriving DecidableEq

def normalizeEndpoint (path : Bytes) : Option Bytes := do
  let trimmed := path.dropWhile (· == byte '/')
  let base ← (((stripPrefix (ascii "rest/") trimmed).getD trimmed).splitOn (byte '/')).head?
  let withoutView := (stripSuffix (ascii ".view") base).getD base
  if withoutView.isEmpty then none else some withoutView

/-- The pairs of a query string in the order of the request. -/
def queryPairs (query : Option Bytes) : List (Bytes × Bytes) :=
  match query with
  | none => []
  | some query => ((query.splitOn (byte '&')).filter (fun pair => !pair.isEmpty)).map fun pair =>
      (splitOnce (byte '=') pair).getD (pair, [])

def parseQueryPairs (query : Option Bytes) : List (Bytes × Bytes) := sortPairs (queryPairs query)

/-- `params.iter().find(|(key, _)| key == name)`, with the value of the pair found. -/
def findParam (params : List (Bytes × Bytes)) (name : Bytes) : Option Bytes :=
  (params.find? fun p => p.1 == name).map Prod.snd

/-- The calls `authenticated_user_scope` makes on its hasher, `none` where it returns `None`. -/
def scopeWrites (params : List (Bytes × Bytes)) : Option (List HashWrite) :=
  let username := (findParam params (ascii "u")).getD []
  let hasher := [.bytes username, .u8 0]
  match findParam params (ascii "apiKey") with
  | some apiKey =>
    if apiKey.isEmpty then none
    else some (hasher ++ [.bytes (ascii "apiKey\x00"), .bytes apiKey])
  | none =>
    match findParam params (ascii "p") with
    | some password =>
      if username.isEmpty || password.isEmpty then none
      else some (hasher ++ [.bytes (ascii "password\x00"), .bytes password])
    | none =>
      match findParam params (ascii "jwt") with
      | some jwt =>
        if jwt.isEmpty then none
        else some (hasher ++ [.bytes (ascii "jwt\x00"), .bytes jwt])
      | none => do
        let token ← findParam params (ascii "t")
        let salt ← findParam params (ascii "s")
        if username.isEmpty || token.isEmpty || salt.isEmpty then none
        else some (hasher ++ [.bytes (ascii "token-salt\x00"), .bytes token, .u8 0, .bytes salt])

/-- The text of a scope digest, `auth:{:016x}`. -/
def scopeText {D : Type} (H : AHasher D) (ws : List HashWrite) : Bytes :=
  ascii "auth:" ++ hex016 (H.value (H.finish ws))

def authenticatedUserScope {D : Type} (H : AHasher D) (params : List (Bytes × Bytes)) :
    Option Bytes :=
  (scopeWrites params).map (scopeText H)

def sensitive : List Bytes := ["u", "t", "s", "p", "apiKey", "jwt"].map ascii

/-- The names whose pairs `stable_query_params` keeps. -/
def isStableName (key : Bytes) : Bool :=
  !sensitive.contains key && key != ascii "callback" && !(ascii "Token").isSuffixOf key &&
    !(ascii "Salt").isSuffixOf key

def stableQueryParams (params : List (Bytes × Bytes)) : List (Bytes × Bytes) :=
  params.filter fun p => isStableName p.1

def navidromeCacheable {D : Type} (H : AHasher D) (method path : Bytes) (query : Option Bytes)
    (policy : NavidromeCachePolicy) : Option NavidromeCacheable :=
  if !policy.enabled || method != methodGet then none
  else do
    let endpoint ← normalizeEndpoint path
    if blockedSuffixes.any (eqIgnoreAsciiCase endpoint) then none
    else if !cacheableSuffixes.any (eqIgnoreAsciiCase endpoint) then none
    else
      let params := parseQueryPairs query
      if params.any fun p => p.1 == ascii "callback" then none
      else do
        let responseFormat ← findParam params (ascii "f")
        if !eqIgnoreAsciiCase responseFormat (ascii "json") then none
        else do
          let userScope ← authenticatedUserScope H params
          some ⟨endpoint, userScope, stableQueryParams params⟩

def navidromeInvalidatesCache (path : Bytes) : Bool :=
  (normalizeEndpoint path).any fun endpoint =>
    invalidatingSuffixes.any (eqIgnoreAsciiCase endpoint)

/-- The calls `navidrome_cache_key` makes on its hasher. -/
def keyWrites (entry : NavidromeCacheable) : List HashWrite :=
  [.bytes entry.endpoint, .bytes entry.userScope] ++
    entry.stableParams.flatMap fun p => [.bytes p.1, .u8 0, .bytes p.2, .u8 0xff]

def navidromeCacheKey {D : Type} (H : AHasher D) (entry : NavidromeCacheable) : CacheKey D :=
  ⟨.navidrome, H.finish (keyWrites entry)⟩

/-- The three markers are ASCII, so they occur in the lossy text of the prefix exactly where
they occur in its bytes. -/
def navidromeResponseIsError (body : Bytes) : Bool :=
  let text := body.take 512
  ["<error ", "\"status\":\"failed\"", "\"status\": \"failed\""].any fun marker =>
    containsBytes (ascii marker) text

def navidromeResponseTtl (responseBody : Bytes) (cacheControlMaxAge : Option ℕ)
    (policy : NavidromeCachePolicy) : Option ℕ :=
  if policy.maxResponseBytes < responseBody.length || navidromeResponseIsError responseBody then none
  else some (min ((cacheControlMaxAge.map fromSecs).getD policy.defaultTtl) policy.maxTtl)

/-- The values a query carries for one parameter name, in the order of the request. -/
def paramValues (name : Bytes) (query : Option Bytes) : List Bytes :=
  ((queryPairs query).filter fun p => p.1 == name).map Prod.snd

end Pingola
