import Pingola.Cache.Key
import Pingola.Lib.LruCache
import Pingola.Lib.PercentEncoding
import Pingola.Lib.UnixPath

/-!
# Resolving static files

`resolve_path`, `resolve_cached_at` and `PathCache` of `static_files.rs`. The file system may change at any
time, so a resolution has an answer of its own for each of its system calls, which are numbered in the
order of the source. The decoding of percent escapes and the implementation of the LRU caches are arguments;
`percentDecode` and `LruCrate.reference` are what their crates document.
-/

namespace Pingola.StaticFiles
open ByteText

/-- Times are in nanoseconds since the epoch. -/
structure Metadata where
  isFile : Bool
  isDir : Bool
  len : ℕ
  modified : Option ℤ

structure FileSystem where
  canonicalize : Bytes → Option Bytes
  metadata : Bytes → Option Metadata

structure ResolvedAsset where
  path : Bytes
  spaFallback : Bool
  length : ℕ
  modified : ℤ
  modifiedNanos : ℕ

structure CachedPath where
  asset : ResolvedAsset
  expiresAt : ℕ

def pathCacheTtl : ℕ := fromSecs 1

def maxPathCacheEntries : ℕ := 256

def perHostCapacity (hostCount : ℕ) : ℕ := max (maxPathCacheEntries / max hostCount 1) 1

instance instNeZeroPerHostCapacity (hostCount : ℕ) : NeZero (perHostCapacity hostCount) :=
  ⟨by unfold perHostCapacity; omega⟩

/-! ### Resolution -/

def indexHtml : Bytes := ascii "index.html"

/-- The loop over the components of the decoded path. -/
def relativeLoop : Bytes → List UnixPath.Component → Option Bytes
  | relative, [] => some relative
  | relative, .rootDir :: rest => relativeLoop relative rest
  | relative, .curDir :: rest => relativeLoop relative rest
  | relative, .normal part :: rest => relativeLoop (UnixPath.join relative part) rest
  | _, .parentDir :: _ => none

/-- `resolve_path` up to its first system call. -/
def relativePath (decode : Bytes → Bytes) (uriPath : Bytes) : Option Bytes :=
  let decoded := decode uriPath
  if !isUtf8 decoded then none
  else if decoded.contains 0 then none
  else (relativeLoop [] (UnixPath.components decoded)).map fun relative =>
    if relative = [] ∨ decoded.getLast? = some (byte '/') then UnixPath.join relative indexHtml else relative

def isRegularFile (metadata : Option Metadata) : Bool := metadata.any Metadata.isFile

section

variable (decode : Bytes → Bytes) (fs : ℕ → FileSystem) (root : Bytes)

/-- The file of a path, or the index of a directory. -/
def requestedPath (relative : Bytes) : Option Bytes := do
  let candidate ← (fs 0).canonicalize (UnixPath.join root relative)
  if UnixPath.StartsWith candidate root then
    let metadata ← (fs 1).metadata candidate
    if metadata.isFile then some candidate
    else if metadata.isDir then
      let index ← (fs 2).canonicalize (UnixPath.join candidate indexHtml)
      if UnixPath.StartsWith index root ∧ isRegularFile ((fs 3).metadata index) = true then some index else none
    else none
  else none

/-- The index of the root. -/
def fallbackPath : Option Bytes := do
  let index ← (fs 4).canonicalize (UnixPath.join root indexHtml)
  let isFile := isRegularFile ((fs 5).metadata index)
  if UnixPath.StartsWith index root ∧ isFile = true then some index else none

def resolvePath (uriPath : Bytes) : Option (Bytes × Bool) := do
  let relative ← relativePath decode uriPath
  match requestedPath fs root relative with
  | some path => some (path, false)
  | none => (fallbackPath fs root).map fun path => (path, true)

/-- `resolve_cached_at` after a miss, up to the insertion. -/
def resolveAsset (uriPath : Bytes) : Option ResolvedAsset := do
  let (path, spaFallback) ← resolvePath decode fs root uriPath
  let metadata ← (fs 6).metadata path
  if !metadata.isFile then none
  else
    let modified := metadata.modified.getD 0
    some
      { path
        spaFallback
        length := metadata.len
        modified
        modifiedNanos := modified.toNat }

end

/-! ### The cache -/

/-- One cache for each host. -/
abbrev PathCache (L : LruCrate) (n : ℕ) := Table Bytes (L.Cache n Bytes CachedPath)

namespace PathCache

variable {L : LruCrate} {n : ℕ}

def new (hosts : List Bytes) : PathCache L n := hosts.foldl (fun entries host => entries.insert host L.new) ∅

def get (cache : PathCache L n) (host uri : Bytes) (now : ℕ) : Option ResolvedAsset × PathCache L n :=
  match cache.lookup host with
  | none => (none, cache)
  | some entries =>
    let found := L.get entries uri
    ((found.1.filter fun cached => now < cached.expiresAt).map CachedPath.asset, cache.insert host found.2)

def insert (cache : PathCache L n) (host uri : Bytes) (asset : ResolvedAsset) (now : ℕ) : PathCache L n :=
  match cache.lookup host with
  | none => cache
  | some entries => AList.insert host (L.put entries uri ⟨asset, now + pathCacheTtl⟩) cache

end PathCache

section

variable {L : LruCrate} {n : ℕ} (decode : Bytes → Bytes)

def resolveCachedAt (fs : ℕ → FileSystem) (cache : PathCache L n) (hostName root uriPath : Bytes) (now : ℕ) :
    Option ResolvedAsset × PathCache L n :=
  match cache.get hostName uriPath now with
  | (some cached, cache) => (some cached, cache)
  | (none, cache) =>
    match resolveAsset decode fs root uriPath with
    | none => (none, cache)
    | some resolved => (some resolved, cache.insert hostName uriPath resolved now)

/-- A call of `resolve_cached_at`, with the file system that it meets. -/
structure ResolveCall where
  host : Bytes
  uri : Bytes
  now : ℕ
  fs : ℕ → FileSystem

/-- `serve` passes the root of the host; a host without one is not served. -/
def resolveCall (roots : Table Bytes Bytes) (cache : PathCache L n) (call : ResolveCall) :
    Option ResolvedAsset × PathCache L n :=
  match roots.lookup call.host with
  | none => (none, cache)
  | some root => resolveCachedAt decode call.fs cache call.host root call.uri call.now

end

section

variable (L : LruCrate) (decode : Bytes → Bytes) (roots : Table Bytes Bytes)

/-- The cache after some calls. -/
def pathsAfter (calls : List ResolveCall) : PathCache L (perHostCapacity roots.entries.length) :=
  calls.foldl (fun cache call => (resolveCall decode roots cache call).2) (PathCache.new roots.keys)

/-- What a call returns after some others. -/
def resolved (earlier : List ResolveCall) (call : ResolveCall) : Option ResolvedAsset :=
  (resolveCall decode roots (pathsAfter L decode roots earlier) call).1

end

/-! ### What a resolution gives -/

lemma relativeLoop_of_parentDir {relative : Bytes} {rest : List UnixPath.Component} (h : .parentDir ∈ rest) :
    relativeLoop relative rest = none := by
  induction rest generalizing relative with
  | nil => cases h
  | cons component rest ih =>
    cases component with
    | parentDir => rfl
    | rootDir => exact ih ((List.mem_cons.mp h).resolve_left UnixPath.Component.noConfusion)
    | curDir => exact ih ((List.mem_cons.mp h).resolve_left UnixPath.Component.noConfusion)
    | normal part => exact ih ((List.mem_cons.mp h).resolve_left UnixPath.Component.noConfusion)

/-- A path that decodes to something else than a relative path below its start. -/
def Rejected (decode : Bytes → Bytes) (uriPath : Bytes) : Prop :=
  isUtf8 (decode uriPath) = false ∨ 0 ∈ decode uriPath ∨ ascii ".." ∈ (decode uriPath).splitOn (byte '/')

lemma relativePath_of_rejected {decode : Bytes → Bytes} {uriPath : Bytes} (h : Rejected decode uriPath) :
    relativePath decode uriPath = none := by
  rw [relativePath]
  rcases h with hutf8 | hnul | hparent
  · rw [hutf8]
    rfl
  · split_ifs with hutf8 hzero
    · rfl
    · rfl
    · exact absurd (List.contains_iff_mem.mpr hnul) hzero
  · split_ifs with hutf8 hzero
    · rfl
    · rfl
    · rw [relativeLoop_of_parentDir (UnixPath.parentDir_mem_components hparent)]
      rfl

section

variable {decode : Bytes → Bytes} {fs : ℕ → FileSystem} {root uriPath path : Bytes} {spaFallback : Bool}
  {asset : ResolvedAsset}

lemma startsWith_of_requestedPath {relative : Bytes} (h : requestedPath fs root relative = some path) :
    UnixPath.StartsWith path root := by
  obtain ⟨candidate, -, h⟩ := Option.bind_eq_some_iff.mp h
  split_ifs at h with hbelow
  obtain ⟨metadata, -, h⟩ := Option.bind_eq_some_iff.mp h
  split_ifs at h with hfile hdir
  · obtain rfl := Option.some.inj h
    exact hbelow
  · obtain ⟨index, -, h⟩ := Option.bind_eq_some_iff.mp h
    split_ifs at h with hindex
    obtain rfl := Option.some.inj h
    exact hindex.1

lemma startsWith_of_fallbackPath (h : fallbackPath fs root = some path) : UnixPath.StartsWith path root := by
  obtain ⟨index, -, h⟩ := Option.bind_eq_some_iff.mp h
  dsimp only at h
  split_ifs at h with hindex
  obtain rfl := Option.some.inj h
  exact hindex.1

lemma startsWith_of_resolvePath (h : resolvePath decode fs root uriPath = some (path, spaFallback)) :
    UnixPath.StartsWith path root := by
  obtain ⟨relative, -, h⟩ := Option.bind_eq_some_iff.mp h
  split at h
  case h_1 requested hrequested =>
    obtain ⟨rfl, -⟩ := Prod.mk.inj (Option.some.inj h)
    exact startsWith_of_requestedPath hrequested
  case h_2 =>
    obtain ⟨index, hindex, h⟩ := Option.map_eq_some_iff.mp h
    obtain ⟨rfl, -⟩ := Prod.mk.inj h
    exact startsWith_of_fallbackPath hindex

lemma resolveAsset_eq_some (h : resolveAsset decode fs root uriPath = some asset) :
    resolvePath decode fs root uriPath = some (asset.path, asset.spaFallback) ∧
      ∃ metadata, (fs 6).metadata asset.path = some metadata ∧ metadata.isFile = true := by
  obtain ⟨⟨path, spaFallback⟩, hpath, h⟩ := Option.bind_eq_some_iff.mp h
  obtain ⟨metadata, hmetadata, h⟩ := Option.bind_eq_some_iff.mp h
  split_ifs at h with hfile
  obtain rfl := Option.some.inj h
  exact ⟨hpath, metadata, hmetadata, by simpa using hfile⟩

lemma resolveAsset_of_rejected (h : Rejected decode uriPath) : resolveAsset decode fs root uriPath = none := by
  rw [resolveAsset, resolvePath, relativePath_of_rejected h]
  rfl

end

/-! ### What is cached -/

namespace PathCache

variable {L : LruCrate} {n : ℕ} {cache : PathCache L n} {host uri : Bytes} {now : ℕ} {asset : ResolvedAsset}

/-- The entry of an address in the cache of a host. -/
def entry (cache : PathCache L n) (host uri : Bytes) : Option CachedPath :=
  (cache.lookup host).bind fun entries => (L.table entries).lookup uri

lemma entry_new (hosts : List Bytes) (host uri : Bytes) : (new hosts : PathCache L n).entry host uri = none := by
  have hfold : ∀ (hosts : List Bytes) (cache : PathCache L n), cache.entry host uri = none →
      entry (hosts.foldl (fun entries host => AList.insert host L.new entries) cache) host uri = none := by
    intro hosts
    induction hosts with
    | nil => exact fun cache h => h
    | cons first hosts ih =>
      intro cache h
      apply ih
      rw [entry, Table.lookup_insert_if]
      split
      · rw [Option.bind_some, LruCrate.table, L.view_new]
        rfl
      · exact h
  exact hfold hosts ∅ rfl

lemma entry_get (cache : PathCache L n) (host uri : Bytes) (now : ℕ) (host' uri' : Bytes) :
    (cache.get host uri now).2.entry host' uri' = cache.entry host' uri' := by
  rw [get]
  split
  · rfl
  case h_2 entries hentries =>
    dsimp only
    rw [entry, entry, Table.lookup_insert_if]
    split
    case isTrue hhost => rw [hhost, hentries, Option.bind_some, Option.bind_some, LruCrate.lookup_get]
    case isFalse => rfl

/-- What is found has not expired. -/
lemma get_eq_some (h : (cache.get host uri now).1 = some asset) :
    ∃ cached, cache.entry host uri = some cached ∧ now < cached.expiresAt ∧ cached.asset = asset := by
  rw [get] at h
  split at h
  · cases h
  case h_2 entries hentries =>
    obtain ⟨cached, hfound, hasset⟩ := Option.map_eq_some_iff.mp h
    obtain ⟨hfound, hfresh⟩ := Option.filter_eq_some_iff.mp hfound
    refine ⟨cached, ?_, of_decide_eq_true hfresh, hasset⟩
    rw [entry, hentries, Option.bind_some, ← LruCrate.get_eq_lookup]
    exact hfound

/-- An insertion adds its own entry at most. -/
lemma entry_insert_cases {host' uri' : Bytes} {cached : CachedPath}
    (h : (cache.insert host uri asset now).entry host' uri' = some cached) :
    host' = host ∧ uri' = uri ∧ cached = ⟨asset, now + pathCacheTtl⟩ ∨ cache.entry host' uri' = some cached := by
  rw [insert] at h
  split at h
  · exact .inr h
  case h_2 entries hentries =>
    obtain ⟨entries', hentries', hcached⟩ := Option.bind_eq_some_iff.mp h
    rcases Table.lookup_insert_cases hentries' with ⟨rfl, rfl⟩ | ⟨-, hold⟩
    · rw [LruCrate.table, L.view_put] at hcached
      rcases LruCache.lookup_put_cases hcached with ⟨rfl, rfl⟩ | ⟨-, hold⟩
      · exact .inl ⟨rfl, rfl, rfl⟩
      · refine .inr ?_
        rw [entry, hentries]
        exact hold
    · refine .inr ?_
      rw [entry, hold]
      exact hcached

end PathCache

/-! ### All calls -/

section

variable {L : LruCrate} {decode : Bytes → Bytes} {roots : Table Bytes Bytes} {calls earlier : List ResolveCall}
  {call : ResolveCall} {host uri : Bytes} {asset : ResolvedAsset} {t : ℕ}

/-- One of the calls found nothing in the cache and resolved the asset, at the given time. -/
def ResolvedAt (L : LruCrate) (decode : Bytes → Bytes) (roots : Table Bytes Bytes) (calls : List ResolveCall)
    (host uri : Bytes) (asset : ResolvedAsset) (t : ℕ) : Prop :=
  ∃ before source after root, calls = before ++ source :: after ∧ source.host = host ∧ source.uri = uri ∧
    source.now = t ∧ ((pathsAfter L decode roots before).get host uri t).1 = none ∧ roots.lookup host = some root ∧
    resolveAsset decode source.fs root uri = some asset

lemma ResolvedAt.append (h : ResolvedAt L decode roots calls host uri asset t) (call : ResolveCall) :
    ResolvedAt L decode roots (calls ++ [call]) host uri asset t := by
  obtain ⟨before, source, after, root, rfl, hsource⟩ := h
  exact ⟨before, source, after ++ [call], root, by simp, hsource⟩

lemma ResolvedAt.last {root : Bytes} (hroot : roots.lookup call.host = some root)
    (hmiss : ((pathsAfter L decode roots earlier).get call.host call.uri call.now).1 = none)
    (hasset : resolveAsset decode call.fs root call.uri = some asset) :
    ResolvedAt L decode roots (earlier ++ [call]) call.host call.uri asset call.now :=
  ⟨earlier, call, [], root, rfl, rfl, rfl, rfl, hmiss, hroot, hasset⟩

/-- A call gives what is cached and fresh, or resolves and caches. -/
lemma resolveCall_cases (L : LruCrate) (decode : Bytes → Bytes) (roots : Table Bytes Bytes)
    (earlier : List ResolveCall) (call : ResolveCall) :
    let cache := pathsAfter L decode roots earlier
    (∃ cached, cache.entry call.host call.uri = some cached ∧ call.now < cached.expiresAt ∧
        resolved L decode roots earlier call = some cached.asset ∧
        (pathsAfter L decode roots (earlier ++ [call])) = (cache.get call.host call.uri call.now).2) ∨
      (∃ asset, resolved L decode roots earlier call = some asset ∧
        ResolvedAt L decode roots (earlier ++ [call]) call.host call.uri asset call.now ∧
        pathsAfter L decode roots (earlier ++ [call]) =
          (cache.get call.host call.uri call.now).2.insert call.host call.uri asset call.now) ∨
      (resolved L decode roots earlier call = none ∧
        (pathsAfter L decode roots (earlier ++ [call]) = cache ∨
          pathsAfter L decode roots (earlier ++ [call]) = (cache.get call.host call.uri call.now).2)) := by
  intro cache
  have hafter : pathsAfter L decode roots (earlier ++ [call]) = (resolveCall decode roots cache call).2 := by
    rw [pathsAfter, List.foldl_append]
    rfl
  rw [hafter, resolved]
  change _ ∨ _ ∨ (resolveCall decode roots cache call).1 = none ∧ _
  rw [resolveCall]
  cases hroot : roots.lookup call.host with
  | none => exact .inr (.inr ⟨rfl, .inl rfl⟩)
  | some root =>
    dsimp only
    rw [resolveCachedAt]
    rcases hget : cache.get call.host call.uri call.now with ⟨_ | cached, cache'⟩
    · dsimp only
      cases hasset : resolveAsset decode call.fs root call.uri with
      | none => exact .inr (.inr ⟨rfl, .inr rfl⟩)
      | some asset =>
        refine .inr (.inl ⟨asset, rfl, ?_, rfl⟩)
        exact .last hroot (congrArg Prod.fst hget) hasset
    · have hcached : (cache.get call.host call.uri call.now).1 = some cached := congrArg Prod.fst hget
      obtain ⟨found, hentry, hfresh, hasset⟩ := PathCache.get_eq_some hcached
      exact .inl ⟨found, hentry, hfresh, congrArg some hasset.symm, rfl⟩

/-- Every cached asset was resolved by a call a lifetime before it expires. -/
lemma exists_resolvedAt (L : LruCrate) (decode : Bytes → Bytes) (roots : Table Bytes Bytes)
    (calls : List ResolveCall) {cached : CachedPath}
    (h : (pathsAfter L decode roots calls).entry host uri = some cached) :
    ∃ t, ResolvedAt L decode roots calls host uri cached.asset t ∧ cached.expiresAt = t + pathCacheTtl := by
  induction calls using List.reverseRecOn generalizing host uri cached with
  | nil =>
    rw [pathsAfter, List.foldl_nil, PathCache.entry_new] at h
    cases h
  | append_singleton calls call ih =>
    have hkept : (pathsAfter L decode roots calls).entry host uri = some cached →
        ∃ t, ResolvedAt L decode roots (calls ++ [call]) host uri cached.asset t ∧
          cached.expiresAt = t + pathCacheTtl := by
      intro hold
      obtain ⟨t, ht, hexpires⟩ := ih hold
      exact ⟨t, ht.append call, hexpires⟩
    rcases resolveCall_cases L decode roots calls call with ⟨-, -, -, -, hafter⟩ | ⟨asset, -, hasset, hafter⟩ |
      ⟨-, hafter | hafter⟩
    · rw [hafter, PathCache.entry_get] at h
      exact hkept h
    · rw [hafter] at h
      rcases PathCache.entry_insert_cases h with ⟨rfl, rfl, rfl⟩ | hold
      · exact ⟨call.now, hasset, rfl⟩
      · rw [PathCache.entry_get] at hold
        exact hkept hold
    · rw [hafter] at h
      exact hkept h
    · rw [hafter, PathCache.entry_get] at h
      exact hkept h

/-- Whatever a call returns was resolved less than a lifetime before. -/
lemma resolvedAt_of_resolved (h : resolved L decode roots earlier call = some asset) :
    ∃ t, ResolvedAt L decode roots (earlier ++ [call]) call.host call.uri asset t ∧ call.now < t + pathCacheTtl := by
  rcases resolveCall_cases L decode roots earlier call with ⟨cached, hentry, hfresh, hcached, -⟩ |
    ⟨asset', hcached, hresolved, -⟩ | ⟨hnone, -⟩
  · obtain ⟨t, ht, hexpires⟩ := exists_resolvedAt L decode roots earlier hentry
    obtain rfl : cached.asset = asset := Option.some.inj (hcached.symm.trans h)
    exact ⟨t, ht.append call, hexpires ▸ hfresh⟩
  · obtain rfl : asset' = asset := Option.some.inj (hcached.symm.trans h)
    exact ⟨call.now, hresolved, Nat.lt_add_of_pos_right (by decide)⟩
  · rw [hnone] at h
    cases h

/-- Whatever the file system answers, a returned asset lies below the root of the host, and less than a
second before it was resolved for the same host and address as a regular file. An address that leaves the
root is never resolved. -/
theorem resolved_below_root (L : LruCrate) (decode : Bytes → Bytes) (roots : Table Bytes Bytes)
    (earlier : List ResolveCall) (call : ResolveCall) :
    (∀ asset, resolved L decode roots earlier call = some asset →
      ∃ root, roots.lookup call.host = some root ∧ UnixPath.StartsWith asset.path root ∧
        ∃ before source after, earlier ++ [call] = before ++ source :: after ∧
          source.host = call.host ∧ source.uri = call.uri ∧ call.now < source.now + fromSecs 1 ∧
          ((pathsAfter L decode roots before).get source.host source.uri source.now).1 = none ∧
          resolvePath decode source.fs root source.uri = some (asset.path, asset.spaFallback) ∧
          ∃ metadata, (source.fs 6).metadata asset.path = some metadata ∧ metadata.isFile = true) ∧
      (isUtf8 (decode call.uri) = false ∨ 0 ∈ decode call.uri ∨
          ascii ".." ∈ (decode call.uri).splitOn (byte '/') →
        resolved L decode roots earlier call = none) := by
  refine ⟨fun asset h => ?_, fun hrejected => ?_⟩
  · obtain ⟨t, ⟨before, source, after, root, hcalls, hhost, huri, rfl, hmiss, hroot, hasset⟩, hrecent⟩ :=
      resolvedAt_of_resolved h
    obtain ⟨hpath, hfile⟩ := resolveAsset_eq_some hasset
    refine ⟨root, hroot, startsWith_of_resolvePath hpath, before, source, after, hcalls, hhost, huri, hrecent, ?_⟩
    rw [hhost, huri]
    exact ⟨hmiss, hpath, hfile⟩
  · rw [Option.eq_none_iff_forall_ne_some]
    intro asset h
    obtain ⟨t, ⟨before, source, after, root, -, -, -, -, -, -, hasset⟩, -⟩ := resolvedAt_of_resolved h
    rw [resolveAsset_of_rejected hrejected] at hasset
    cases hasset

end

/-- Every path is a regular file under its own name. -/
def exampleFiles : FileSystem := ⟨some, fun _ => some ⟨true, false, 1, none⟩⟩

def noFiles : FileSystem := ⟨fun _ => none, fun _ => none⟩

def exampleHosts : Table Bytes Bytes := AList.insert (ascii "files") (ascii "/srv") ∅

def textFileCall (now : ℕ) (fs : FileSystem) : ResolveCall := ⟨ascii "files", ascii "/a%20b.txt", now, fun _ => fs⟩

/-- The file is removed after it was resolved. A call finds it in the cache until the entry expires. -/
theorem text_file_below_root :
    let earlier := [textFileCall 0 exampleFiles]
    let call := textFileCall (fromSecs 1 - 1) noFiles
    (resolved .reference percentDecode exampleHosts earlier call).map ResolvedAsset.path =
        some (ascii "/srv/a b.txt") ∧
      UnixPath.StartsWith (ascii "/srv/a b.txt") (ascii "/srv") ∧
      (resolved .reference percentDecode exampleHosts (earlier ++ [call]) (textFileCall (fromSecs 1) noFiles)).isNone
        = true := by
  intro earlier call
  have hpath : (resolved .reference percentDecode exampleHosts earlier call).map ResolvedAsset.path =
      some (ascii "/srv/a b.txt") := by decide +kernel
  obtain ⟨asset, hasset, hname⟩ := Option.map_eq_some_iff.mp hpath
  obtain ⟨root, hroot, hbelow, -⟩ :=
    (resolved_below_root .reference percentDecode exampleHosts earlier call).1 asset hasset
  have hsame : exampleHosts.lookup call.host = some (ascii "/srv") := by decide +kernel
  obtain rfl := Option.some.inj (hsame.symm.trans hroot)
  exact ⟨hpath, hname ▸ hbelow, by decide +kernel⟩

end Pingola.StaticFiles
