import Pingola.StaticFiles.Serve

/-!
# What static responses carry

A response is traced back to the events that it depends on: the resolution that gave its metadata, and the
read that gave its bytes. The file system may answer differently at each of these moments.
-/

namespace Pingola.StaticFiles
open ByteText

namespace ServeEvent

def index : ServeEvent → ℕ
  | .serve i _ _ | .resolve i _ | .acquireColdRead i | .read i _ | .openFile i _ | .readChunk i _ | .leave i => i

/-- The bytes of a file that the event hands to a call. -/
def chunkFor (i : ℕ) : ServeEvent → Bytes
  | .readChunk j (some chunk) => if j = i then chunk else []
  | _ => []

lemma chunkFor_of_ne {i : ℕ} {ev : ServeEvent} (h : i ≠ ev.index) : ev.chunkFor i = [] := by
  cases ev with
  | readChunk j chunk =>
    cases chunk with
    | none => rfl
    | some chunk => exact if_neg (Ne.symm h)
  | _ => rfl

end ServeEvent

/-- The chunks that a call has read. -/
def chunksOf (past : List ServeEvent) (i : ℕ) : Bytes := past.flatMap (ServeEvent.chunkFor i)

lemma chunksOf_append (past : List ServeEvent) (ev : ServeEvent) (i : ℕ) :
    chunksOf (past ++ [ev]) i = chunksOf past i ++ ev.chunkFor i := by
  simp [chunksOf]

/-! ### Where things come from -/

section

variable (env : StaticEnv) (roots : Table Bytes Bytes)

/-- A call for the host and the address, made at the given time, has resolved the asset on the file system. -/
def ResolvedIn (past : List ServeEvent) (host uri : Bytes) (asset : ResolvedAsset) (t : ℕ) : Prop :=
  ∃ before i session fs root after, past = before ++ .resolve i fs :: after ∧ .serve i session t ∈ before ∧
    session.hostName = host ∧ session.path = uri ∧ roots.lookup host = some root ∧
    resolveAsset env.percentDecode fs root uri = some asset

/-- The call goes on with an asset that another call had resolved before for its host and address, made less than a
lifetime before it, or with one that it resolves itself. -/
def Selected (past : List ServeEvent) (i : ℕ) (session : StaticRequest) (asset : ResolvedAsset) : Prop :=
  ∃ before now after, past = before ++ .serve i session now :: after ∧
    ((∃ t, now < t + pathCacheTtl ∧ ResolvedIn env roots before session.hostName session.path asset t) ∨
      ∃ fs root, .resolve i fs ∈ after ∧ roots.lookup session.hostName = some root ∧
        resolveAsset env.percentDecode fs root session.path = some asset)

/-- The bytes under a key were read for it, after a resolution had seen the length and the time of the key. The
host of that read need not be the one that is served. -/
def ReadIn (past : List ServeEvent) (key : CacheKey) (cached : CachedAsset) : Prop :=
  ∃ before i disk after host uri t asset root, past = before ++ .read i disk :: after ∧
    ResolvedIn env roots before host uri asset t ∧ roots.lookup host = some root ∧ keyOf asset key.encoding = key ∧
    readRepresentation env disk root asset.path key.encoding = some (cached.body, key.encoding) ∧
    cachedAsset env asset cached.body = some cached

/-- The status of a response without a file, and its own fields. -/
def emptyAnswers : List (ℕ × List (Bytes × Bytes)) :=
  [(404, []), (405, [(ascii "allow", ascii "GET, HEAD")]), (406, []), (500, []), (503, retryAfter)]

/-- Where a response comes from. -/
inductive Explained (past : List ServeEvent) (i : ℕ) (session : StaticRequest) : StaticResponse → Prop
  | empty {status headers} : (status, headers) ∈ emptyAnswers →
      Explained past i session ⟨emptyHeader status headers session.tls, [], true⟩
  | notModified {asset lastModified} : Selected env roots past i session asset →
      session.revalidates (etagText asset.length asset.modifiedNanos) = true →
      Explained past i session ⟨notModifiedHeader asset (etagText asset.length asset.modifiedNanos) lastModified
        session.tls, [], true⟩
  | buffered {asset encoding cached} : Selected env roots past i session asset →
      session.revalidates (etagText asset.length asset.modifiedNanos) = false →
      asset.length ≤ maxBufferedAssetBytes → requestedEncoding env asset session.negotiation = some encoding →
      ReadIn env roots past (keyOf asset encoding) cached →
      Explained past i session ⟨okHeader asset encoding cached session.tls,
        if session.isHead then [] else cached.body, true⟩
  | streamed {asset header ended} : Selected env roots past i session asset →
      session.revalidates (etagText asset.length asset.modifiedNanos) = false →
      maxBufferedAssetBytes < asset.length → streamedHeader env asset session.tls = some header →
      (session.isHead = true → chunksOf past i = []) → (chunksOf past i).length ≤ asset.length →
      (ended = true → session.isHead = false → (chunksOf past i).length < asset.length →
        .readChunk i (some []) ∈ past) →
      Explained past i session ⟨header, chunksOf past i, ended⟩

/-- What is known about a call where it waits. -/
def PhaseInv (past : List ServeEvent) (i : ℕ) (call : ServeCall) : Prop :=
  match call.phase with
  | .resolving root now =>
    call.response = none ∧ roots.lookup call.session.hostName = some root ∧ .serve i call.session now ∈ past
  | .queued root asset encoding | .reading root asset encoding =>
    call.response = none ∧ roots.lookup call.session.hostName = some root ∧
      Selected env roots past i call.session asset ∧ asset.length ≤ maxBufferedAssetBytes ∧
      requestedEncoding env asset call.session.negotiation = some encoding
  | .opening asset =>
    call.response = none ∧ Selected env roots past i call.session asset ∧ maxBufferedAssetBytes < asset.length ∧
      call.session.revalidates (etagText asset.length asset.modifiedNanos) = false ∧ call.session.isHead = false
  | .streaming asset remaining =>
    (chunksOf past i).length + remaining = asset.length ∧
      ∃ header, call.response = some ⟨header, chunksOf past i, false⟩ ∧ Selected env roots past i call.session asset ∧
        maxBufferedAssetBytes < asset.length ∧ streamedHeader env asset call.session.tls = some header ∧
        call.session.revalidates (etagText asset.length asset.modifiedNanos) = false ∧ call.session.isHead = false
  | .leaving | .returned => True

structure CallInv (past : List ServeEvent) (i : ℕ) (call : ServeCall) : Prop where
  phase : PhaseInv env roots past i call
  response : ∀ response, call.response = some response → Explained env roots past i call.session response
  chunks : call.response = none → chunksOf past i = []

/-- What holds after a past, of the calls that are spoken of. -/
structure Inv (past : List ServeEvent) (among : ℕ → Prop) {L : LruCrate} {n : ℕ} (s : ServeState L n) : Prop where
  paths : ∀ host uri cached, s.paths.entry host uri = some cached →
    ∃ t, ResolvedIn env roots past host uri cached.asset t ∧ cached.expiresAt = t + pathCacheTtl
  cache : ∃ calls, s.cache.Reached env.hash calls ∧
    ∀ key asset, .insert key asset ∈ calls → ReadIn env roots past key asset
  calls : ∀ i call, among i → s.calls.lookup i = some call → CallInv env roots past i call
  fresh : ∀ i, among i → s.calls.lookup i = none → chunksOf past i = []

end

/-! ### The past grows -/

section

variable {env : StaticEnv} {roots : Table Bytes Bytes} {past : List ServeEvent} {ev : ServeEvent} {i : ℕ}
  {session : StaticRequest} {asset : ResolvedAsset} {call : ServeCall}

lemma ResolvedIn.append {host uri : Bytes} {t : ℕ} (h : ResolvedIn env roots past host uri asset t)
    (rest : List ServeEvent) : ResolvedIn env roots (past ++ rest) host uri asset t := by
  obtain ⟨before, j, session, fs, root, after, rfl, hrest⟩ := h
  exact ⟨before, j, session, fs, root, after ++ rest, by simp, hrest⟩

lemma Selected.append (h : Selected env roots past i session asset) (ev : ServeEvent) :
    Selected env roots (past ++ [ev]) i session asset := by
  obtain ⟨before, now, after, rfl, hsource⟩ := h
  refine ⟨before, now, after ++ [ev], by simp, hsource.imp_right ?_⟩
  rintro ⟨fs, root, hresolve, hrest⟩
  exact ⟨fs, root, List.mem_append_left _ hresolve, hrest⟩

lemma Selected.resolvedIn (h : Selected env roots past i session asset) :
    ∃ t, ResolvedIn env roots past session.hostName session.path asset t := by
  obtain ⟨before, now, after, rfl, ⟨t, -, hresolved⟩ | ⟨fs, root, hresolve, hroot, hasset⟩⟩ := h
  · exact ⟨t, hresolved.append _⟩
  · obtain ⟨between, rest, rfl⟩ := List.append_of_mem hresolve
    exact ⟨now, before ++ .serve i session now :: between, i, session, fs, root, rest, by simp, by simp, rfl, rfl,
      hroot, hasset⟩

lemma ReadIn.append {key : CacheKey} {cached : CachedAsset} (h : ReadIn env roots past key cached) (ev : ServeEvent) :
    ReadIn env roots (past ++ [ev]) key cached := by
  obtain ⟨before, j, disk, after, host, uri, t, asset, root, rfl, hrest⟩ := h
  exact ⟨before, j, disk, after ++ [ev], host, uri, t, asset, root, by simp, hrest⟩

lemma Explained.append {response : StaticResponse} (h : Explained env roots past i session response)
    (hev : ev.chunkFor i = []) : Explained env roots (past ++ [ev]) i session response := by
  have hchunks : chunksOf past i = chunksOf (past ++ [ev]) i := by
    rw [chunksOf_append, hev, List.append_nil]
  cases h with
  | empty hstatus => exact .empty hstatus
  | notModified hselected hetag => exact .notModified (hselected.append ev) hetag
  | buffered hselected hetag hsmall hencoding hread =>
    exact .buffered (hselected.append ev) hetag hsmall hencoding (hread.append ev)
  | streamed hselected hetag hlarge hheader hhead hlength hended =>
    rw [hchunks] at hhead hlength hended ⊢
    refine .streamed (hselected.append ev) hetag hlarge hheader hhead hlength fun hend hget hshort => ?_
    exact List.mem_append_left _ (hended hend hget hshort)

lemma PhaseInv.append (h : PhaseInv env roots past i call) (hev : ev.chunkFor i = []) :
    PhaseInv env roots (past ++ [ev]) i call := by
  have hchunks : chunksOf (past ++ [ev]) i = chunksOf past i := by
    rw [chunksOf_append, hev, List.append_nil]
  unfold PhaseInv at h ⊢
  revert h
  cases call.phase with
  | resolving root now => exact fun ⟨hnone, hroot, hserve⟩ => ⟨hnone, hroot, List.mem_append_left _ hserve⟩
  | queued root asset encoding =>
    exact fun ⟨hnone, hroot, hselected, hrest⟩ => ⟨hnone, hroot, hselected.append ev, hrest⟩
  | reading root asset encoding =>
    exact fun ⟨hnone, hroot, hselected, hrest⟩ => ⟨hnone, hroot, hselected.append ev, hrest⟩
  | opening asset => exact fun ⟨hnone, hselected, hrest⟩ => ⟨hnone, hselected.append ev, hrest⟩
  | streaming asset remaining =>
    dsimp only
    rw [hchunks]
    exact fun ⟨hlength, header, hresponse, hselected, hrest⟩ =>
      ⟨hlength, header, hresponse, hselected.append ev, hrest⟩
  | leaving => exact fun _ => trivial
  | returned => exact fun _ => trivial

lemma CallInv.append (h : CallInv env roots past i call) (hev : ev.chunkFor i = []) :
    CallInv env roots (past ++ [ev]) i call := by
  refine ⟨h.phase.append hev, fun response hresponse => (h.response response hresponse).append hev, fun hnone => ?_⟩
  rw [chunksOf_append, hev, h.chunks hnone, List.append_nil]

variable {L : LruCrate} {n : ℕ} {s : ServeState L n}

/-- An event is about one call. -/
lemma Inv.append (h : Inv env roots past (fun _ => True) s) (ev : ServeEvent) :
    Inv env roots (past ++ [ev]) (· ≠ ev.index) s := by
  refine ⟨fun host uri cached hcached => ?_, ?_, fun j call hj hcall => ?_, fun j hj hnone => ?_⟩
  · obtain ⟨t, hresolved, hexpires⟩ := h.paths host uri cached hcached
    exact ⟨t, hresolved.append [ev], hexpires⟩
  · obtain ⟨calls, hreached, hread⟩ := h.cache
    exact ⟨calls, hreached, fun key asset hinsert => (hread key asset hinsert).append ev⟩
  · exact (h.calls j call trivial hcall).append (ServeEvent.chunkFor_of_ne hj)
  · rw [chunksOf_append, ServeEvent.chunkFor_of_ne hj, h.fresh j trivial hnone, List.append_nil]

lemma Inv.put (h : Inv env roots past (· ≠ i) s) (hcall : CallInv env roots past i call) :
    Inv env roots past (fun _ => True) (s.put i call) := by
  refine ⟨h.paths, h.cache, fun j call' _ hcall' => ?_, fun j _ hnone => ?_⟩
  · rcases Table.lookup_insert_cases hcall' with ⟨rfl, rfl⟩ | ⟨hj, hold⟩
    · exact hcall
    · exact h.calls j call' hj hold
  · have hnone' : (s.calls.insert i call).lookup j = none := hnone
    rw [Table.lookup_insert_if] at hnone'
    split_ifs at hnone' with hj
    exact h.fresh j hj hnone'

end

/-! ### What a call writes -/

section

variable {env : StaticEnv} {roots : Table Bytes Bytes} {past : List ServeEvent} {i : ℕ} {asset : ResolvedAsset}
  {call : ServeCall} {encoding : Encoding} {cached : CachedAsset}

lemma CallInv.write {header : ResponseHeader} {body : Bytes}
    (h : Explained env roots past i call.session ⟨header, body, true⟩) :
    CallInv env roots past i (call.write header body) := by
  refine ⟨trivial, fun response hresponse => ?_, fun hnone => nomatch hnone⟩
  obtain rfl := Option.some.inj hresponse
  exact h

lemma CallInv.sendEmpty {status : ℕ} {headers : List (Bytes × Bytes)} (h : (status, headers) ∈ emptyAnswers) :
    CallInv env roots past i (call.sendEmpty status headers) :=
  CallInv.write (.empty h)

/-- A call that has written nothing yet stays silent. -/
lemma CallInv.silent (hphase : PhaseInv env roots past i call) (hnone : call.response = none)
    (hchunks : chunksOf past i = []) : CallInv env roots past i call := by
  refine ⟨hphase, fun response hresponse => ?_, fun _ => hchunks⟩
  rw [hnone] at hresponse
  cases hresponse

lemma headerValueFromStr_eq {text value : Bytes} (h : env.http.headerValueFromStr text = some value) :
    value = text := by
  rw [HttpCrate.headerValueFromStr] at h
  split_ifs at h
  exact (Option.some.inj h).symm

/-- The fields of a cached asset are the texts themselves. -/
lemma cachedAsset_eq_some {body : Bytes} (h : cachedAsset env asset body = some cached) :
    cached = ⟨body, contentType env asset.path, natText body.length, etagText asset.length asset.modifiedNanos,
      env.fmtHttpDate asset.modified⟩ := by
  obtain ⟨contentType, hcontentType, h⟩ := Option.bind_eq_some_iff.mp h
  obtain ⟨contentLength, hcontentLength, h⟩ := Option.bind_eq_some_iff.mp h
  obtain ⟨etag, hetag, h⟩ := Option.bind_eq_some_iff.mp h
  obtain ⟨lastModified, hlastModified, h⟩ := Option.bind_eq_some_iff.mp h
  obtain rfl := headerValueFromStr_eq hcontentType
  obtain rfl := headerValueFromStr_eq hcontentLength
  obtain rfl := headerValueFromStr_eq hetag
  obtain rfl := headerValueFromStr_eq hlastModified
  exact (Option.some.inj h).symm

lemma streamedTag_eq_some {etag lastModified : Bytes} (h : streamedTag env asset = some (etag, lastModified)) :
    etag = etagText asset.length asset.modifiedNanos := by
  obtain ⟨etag', hetag, h⟩ := Option.bind_eq_some_iff.mp h
  obtain ⟨lastModified', -, h⟩ := Option.bind_eq_some_iff.mp h
  obtain ⟨rfl, rfl⟩ := Prod.mk.inj (Option.some.inj h)
  exact headerValueFromStr_eq hetag

lemma ReadIn.etag (h : ReadIn env roots past (keyOf asset encoding) cached) :
    cached.etag = etagText asset.length asset.modifiedNanos := by
  obtain ⟨before, j, disk, after, host, uri, t, asset', root, -, -, -, hkey, -, hcached⟩ := h
  obtain ⟨-, hnanos, hlength, -⟩ := CacheKey.mk.inj hkey
  rw [cachedAsset_eq_some hcached]
  dsimp only
  rw [hnanos, hlength]

lemma CallInv.answer (hselected : Selected env roots past i call.session asset)
    (hsmall : asset.length ≤ maxBufferedAssetBytes)
    (hencoding : requestedEncoding env asset call.session.negotiation = some encoding)
    (hread : ReadIn env roots past (keyOf asset encoding) cached) :
    CallInv env roots past i (call.answer asset encoding cached) := by
  rw [ServeCall.answer, hread.etag]
  split
  case isTrue hmatch => exact CallInv.write (.notModified hselected hmatch)
  case isFalse hmatch =>
    exact CallInv.write (.buffered hselected (Bool.eq_false_of_not_eq_true hmatch) hsmall hencoding hread)

lemma CallInv.stream (hnone : call.response = none) (hchunks : chunksOf past i = [])
    (hselected : Selected env roots past i call.session asset) (hlarge : maxBufferedAssetBytes < asset.length) :
    CallInv env roots past i (call.stream env asset) := by
  rw [ServeCall.stream]
  split_ifs with hmatch hhead
  · split
    · rename_i etag lastModified htag
      rw [streamedTag_eq_some htag]
      exact CallInv.write (.notModified hselected hmatch)
    · exact CallInv.silent trivial hnone hchunks
  · split
    · rename_i header hheader
      have hexplained : Explained env roots past i call.session ⟨header, chunksOf past i, true⟩ := by
        refine .streamed hselected (Bool.eq_false_of_not_eq_true hmatch) hlarge hheader (fun _ => hchunks) ?_ ?_
        · rw [hchunks]
          exact Nat.zero_le _
        · intro _ hget
          rw [hhead] at hget
          cases hget
      rw [hchunks] at hexplained
      exact CallInv.write hexplained
    · exact CallInv.silent trivial hnone hchunks
  · refine CallInv.silent ?_ hnone hchunks
    exact ⟨hnone, hselected, hlarge, Bool.eq_false_of_not_eq_true hmatch, Bool.eq_false_of_not_eq_true hhead⟩

lemma CallInv.opened (h : CallInv env roots past i call) (hphase : call.phase = .opening asset) (ok : Bool) :
    CallInv env roots past i (call.opened env asset ok) := by
  have hinv := h.phase
  rw [PhaseInv, hphase] at hinv
  obtain ⟨hnone, hselected, hlarge, hmatch, hget⟩ := hinv
  have hchunks := h.chunks hnone
  have hfailed : CallInv env roots past i call.fail := CallInv.silent trivial hnone hchunks
  unfold ServeCall.opened
  cases ok with
  | false => exact hfailed
  | true =>
    cases hheader : streamedHeader env asset call.session.tls with
    | none => exact hfailed
    | some header =>
      have hexplained : Explained env roots past i call.session ⟨header, chunksOf past i, false⟩ := by
        refine .streamed hselected hmatch hlarge hheader (fun _ => hchunks) ?_ (fun hended => nomatch hended)
        rw [hchunks]
        exact Nat.zero_le _
      rw [hchunks] at hexplained
      dsimp only
      rw [if_neg (Nat.ne_of_gt (Nat.zero_lt_of_lt hlarge))]
      refine ⟨?_, fun response hresponse => ?_, fun hnone => nomatch hnone⟩
      · simp only [PhaseInv, hchunks, List.length_nil, Nat.zero_add]
        exact ⟨trivial, header, rfl, hselected, hlarge, hheader, hmatch, hget⟩
      · obtain rfl := Option.some.inj hresponse
        exact hexplained

/-- The chunk has been read: the body holds all chunks again. -/
lemma CallInv.sendChunk {remaining : ℕ} {chunk : Bytes} (h : CallInv env roots past i call)
    (hphase : call.phase = .streaming asset remaining) (hchunk : chunk.length ≤ remaining) :
    CallInv env roots (past ++ [.readChunk i (some chunk)]) i (call.sendChunk asset remaining chunk) := by
  have hinv := h.phase
  rw [PhaseInv, hphase] at hinv
  obtain ⟨hlength, header, hresponse, hselected, hlarge, hheader, hmatch, hget⟩ := hinv
  replace hselected := hselected.append (.readChunk i (some chunk))
  have hchunks : chunksOf (past ++ [.readChunk i (some chunk)]) i = chunksOf past i ++ chunk := by
    rw [chunksOf_append, ServeEvent.chunkFor, if_pos rfl]
  have hlength' : (chunksOf (past ++ [.readChunk i (some chunk)]) i).length + (remaining - chunk.length) =
      asset.length := by
    rw [hchunks, List.length_append]
    omega
  have hexplained : ∀ ended, (ended = true → chunk = [] ∨ remaining - chunk.length = 0) →
      Explained env roots (past ++ [.readChunk i (some chunk)]) i call.session
        ⟨header, chunksOf (past ++ [.readChunk i (some chunk)]) i, ended⟩ := by
    intro ended hended
    refine .streamed hselected hmatch hlarge hheader (fun hhead => ?_) (by omega) (fun htrue _ hshort => ?_)
    · rw [hget] at hhead
      cases hhead
    · -- an ended body that is short has seen the end of the file
      rcases hended htrue with rfl | hdone
      · exact List.mem_append_right _ (List.mem_singleton_self _)
      · omega
  rw [ServeCall.sendChunk, hresponse, Option.map_some]
  dsimp only
  rw [← hchunks]
  refine ⟨?_, fun response hsome => ?_, fun hnone => nomatch hnone⟩
  · by_cases hend : chunk = [] ∨ remaining - chunk.length = 0
    · simp only [PhaseInv, if_pos hend]
    · simp only [PhaseInv, if_neg hend]
      refine ⟨hlength', header, ?_, hselected, hlarge, hheader, hmatch, hget⟩
      rw [decide_eq_false hend]
  · obtain rfl := Option.some.inj hsome
    exact hexplained _ of_decide_eq_true

end

/-! ### Steps -/

section

variable {env : StaticEnv} {roots : Table Bytes Bytes} {past : List ServeEvent} {i : ℕ} {asset : ResolvedAsset}
  {call : ServeCall} {L : LruCrate} {n : ℕ} {s : ServeState L n}

lemma mem_of_lastAccepted {maxBytes : ℕ} {key : CacheKey} {cached : CachedAsset} {calls : List AssetCall}
    (h : lastAccepted maxBytes key calls = some cached) : .insert key cached ∈ calls := by
  induction calls using List.reverseRecOn with
  | nil => cases h
  | append_singleton calls call ih =>
    cases call with
    | get k =>
      rw [lastAccepted_append_get] at h
      exact List.mem_append_left _ (ih h)
    | insert k asset =>
      rw [lastAccepted_append_insert] at h
      split_ifs at h with hk
      · obtain rfl := Option.some.inj h
        rw [hk.1]
        exact List.mem_append_right _ (List.mem_singleton_self _)
      · exact List.mem_append_left _ (ih h)

/-- What the cache of assets finds has been read. -/
lemma Inv.readIn_of_get {among : ℕ → Prop} {key : CacheKey} {cached : CachedAsset} {cache : AssetCache L}
    (h : Inv env roots past among s) (hget : s.cache.get env.hash key = (some cached, cache)) :
    ReadIn env roots past key cached := by
  obtain ⟨calls, hreached, hread⟩ := h.cache
  have hresident : s.cache.resident env.hash key = some cached := by
    rw [AssetCache.resident, ← LruCrate.get_eq_lookup]
    exact congrArg Prod.fst hget
  exact hread key cached (mem_of_lastAccepted (hreached.last key cached hresident))

lemma Inv.cache_get {among : ℕ → Prop} {key : CacheKey} {found : Option CachedAsset} {cache : AssetCache L}
    (h : Inv env roots past among s) (hget : s.cache.get env.hash key = (found, cache)) :
    Inv env roots past among { s with cache } := by
  obtain ⟨calls, hreached, hread⟩ := h.cache
  refine ⟨h.paths, ⟨calls ++ [.get key], ?_, fun key' asset hinsert => ?_⟩, h.calls, h.fresh⟩
  · have hreached' := hreached.get key
    rw [hget] at hreached'
    exact hreached'
  · refine hread key' asset ?_
    simpa using hinsert

lemma Inv.select (h : Inv env roots past (· ≠ i) s) (hnone : call.response = none) (hchunks : chunksOf past i = [])
    {root : Bytes} (hroot : roots.lookup call.session.hostName = some root)
    (hselected : Selected env roots past i call.session asset) :
    Inv env roots past (fun _ => True) (s.select env i call root asset) := by
  rw [ServeState.select]
  split_ifs with hlarge hidentity hslots
  · exact h.put (CallInv.sendEmpty (by decide))
  · exact h.put (CallInv.sendEmpty (by decide))
  · exact Inv.put ⟨h.paths, h.cache, h.calls, h.fresh⟩ (CallInv.stream hnone hchunks hselected hlarge)
  · split
    · exact h.put (CallInv.sendEmpty (by decide))
    · rename_i encoding hencoding
      split
      · rename_i cached cache hget
        exact (h.cache_get hget).put
          (CallInv.answer hselected (Nat.not_lt.mp hlarge) hencoding (h.readIn_of_get hget))
      · rename_i cache hget
        refine (h.cache_get hget).put (CallInv.silent ?_ hnone hchunks)
        exact ⟨hnone, hroot, hselected, Nat.not_lt.mp hlarge, hencoding⟩

/-- The answer of the resolution may be given to later calls. -/
lemma Inv.paths_insert {among : ℕ → Prop} {host uri : Bytes} {now : ℕ} (h : Inv env roots past among s)
    (hresolved : ResolvedIn env roots past host uri asset now) :
    Inv env roots past among { s with paths := s.paths.insert host uri asset now } := by
  refine ⟨fun host' uri' cached hcached => ?_, h.cache, h.calls, h.fresh⟩
  rcases PathCache.entry_insert_cases hcached with ⟨rfl, rfl, rfl⟩ | hold
  · exact ⟨now, hresolved, rfl⟩
  · exact h.paths host' uri' cached hold

lemma Inv.serve {session : StaticRequest} {now : ℕ} (h : Inv env roots past (fun _ => True) s)
    (hnew : s.calls.lookup i = none) :
    Inv env roots (past ++ [.serve i session now]) (fun _ => True) (s.serve env roots i session now) := by
  have hchunks : chunksOf (past ++ [.serve i session now]) i = [] := by
    rw [chunksOf_append, h.fresh i trivial hnew]
    rfl
  have hserve : ServeEvent.serve i session now ∈ past ++ [.serve i session now] :=
    List.mem_append_right _ (List.mem_singleton_self _)
  have hpast := h.paths
  replace h : Inv env roots _ (· ≠ i) s := h.append (.serve i session now)
  unfold ServeState.serve
  dsimp only
  split_ifs with hslots hmethod
  · exact h.put (CallInv.sendEmpty (by decide))
  · exact Inv.put ⟨h.paths, h.cache, h.calls, h.fresh⟩ (CallInv.sendEmpty (by decide))
  · split
    · exact Inv.put ⟨h.paths, h.cache, h.calls, h.fresh⟩ (CallInv.sendEmpty (by decide))
    · rename_i root hroot
      have hpaths : ∀ host uri cached, (s.paths.get session.hostName session.path now).2.entry host uri = some cached →
          s.paths.entry host uri = some cached := by
        intro host uri cached hcached
        rwa [PathCache.entry_get] at hcached
      split
      · rename_i asset paths hget
        obtain ⟨cached, hcached, hfresh, rfl⟩ := PathCache.get_eq_some (congrArg Prod.fst hget)
        obtain ⟨t, hresolved, hexpires⟩ := hpast _ _ _ hcached
        rw [hget] at hpaths
        apply Inv.select _ _ hchunks
        · exact hroot
        · exact ⟨past, now, [], rfl, .inl ⟨t, hexpires ▸ hfresh, hresolved⟩⟩
        · refine ⟨fun host uri cached hcached => ?_, h.cache, h.calls, h.fresh⟩
          exact h.paths host uri cached (hpaths host uri cached hcached)
        · rfl
      · rename_i paths hget
        rw [hget] at hpaths
        refine Inv.put ⟨fun host uri cached hcached => ?_, h.cache, h.calls, h.fresh⟩ ?_
        · exact h.paths host uri cached (hpaths host uri cached hcached)
        · exact CallInv.silent ⟨rfl, hroot, hserve⟩ rfl hchunks

/-- The coding of the bytes is the one that was asked for. -/
lemma readRepresentation_encoding {disk : ℕ → Disk} {root path body : Bytes} {encoding actual : Encoding}
    (h : readRepresentation env disk root path encoding = some (body, actual)) : actual = encoding := by
  have hcompressed : readAndCompress env disk path encoding = some (body, actual) → actual = encoding := by
    intro hread
    rw [readAndCompress] at hread
    split_ifs at hread with hidentity
    · obtain ⟨data, -, hdata⟩ := Option.map_eq_some_iff.mp hread
      rw [hidentity]
      exact (Prod.mk.inj hdata).2.symm
    · obtain ⟨data, -, hread⟩ := Option.bind_eq_some_iff.mp hread
      obtain ⟨compressed, -, hread⟩ := Option.bind_eq_some_iff.mp hread
      exact (Prod.mk.inj (Option.some.inj hread)).2.symm
  rw [readRepresentation] at h
  split at h
  · exact hcompressed h
  · obtain ⟨sidecar, -, h⟩ := Option.bind_eq_some_iff.mp h
    cases sidecar with
    | some data => exact (Prod.mk.inj (Option.some.inj h)).2.symm
    | none => exact hcompressed h

lemma Inv.resolve {fs : ℕ → FileSystem} {root : Bytes} {now : ℕ} (h : Inv env roots past (fun _ => True) s)
    (hcall : s.calls.lookup i = some call) (hphase : call.phase = .resolving root now) :
    Inv env roots (past ++ [.resolve i fs]) (fun _ => True) (s.resolve env i call root now fs) := by
  have hold := h.calls i call trivial hcall
  have hinv : CallInv env roots (past ++ [.resolve i fs]) i call := hold.append rfl
  have hwaits := hold.phase
  rw [PhaseInv, hphase] at hwaits
  obtain ⟨hnone, hroot, hserve⟩ := hwaits
  have hchunks := hinv.chunks hnone
  replace h : Inv env roots _ (· ≠ i) s := h.append (.resolve i fs)
  rw [ServeState.resolve]
  split
  · exact h.put (CallInv.sendEmpty (by decide))
  · rename_i asset hasset
    have hresolved : ResolvedIn env roots (past ++ [.resolve i fs]) call.session.hostName call.session.path asset now :=
      ⟨past, i, call.session, fs, root, [], rfl, hserve, rfl, rfl, hroot, hasset⟩
    obtain ⟨before, after, hpast⟩ := List.append_of_mem hserve
    refine (h.paths_insert hresolved).select hnone hchunks hroot ⟨before, now, after ++ [.resolve i fs], ?_, .inr ?_⟩
    · rw [hpast, List.append_assoc, List.cons_append]
    · exact ⟨fs, root, List.mem_append_right _ (List.mem_singleton_self _), hroot, hasset⟩

lemma Inv.acquireColdRead {root : Bytes} {encoding : Encoding} (h : Inv env roots past (fun _ => True) s)
    (hcall : s.calls.lookup i = some call) (hphase : call.phase = .queued root asset encoding) :
    Inv env roots (past ++ [.acquireColdRead i]) (fun _ => True)
      (s.acquireColdRead env i call root asset encoding) := by
  have hinv := ((h.calls i call trivial hcall).append rfl : CallInv env roots (past ++ [.acquireColdRead i]) i call)
  have hwaits := hinv.phase
  rw [PhaseInv, hphase] at hwaits
  obtain ⟨hnone, hroot, hselected, hsmall, hencoding⟩ := hwaits
  replace h : Inv env roots _ (· ≠ i) s := h.append (.acquireColdRead i)
  rw [ServeState.acquireColdRead]
  split
  · rename_i cached cache hget
    exact (h.cache_get hget).put (CallInv.answer hselected hsmall hencoding (h.readIn_of_get hget))
  · rename_i cache hget
    have hkept := h.cache_get hget
    refine Inv.put ⟨hkept.paths, hkept.cache, hkept.calls, hkept.fresh⟩ ?_
    exact CallInv.silent ⟨hnone, hroot, hselected, hsmall, hencoding⟩ hnone (hinv.chunks hnone)

lemma Inv.read {disk : ℕ → Disk} {root : Bytes} {encoding : Encoding} (h : Inv env roots past (fun _ => True) s)
    (hcall : s.calls.lookup i = some call) (hphase : call.phase = .reading root asset encoding) :
    Inv env roots (past ++ [.read i disk]) (fun _ => True) (s.read env i call root asset encoding disk) := by
  have hold := h.calls i call trivial hcall
  have hinv : CallInv env roots (past ++ [.read i disk]) i call := hold.append rfl
  have hwaits := hold.phase
  rw [PhaseInv, hphase] at hwaits
  obtain ⟨hnone, hroot, hselected, hsmall, hencoding⟩ := hwaits
  replace h : Inv env roots _ (· ≠ i) s := h.append (.read i disk)
  rw [ServeState.read]
  split
  · exact h.put (CallInv.sendEmpty (by decide))
  · rename_i body actual hread
    obtain rfl := readRepresentation_encoding hread
    split
    · exact h.put (CallInv.silent trivial hnone (hinv.chunks hnone))
    · rename_i cached hcached
      obtain rfl : cached.body = body := by rw [cachedAsset_eq_some hcached]
      have hreadIn : ReadIn env roots (past ++ [.read i disk]) (keyOf asset actual) cached := by
        obtain ⟨t, hresolved⟩ := hselected.resolvedIn
        exact ⟨past, i, disk, [], _, _, t, asset, root, rfl, hresolved, hroot, rfl, hread, hcached⟩
      refine Inv.put ⟨h.paths, ?_, h.calls, h.fresh⟩ ?_
      · obtain ⟨calls, hreached, hreads⟩ := h.cache
        refine ⟨calls ++ [.insert (keyOf asset actual) cached], hreached.insert _ _, fun key asset' hinsert => ?_⟩
        rcases List.mem_append.mp hinsert with hearlier | hlast
        · exact hreads key asset' hearlier
        · obtain ⟨rfl, rfl⟩ := AssetCall.insert.inj (List.mem_singleton.mp hlast)
          exact hreadIn
      · exact CallInv.answer (hselected.append _) hsmall hencoding hreadIn

lemma Inv.step {ev : ServeEvent} {t : ServeState L n} (h : Inv env roots past (fun _ => True) s)
    (hstep : s.Steps env roots ev t) : Inv env roots (past ++ [ev]) (fun _ => True) t := by
  cases hstep with
  | serve hnew => exact h.serve hnew
  | resolve hcall hphase => exact h.resolve hcall hphase
  | acquireColdRead hcall hphase _ => exact h.acquireColdRead hcall hphase
  | read hcall hphase => exact h.read hcall hphase
  | openFile hcall hphase =>
    exact Inv.put (h.append _) (CallInv.opened ((h.calls _ _ trivial hcall).append rfl) hphase _)
  | readChunk hcall hphase hchunk =>
    exact Inv.put (h.append _) ((h.calls _ _ trivial hcall).sendChunk hphase (hchunk.trans (Nat.min_le_left _ _)))
  | @readError i call asset remaining hcall hphase =>
    have hinv : CallInv env roots (past ++ [.readChunk i none]) i call := (h.calls i call trivial hcall).append rfl
    exact Inv.put (h.append _) ⟨trivial, hinv.response, hinv.chunks⟩
  | @leave i call hcall =>
    have hinv : CallInv env roots (past ++ [.leave i]) i call := (h.calls i call trivial hcall).append rfl
    have hkept := h.append (.leave i)
    exact Inv.put ⟨hkept.paths, hkept.cache, hkept.calls, hkept.fresh⟩ ⟨trivial, hinv.response, hinv.chunks⟩

lemma inv_of_run {cacheBytes : ℕ} {s : ServeState L (perHostCapacity roots.entries.length)}
    (h : ServeState.Run env roots cacheBytes past s) : Inv env roots past (fun _ => True) s := by
  refine Runs.Run.invariant (fun past s => Inv env roots past (fun _ => True) s) ?_ h ?_
  · intro past s ev t hstep hinv
    exact hinv.step (ServeState.steps_of_step env roots hstep)
  · refine ⟨fun host uri cached hcached => ?_, ⟨[], AssetCache.reached_run _ _ [], ?_⟩, ?_, fun _ _ _ => rfl⟩
    · rw [ServeState.new, PathCache.entry_new] at hcached
      cases hcached
    · exact fun _ _ hinsert => absurd hinsert List.not_mem_nil
    · exact fun _ _ _ hcall => nomatch hcall

end

/-! ### Fields of the responses -/

section

variable (header : ResponseHeader) (tls : Bool)

/-- The fields that are inserted for the safety of the client and for its cache. -/
def addedNames : List Bytes :=
  ["cache-control", "x-content-type-options", "x-frame-options", "referrer-policy",
    "strict-transport-security"].map ascii

lemma getAll_insertSecurityHeaders {name : Bytes} (h : name ∉ addedNames) :
    MultiMap.getAll (insertSecurityHeaders header tls).headers name = MultiMap.getAll header.headers name := by
  simp only [addedNames, List.map_cons, List.map_nil, List.mem_cons, List.not_mem_nil, not_or, or_false] at h
  obtain ⟨-, hsniff, hframe, hreferrer, hsts⟩ := h
  unfold insertSecurityHeaders
  cases tls <;> simp [ResponseHeader.insertTypedHeader, MultiMap.getAll_insert, hsniff, hframe, hreferrer, hsts]

lemma getAll_insertCacheHeader {name : Bytes} (h : name ∉ addedNames) (path : Bytes) (spaFallback : Bool) :
    MultiMap.getAll (insertCacheHeader header path spaFallback).headers name =
      MultiMap.getAll header.headers name := by
  have hcache : name ≠ ascii "cache-control" := fun hname => h (hname ▸ List.mem_cons_self)
  unfold insertCacheHeader
  split_ifs <;> exact MultiMap.getAll_insert_of_ne hcache _ _

lemma status_insertSecurityHeaders : (insertSecurityHeaders header tls).status = header.status := by
  cases tls <;> rfl

lemma status_insertCacheHeader (path : Bytes) (spaFallback : Bool) :
    (insertCacheHeader header path spaFallback).status = header.status := by
  unfold insertCacheHeader
  split_ifs <;> rfl

variable (asset : ResolvedAsset) (encoding : Encoding) (cached : CachedAsset)

lemma status_okHeader : (okHeader asset encoding cached tls).status = 200 := by
  rw [okHeader, status_insertSecurityHeaders, status_insertCacheHeader]
  cases encoding <;> rfl

/-- The fields of a file that is sent. -/
lemma getAll_okHeader :
    MultiMap.getAll (okHeader asset encoding cached tls).headers contentLengthName = [cached.contentLength] ∧
      MultiMap.getAll (okHeader asset encoding cached tls).headers (ascii "etag") = [cached.etag] ∧
      MultiMap.getAll (okHeader asset encoding cached tls).headers (ascii "content-encoding") =
        encoding.header.toList := by
  have hlength : contentLengthName ∉ addedNames := by decide
  have hetag : ascii "etag" ∉ addedNames := by decide
  have hcoding : ascii "content-encoding" ∉ addedNames := by decide
  unfold okHeader
  simp only [getAll_insertSecurityHeaders, getAll_insertCacheHeader, hlength, hetag, hcoding, not_false_eq_true]
  cases encoding <;>
    simp +decide only [Encoding.header, insertFileHeaders, ResponseHeader.insertTypedHeader, MultiMap.getAll_insert,
      if_true, if_false, Option.toList, and_self]

variable (etag lastModified : Bytes)

lemma status_notModifiedHeader : (notModifiedHeader asset etag lastModified tls).status = 304 := by
  rw [notModifiedHeader, status_insertSecurityHeaders, status_insertCacheHeader]
  rfl

lemma getAll_notModifiedHeader :
    MultiMap.getAll (notModifiedHeader asset etag lastModified tls).headers contentLengthName = [] ∧
      MultiMap.getAll (notModifiedHeader asset etag lastModified tls).headers (ascii "etag") = [etag] := by
  have hlength : contentLengthName ∉ addedNames := by decide
  have hetag : ascii "etag" ∉ addedNames := by decide
  unfold notModifiedHeader
  simp only [getAll_insertSecurityHeaders, getAll_insertCacheHeader, hlength, hetag, not_false_eq_true]
  simp +decide only [insertFileHeaders, ResponseHeader.insertTypedHeader, MultiMap.getAll_insert,
    if_true, if_false]

lemma emptyHeader_spec : ∀ answer ∈ emptyAnswers, ∀ tls : Bool,
    (emptyHeader answer.1 answer.2 tls).status ∉ [200, 304] ∧
      MultiMap.getAll (emptyHeader answer.1 answer.2 tls).headers contentLengthName = [natText 0] := by
  decide +kernel

end

section

variable {env : StaticEnv} {roots : Table Bytes Bytes} {past : List ServeEvent} {i : ℕ} {session : StaticRequest}
  {response : StaticResponse} {asset : ResolvedAsset}

/-- The fields of a file that is streamed. -/
lemma streamedHeader_spec {tls : Bool} {header : ResponseHeader} (h : streamedHeader env asset tls = some header) :
    header.status = 200 ∧ MultiMap.getAll header.headers contentLengthName = [natText asset.length] ∧
      MultiMap.getAll header.headers (ascii "etag") = [etagText asset.length asset.modifiedNanos] ∧
      MultiMap.getAll header.headers (ascii "content-encoding") = [] := by
  obtain ⟨contentType, -, h⟩ := Option.bind_eq_some_iff.mp h
  obtain ⟨contentLength, hcontentLength, h⟩ := Option.bind_eq_some_iff.mp h
  obtain ⟨⟨etag, lastModified⟩, htag, h⟩ := Option.bind_eq_some_iff.mp h
  obtain rfl := Option.some.inj h
  obtain ⟨hlength, hetag, hcoding⟩ :=
    getAll_okHeader tls asset .identity ⟨[], contentType, contentLength, etag, lastModified⟩
  rw [status_okHeader, hlength, hetag, hcoding, headerValueFromStr_eq hcontentLength, streamedTag_eq_some htag]
  exact ⟨rfl, rfl, rfl, rfl⟩

lemma ReadIn.contentLength {cached : CachedAsset} {key : CacheKey}
    (h : ReadIn env roots past key cached) : cached.contentLength = natText cached.body.length := by
  obtain ⟨before, j, disk, after, host, uri, t, asset', root, -, -, -, -, -, hcached⟩ := h
  rw [cachedAsset_eq_some hcached]

/-- A file is sent, or the client has it already. -/
lemma Explained.selected (h : Explained env roots past i session response)
    (hstatus : response.header.status ∈ [200, 304]) :
    ∃ asset, Selected env roots past i session asset ∧
      MultiMap.getAll response.header.headers (ascii "etag") = [etagText asset.length asset.modifiedNanos] ∧
      (response.header.status = 304 ↔
        session.revalidates (etagText asset.length asset.modifiedNanos) = true) := by
  cases h with
  | empty hanswer => exact absurd hstatus (emptyHeader_spec _ hanswer _).1
  | @notModified asset lastModified hselected hmatch =>
    exact ⟨asset, hselected, (getAll_notModifiedHeader _ _ _ _).2, by simp [status_notModifiedHeader, hmatch]⟩
  | @buffered asset encoding cached hselected hmatch _ _ hread =>
    refine ⟨asset, hselected, ?_, by simp [status_okHeader, hmatch]⟩
    rw [(getAll_okHeader _ _ _ _).2.1, hread.etag]
  | @streamed asset header ended hselected hmatch _ hheader =>
    obtain ⟨hok, -, hetag, -⟩ := streamedHeader_spec hheader
    exact ⟨asset, hselected, hetag, by simp [hok, hmatch]⟩

end

/-! ### Runs -/

section

variable (env : StaticEnv) (roots : Table Bytes Bytes) {L : LruCrate} {cacheBytes : ℕ} {past : List ServeEvent}
  {s : ServeState L (perHostCapacity roots.entries.length)} {i : ℕ} {call : ServeCall} {response : StaticResponse}

lemma explained_of_run (hrun : ServeState.Run env roots cacheBytes past s) (hcall : s.calls.lookup i = some call)
    (hresponse : call.response = some response) : Explained env roots past i call.session response :=
  ((inv_of_run hrun).calls i call trivial hcall).response response hresponse

/-- A file is sent as it was read, in the coding that its header names. A small file was read after a resolution
had seen the length and the time that the answer is about; a large one is what the chunks of the call hold. -/
theorem static_file_provenance (hrun : ServeState.Run env roots cacheBytes past s)
    (hcall : s.calls.lookup i = some call) (hresponse : call.response = some response)
    (hok : response.header.status = 200) :
    ∃ asset, Selected env roots past i call.session asset ∧
      (asset.length ≤ maxBufferedAssetBytes → ∃ encoding cached,
        requestedEncoding env asset call.session.negotiation = some encoding ∧
        ReadIn env roots past (keyOf asset encoding) cached ∧
        MultiMap.getAll response.header.headers (ascii "content-encoding") = encoding.header.toList ∧
        response.body = if call.session.isHead then [] else cached.body) ∧
      (maxBufferedAssetBytes < asset.length →
        MultiMap.getAll response.header.headers (ascii "content-encoding") = [] ∧
        response.body = chunksOf past i) := by
  cases explained_of_run env roots hrun hcall hresponse with
  | empty hanswer =>
    have hother := (emptyHeader_spec _ hanswer call.session.tls).1
    dsimp only at hok
    rw [hok] at hother
    exact absurd List.mem_cons_self hother
  | notModified =>
    rw [status_notModifiedHeader] at hok
    cases hok
  | @buffered asset encoding cached hselected hmatch hsmall hencoding hread =>
    refine ⟨asset, hselected, fun _ => ⟨encoding, cached, hencoding, hread, (getAll_okHeader _ _ _ _).2.2, rfl⟩, ?_⟩
    exact fun hlarge => absurd hsmall (Nat.not_le.mpr hlarge)
  | @streamed asset header ended hselected hmatch hlarge hheader =>
    refine ⟨asset, hselected, fun hsmall => absurd hsmall (Nat.not_le.mpr hlarge), fun _ => ⟨?_, rfl⟩⟩
    exact (streamedHeader_spec hheader).2.2.2

/-- The status of a response, the tag of its file and the tags that its client has sent. -/
def ServeState.tagsSeen {L : LruCrate} {n : ℕ} (s : ServeState L n) (i : ℕ) :
    Option (ℕ × List Bytes × List Bytes) := do
  let call ← s.calls.lookup i
  let response ← call.response
  some (response.header.status, MultiMap.getAll response.header.headers (ascii "etag"),
    MultiMap.getAll call.session.request.headers (ascii "if-none-match"))

lemma exampleDownloadsEnd_tagsSeen :
    (exampleDownloadsEnd.map fun s => decide (s.tagsSeen 0 = some (200, [etagText 9000000 0], []) ∧
      s.tagsSeen 1 = some (304, [etagText 9000000 0], [etagText 9000000 0]))) = some true := by
  decide +kernel

lemma exampleDownloads_run :
    ∃ (s : ExampleServeState) (call call' : ServeCall) (response response' : StaticResponse),
      ServeState.Run exampleStaticEnv exampleRoots 0 exampleDownloads s ∧
      s.calls.lookup 0 = some call ∧ call.response = some response ∧ response.header.status = 200 ∧
      s.calls.lookup 1 = some call' ∧ call'.response = some response' ∧ response'.header.status = 304 ∧
      MultiMap.getAll call'.session.request.headers (ascii "if-none-match") =
        MultiMap.getAll response.header.headers (ascii "etag") := by
  obtain ⟨s, hs, hboth⟩ := Option.map_eq_some_iff.mp exampleDownloadsEnd_tagsSeen
  obtain ⟨hfirst, hsecond⟩ := of_decide_eq_true hboth
  obtain ⟨call, hcall, hfirst⟩ := Option.bind_eq_some_iff.mp hfirst
  obtain ⟨response, hresponse, hfirst⟩ := Option.bind_eq_some_iff.mp hfirst
  obtain ⟨call', hcall', hsecond⟩ := Option.bind_eq_some_iff.mp hsecond
  obtain ⟨response', hresponse', hsecond⟩ := Option.bind_eq_some_iff.mp hsecond
  simp only [Option.some.injEq, Prod.mk.injEq] at hfirst hsecond
  exact ⟨s, call, call', response, response', Runs.run_of_exec hs, hcall, hresponse, hfirst.1, hcall', hresponse',
    hsecond.1, hsecond.2.2.trans hfirst.2.1.symm⟩

theorem download_has_provenance :
    ∃ (s : ExampleServeState) (call : ServeCall) (response : StaticResponse) (asset : ResolvedAsset),
      ServeState.Run exampleStaticEnv exampleRoots 0 exampleDownloads s ∧
      s.calls.lookup 0 = some call ∧ call.response = some response ∧ response.header.status = 200 ∧
      Selected exampleStaticEnv exampleRoots exampleDownloads 0 call.session asset := by
  obtain ⟨s, call, _, response, _, hrun, hcall, hresponse, hok, -⟩ := exampleDownloads_run
  obtain ⟨asset, hselected, -⟩ := static_file_provenance exampleStaticEnv exampleRoots hrun hcall hresponse hok
  exact ⟨s, call, response, asset, hrun, hcall, hresponse, hok, hselected⟩

/-- Every response but one without content names its length once. What is sent is never longer, and shorter only
while it is being sent, for `HEAD`, or when the file has become shorter. -/
theorem static_response_framed (hrun : ServeState.Run env roots cacheBytes past s)
    (hcall : s.calls.lookup i = some call) (hresponse : call.response = some response) :
    (response.header.status = 304 → response.body = [] ∧
      MultiMap.getAll response.header.headers contentLengthName = []) ∧
    (call.session.isHead = true → response.body = []) ∧
    (response.header.status ≠ 304 → ∃ length,
      MultiMap.getAll response.header.headers contentLengthName = [natText length] ∧
      response.body.length ≤ length ∧
      (response.ended = true → response.body.length < length →
        call.session.isHead = true ∨ .readChunk i (some []) ∈ past)) := by
  cases explained_of_run env roots hrun hcall hresponse with
  | empty hanswer =>
    obtain ⟨hother, hlength⟩ := emptyHeader_spec _ hanswer call.session.tls
    refine ⟨fun h304 => ?_, fun _ => rfl, fun _ => ⟨0, hlength, Nat.le_refl 0, fun _ hshort => nomatch hshort⟩⟩
    dsimp only at h304
    rw [h304] at hother
    exact absurd (List.mem_cons_of_mem _ List.mem_cons_self) hother
  | notModified =>
    refine ⟨fun _ => ⟨rfl, (getAll_notModifiedHeader _ _ _ _).1⟩, fun _ => rfl, fun hother => ?_⟩
    exact absurd (status_notModifiedHeader _ _ _ _) hother
  | @buffered asset encoding cached hselected hmatch hsmall hencoding hread =>
    refine ⟨fun h304 => ?_, fun hhead => if_pos hhead, fun _ => ⟨cached.body.length, ?_, ?_, fun _ hshort => ?_⟩⟩
    · rw [status_okHeader] at h304
      cases h304
    · rw [(getAll_okHeader _ _ _ _).1, hread.contentLength]
    · dsimp only
      split_ifs
      · exact Nat.zero_le _
      · exact Nat.le_refl _
    · by_contra hnone
      have hget : ¬call.session.isHead = true := fun hhead => hnone (.inl hhead)
      rw [if_neg hget] at hshort
      exact Nat.lt_irrefl _ hshort
  | @streamed asset header ended hselected hmatch hlarge hheader hhead hlength hended =>
    obtain ⟨hok, hlengthField, -, -⟩ := streamedHeader_spec hheader
    refine ⟨fun h304 => ?_, hhead, fun _ => ⟨asset.length, hlengthField, hlength, fun htrue hshort => ?_⟩⟩
    · exact absurd (hok.symm.trans h304) (by decide)
    · cases hget : call.session.isHead with
      | true => exact .inl rfl
      | false => exact .inr (hended htrue hget hshort)

/-- The first download has ended short: its file has ended. -/
theorem download_framed :
    ∃ (s : ExampleServeState) (call : ServeCall) (response : StaticResponse) (length : ℕ),
      ServeState.Run exampleStaticEnv exampleRoots 0 exampleDownloads s ∧
      s.calls.lookup 0 = some call ∧ call.response = some response ∧
      MultiMap.getAll response.header.headers contentLengthName = [natText length] ∧
      response.body.length ≤ length := by
  obtain ⟨s, call, _, response, _, hrun, hcall, hresponse, hok, -⟩ := exampleDownloads_run
  have hframed := static_response_framed exampleStaticEnv exampleRoots hrun hcall hresponse
  obtain ⟨length, hlength, hbody, -⟩ := hframed.2.2 (by rw [hok]; decide)
  exact ⟨s, call, response, length, hrun, hcall, hresponse, hlength, hbody⟩

/-- A found file carries its tag, and the client is told to keep what it has exactly when it offers that tag in a
list of tags, or any. -/
theorem static_not_modified_iff_offered (hrun : ServeState.Run env roots cacheBytes past s)
    (hcall : s.calls.lookup i = some call) (hresponse : call.response = some response)
    (hfound : response.header.status ∈ [200, 304]) :
    ∃ asset, Selected env roots past i call.session asset ∧
      MultiMap.getAll response.header.headers (ascii "etag") = [etagText asset.length asset.modifiedNanos] ∧
      (response.header.status = 304 ↔
        ∃ value ∈ MultiMap.getAll call.session.request.headers (ascii "if-none-match"),
          value = ascii "*" ∨ opaqueTag asset.length asset.modifiedNanos ∈ offeredTags value) := by
  obtain ⟨asset, hselected, hetag, h304⟩ := (explained_of_run env roots hrun hcall hresponse).selected hfound
  refine ⟨asset, hselected, hetag, ?_⟩
  rw [h304, StaticRequest.revalidates, ifNoneMatchMatches_iff]

/-- The second download offers the tag. -/
theorem download_offers_tag :
    ∃ (s : ExampleServeState) (call : ServeCall) (response : StaticResponse) (asset : ResolvedAsset),
      ServeState.Run exampleStaticEnv exampleRoots 0 exampleDownloads s ∧
      s.calls.lookup 1 = some call ∧ call.response = some response ∧ response.header.status = 304 ∧
      ∃ value ∈ MultiMap.getAll call.session.request.headers (ascii "if-none-match"),
        value = ascii "*" ∨ opaqueTag asset.length asset.modifiedNanos ∈ offeredTags value := by
  obtain ⟨s, _, call, _, response, hrun, -, -, -, hcall, hresponse, h304, -⟩ := exampleDownloads_run
  obtain ⟨asset, -, -, hoffered⟩ := static_not_modified_iff_offered exampleStaticEnv exampleRoots hrun hcall hresponse
    (by rw [h304]; decide)
  exact ⟨s, call, response, asset, hrun, hcall, hresponse, h304, hoffered.mp h304⟩

/-- A client that has been given a tag sends it back: it is told to keep what it has exactly when the file that the
later answer is about has the same length and the same time as the one that the earlier answer was about. -/
theorem static_revalidation_exact {j : ℕ} {later : ServeCall} {answer : StaticResponse}
    (hrun : ServeState.Run env roots cacheBytes past s)
    (hcall : s.calls.lookup i = some call) (hresponse : call.response = some response)
    (hgiven : response.header.status ∈ [200, 304])
    (hlater : s.calls.lookup j = some later) (hanswer : later.response = some answer)
    (hfound : answer.header.status ∈ [200, 304])
    (hback : MultiMap.getAll later.session.request.headers (ascii "if-none-match") =
      MultiMap.getAll response.header.headers (ascii "etag")) :
    ∃ asset asset', Selected env roots past i call.session asset ∧ Selected env roots past j later.session asset' ∧
      MultiMap.getAll response.header.headers (ascii "etag") = [etagText asset.length asset.modifiedNanos] ∧
      MultiMap.getAll answer.header.headers (ascii "etag") = [etagText asset'.length asset'.modifiedNanos] ∧
      (answer.header.status = 304 ↔
        asset'.length = asset.length ∧ asset'.modifiedNanos = asset.modifiedNanos) := by
  obtain ⟨asset, hselected, hetag, -⟩ := (explained_of_run env roots hrun hcall hresponse).selected hgiven
  obtain ⟨asset', hselected', hetag', h304⟩ := (explained_of_run env roots hrun hlater hanswer).selected hfound
  refine ⟨asset, asset', hselected, hselected', hetag, hetag', ?_⟩
  have hstar : etagText asset.length asset.modifiedNanos ≠ ascii "*" := fun hsame => by
    have hfirst := congrArg List.head? hsame
    cases hfirst
  rw [h304, StaticRequest.revalidates, ifNoneMatchMatches_iff, hback, hetag]
  constructor
  · rintro ⟨value, hvalue, hmatch⟩
    obtain rfl := List.mem_singleton.mp hvalue
    exact opaqueTag_mem_offeredTags_etagText.mp (hmatch.resolve_left hstar)
  · intro hsame
    exact ⟨_, List.mem_singleton_self _, .inr (opaqueTag_mem_offeredTags_etagText.mpr hsame)⟩

/-- The file of the second download is the one of the first. -/
theorem download_revalidated :
    ∃ (s : ExampleServeState) (call later : ServeCall) (answer : StaticResponse) (asset asset' : ResolvedAsset),
      ServeState.Run exampleStaticEnv exampleRoots 0 exampleDownloads s ∧
      s.calls.lookup 0 = some call ∧ s.calls.lookup 1 = some later ∧ later.response = some answer ∧
      Selected exampleStaticEnv exampleRoots exampleDownloads 0 call.session asset ∧
      Selected exampleStaticEnv exampleRoots exampleDownloads 1 later.session asset' ∧
      MultiMap.getAll answer.header.headers (ascii "etag") = [etagText asset'.length asset'.modifiedNanos] ∧
      asset'.length = asset.length ∧ asset'.modifiedNanos = asset.modifiedNanos := by
  obtain ⟨s, call, later, response, answer, hrun, hcall, hresponse, hok, hlater, hanswer, h304, hback⟩ :=
    exampleDownloads_run
  obtain ⟨asset, asset', hselected, hselected', -, hetag, hsame⟩ := static_revalidation_exact exampleStaticEnv
    exampleRoots hrun hcall hresponse (by rw [hok]; decide) hlater hanswer (by rw [h304]; decide) hback
  exact ⟨s, call, later, answer, asset, asset', hrun, hcall, hlater, hanswer, hselected, hselected', hetag,
    hsame.mp h304⟩

end

end Pingola.StaticFiles
