import Pingola.Gateway.ContentEncoding
import Pingola.Gateway.GrpcWeb

/-!
# The response compressor

`ResponseCompressionCtx` of the vendored `protocols/http/compression`, as the module of the gateway is built: one
level for all algorithms, no decompression, no dictionary, entity tags not preserved. A call in the wrong phase
panics. An encoder is known by its algorithm.
-/

namespace Pingola
open ByteText

inductive Algorithm where
  | any
  | gzip
  | brotli
  | zstd
  | dcb
  | dcz
  | other
  deriving DecidableEq

namespace Algorithm

def asStr : Algorithm → Bytes
  | .gzip => ascii "gzip"
  | .brotli => ascii "br"
  | .zstd => ascii "zstd"
  | .dcb => ascii "dcb"
  | .dcz => ascii "dcz"
  | .any => ascii "*"
  | .other => ascii "other"

def compressor (algorithm : Algorithm) (level : ℕ) : Option Algorithm :=
  if level = 0 then none
  else
    match algorithm with
    | .gzip | .brotli | .zstd => some algorithm
    | _ => none

end Algorithm

def contentEncodingName : Bytes := ascii "content-encoding"

def varyName : Bytes := ascii "vary"

def etagName : Bytes := ascii "etag"

def acceptRangesName : Bytes := ascii "accept-ranges"

def minCompressLen : ℕ := 20

/-- The alternatives of `MIME_CHECK`. -/
def mimeCheck : List Bytes :=
  ["text/", "application/", "font/", "image/x-icon", "image/svg+xml", "image/nd.microsoft.icon",
    "binary/octet-stream"].map ascii

def compressible (resp : ResponseHeader) : Bool :=
  if ((HeaderMap.get resp.headers contentLengthName).bind (parseUnsigned (2 ^ 64))).any (· < minCompressLen) then false
  else
    match HeaderMap.get resp.headers contentTypeName with
    | some contentType =>
      if isUtf8 contentType then
        if containsBytes (ascii "zip") contentType then false else mimeCheck.any (·.isPrefixOf contentType)
      else false
    | none => false

def addVaryHeader (resp : ResponseHeader) (value : Bytes) : ResponseHeader :=
  let alreadyPresent := (MultiMap.getAll resp.headers varyName).any fun existing =>
    (existing.splitOn (byte ',')).any fun v => trimAscii v == ascii "*" || eqIgnoreAsciiCase (trimAscii v) value
  if alreadyPresent then resp else { resp with headers := resp.headers ++ [(varyName, value)] }

/-- The algorithm to compress with. The other action takes a coding off, and no decompressor is enabled. -/
def decideAction (resp : ResponseHeader) (acceptEncoding : List Algorithm) : Option Algorithm :=
  if (HeaderMap.get resp.headers contentEncodingName).isSome then none
  else
    match acceptEncoding with
    | [] => none
    | first :: _ => if !compressible resp || first == .any then none else some first

def setStreamHeaders (resp : ResponseHeader) : ResponseHeader :=
  let resp := resp.removeHeader contentLengthName
  let resp := resp.removeHeader acceptRangesName
  resp.insertTypedHeader transferEncodingName (ascii "chunked")

def weakenOrClearEtag (resp : ResponseHeader) : ResponseHeader :=
  match HeaderMap.get resp.headers etagName with
  | some etag =>
    if (ascii "W/").isPrefixOf etag then resp
    else if (ascii "\"").isPrefixOf etag then resp.insertTypedHeader etagName (ascii "W/" ++ etag)
    else resp.removeHeader etagName
  | none => resp

/-- `adjust_response_header` for an action that compresses. -/
def adjustResponseHeader (resp : ResponseHeader) (algorithm : Algorithm) : ResponseHeader :=
  weakenOrClearEtag (setStreamHeaders (resp.insertTypedHeader contentEncodingName algorithm.asStr))

inductive CompressionCtx where
  | headerPhase (acceptEncoding : List Algorithm) (level : ℕ)
  | bodyPhase (encoder : Option Algorithm)
  deriving DecidableEq

namespace CompressionCtx

def isEnabled : CompressionCtx → Bool
  | .headerPhase _ level => level != 0
  | .bodyPhase encoder => encoder.isSome

def adjustLevel (level : ℕ) : CompressionCtx → Option CompressionCtx
  | .headerPhase acceptEncoding _ => some (.headerPhase acceptEncoding level)
  | .bodyPhase _ => none

def responseHeaderFilter (ctx : CompressionCtx) (resp : ResponseHeader) (endOfStream : Bool) :
    Option (CompressionCtx × ResponseHeader) :=
  if !ctx.isEnabled then some (ctx, resp)
  else
    match ctx with
    | .headerPhase acceptEncoding level =>
      if statusIsInformational resp.status then
        if resp.status = 101 then some (.bodyPhase none, resp) else some (ctx, resp)
      else if endOfStream then some (.bodyPhase none, resp)
      else
        let resp := if level ≠ 0 ∧ compressible resp = true then addVaryHeader resp (ascii "accept-encoding") else resp
        match decideAction resp acceptEncoding with
        | none => some (.bodyPhase none, resp)
        | some algorithm =>
          match algorithm.compressor level with
          | none => some (.bodyPhase none, resp)
          | some encoder => some (.bodyPhase (some encoder), adjustResponseHeader resp algorithm)
    | .bodyPhase _ => none

/-- The encoder that a chunk goes through; the module skips a compressor that is not enabled. An encoder that fails
on a chunk is given up, and the module then leaves the chunk as it came. -/
def responseBodyFilter (ctx : CompressionCtx) (encodes : Bool) : Option (CompressionCtx × Option Algorithm) :=
  if !ctx.isEnabled then some (ctx, none)
  else
    match ctx with
    | .headerPhase _ _ => none
    | .bodyPhase encoder => if encodes then some (ctx, encoder) else some (.bodyPhase none, none)

end CompressionCtx

/-! ### What the filter does -/

lemma getAll_addVaryHeader (resp : ResponseHeader) (value : Bytes) {name : Bytes} (h : name ≠ varyName) :
    MultiMap.getAll (addVaryHeader resp value).headers name = MultiMap.getAll resp.headers name := by
  unfold addVaryHeader
  dsimp only
  split
  · rfl
  · simp [MultiMap.getAll, h.symm]

lemma compressible_addVaryHeader (resp : ResponseHeader) (value : Bytes) :
    compressible (addVaryHeader resp value) = compressible resp := by
  unfold compressible HeaderMap.get
  rw [getAll_addVaryHeader resp value (by decide), getAll_addVaryHeader resp value (by decide)]

/-- The names that a compressed response may have other fields for. -/
def recodedNames : List Bytes :=
  [contentEncodingName, contentLengthName, acceptRangesName, transferEncodingName, etagName, varyName]

/-- The header of a response that is sent in a coding. -/
structure Recoded (algorithm : Algorithm) (resp sent : ResponseHeader) : Prop where
  status : sent.status = resp.status
  coding : MultiMap.getAll sent.headers contentEncodingName = [algorithm.asStr]
  length : MultiMap.getAll sent.headers contentLengthName = []
  chunked : MultiMap.getAll sent.headers transferEncodingName = [ascii "chunked"]
  ranges : MultiMap.getAll sent.headers acceptRangesName = []
  /-- A strong entity tag of the bytes before is not sent for the bytes after. -/
  etag : ∀ tag ∈ (HeaderMap.get sent.headers etagName), ascii "W/" <+: tag
  others : ∀ name ∉ recodedNames, MultiMap.getAll sent.headers name = MultiMap.getAll resp.headers name

lemma getAll_weakenOrClearEtag (resp : ResponseHeader) {name : Bytes} (h : name ≠ etagName) :
    MultiMap.getAll (weakenOrClearEtag resp).headers name = MultiMap.getAll resp.headers name := by
  unfold weakenOrClearEtag
  split
  · split
    · rfl
    · split
      · exact MultiMap.getAll_insert_of_ne h _ _
      · exact (MultiMap.getAll_remove _ _ _).trans (if_neg h)
  · rfl

lemma weak_of_mem_weakenOrClearEtag {resp : ResponseHeader} {tag : Bytes}
    (h : tag ∈ HeaderMap.get (weakenOrClearEtag resp).headers etagName) : ascii "W/" <+: tag := by
  unfold weakenOrClearEtag at h
  split at h
  · next etag hget =>
    split at h
    · next hweak =>
      rw [hget] at h
      obtain rfl := Option.some.inj h
      exact List.isPrefixOf_iff_prefix.mp hweak
    · split at h
      · rw [HeaderMap.get, ResponseHeader.insertTypedHeader, MultiMap.getAll_insert_self] at h
        obtain rfl := Option.some.inj h
        exact List.prefix_append _ _
      · have hnone : MultiMap.getAll (resp.removeHeader etagName).headers etagName = [] :=
          (MultiMap.getAll_remove _ _ _).trans (if_pos rfl)
        rw [HeaderMap.get, hnone] at h
        cases h
  · next hget =>
    rw [hget] at h
    cases h

lemma status_weakenOrClearEtag (resp : ResponseHeader) : (weakenOrClearEtag resp).status = resp.status := by
  unfold weakenOrClearEtag
  split
  · split
    · rfl
    · split
      · rfl
      · rfl
  · rfl

lemma recoded_adjustResponseHeader (resp : ResponseHeader) (algorithm : Algorithm) :
    Recoded algorithm resp (adjustResponseHeader resp algorithm) := by
  have hstream : ∀ name, MultiMap.getAll (setStreamHeaders (resp.insertTypedHeader contentEncodingName
      algorithm.asStr)).headers name = if name = transferEncodingName then [ascii "chunked"]
        else if name = acceptRangesName then [] else if name = contentLengthName then []
        else if name = contentEncodingName then [algorithm.asStr] else MultiMap.getAll resp.headers name := by
    intro name
    rw [setStreamHeaders, ResponseHeader.insertTypedHeader, MultiMap.getAll_insert]
    refine if_congr Iff.rfl rfl ?_
    refine (MultiMap.getAll_remove _ _ _).trans (if_congr Iff.rfl rfl ?_)
    refine (MultiMap.getAll_remove _ _ _).trans (if_congr Iff.rfl rfl ?_)
    exact MultiMap.getAll_insert _ _ _ _
  refine ⟨?_, ?_, ?_, ?_, ?_, fun tag htag => weak_of_mem_weakenOrClearEtag htag, fun name hname => ?_⟩
  · exact status_weakenOrClearEtag _
  · rw [adjustResponseHeader, getAll_weakenOrClearEtag _ (by decide), hstream]
    simp +decide
  · rw [adjustResponseHeader, getAll_weakenOrClearEtag _ (by decide), hstream]
    simp +decide
  · rw [adjustResponseHeader, getAll_weakenOrClearEtag _ (by decide), hstream, if_pos rfl]
  · rw [adjustResponseHeader, getAll_weakenOrClearEtag _ (by decide), hstream]
    simp +decide
  · simp only [recodedNames, List.mem_cons, List.not_mem_nil, not_or, or_false] at hname
    obtain ⟨hcoding, hlength, hranges, hchunked, hetag, -⟩ := hname
    rw [adjustResponseHeader, getAll_weakenOrClearEtag _ hetag, hstream, if_neg hchunked, if_neg hranges, if_neg hlength,
      if_neg hcoding]

lemma Recoded.of_addVaryHeader {algorithm : Algorithm} {resp sent : ResponseHeader} {value : Bytes}
    (h : Recoded algorithm (addVaryHeader resp value) sent) : Recoded algorithm resp sent := by
  have hstatus : (addVaryHeader resp value).status = resp.status := by
    unfold addVaryHeader
    dsimp only
    split
    · rfl
    · rfl
  refine { h with status := h.status.trans hstatus, others := fun name hname => ?_ }
  have hvary : name ≠ varyName := by
    rintro rfl
    exact hname (by decide)
  rw [h.others name hname, getAll_addVaryHeader resp value hvary]

namespace CompressionCtx

/-- The final header of a response that no coding has been applied to yet. -/
lemma responseHeaderFilter_final {algorithm : Algorithm} {level : ℕ} {resp : ResponseHeader} (hlevel : level ≠ 0)
    (halgorithm : algorithm ∈ [.gzip, .brotli, .zstd]) (hfinal : statusIsInformational resp.status = false)
    (hcoding : MultiMap.getAll resp.headers contentEncodingName = []) :
    ∃ sent, (headerPhase [algorithm] level).responseHeaderFilter resp false =
        some (.bodyPhase (if compressible resp = true then some algorithm else none), sent) ∧
      (compressible resp = true → Recoded algorithm resp sent) ∧ (compressible resp = false → sent = resp) := by
  have henabled : (headerPhase [algorithm] level).isEnabled = true := by simpa [isEnabled] using hlevel
  have hcompressor : algorithm.compressor level = some algorithm := by
    unfold Algorithm.compressor
    rw [if_neg hlevel]
    simp only [List.mem_cons, List.not_mem_nil, or_false] at halgorithm
    rcases halgorithm with rfl | rfl | rfl <;> rfl
  have hany : (algorithm == .any) = false := by
    simp only [List.mem_cons, List.not_mem_nil, or_false] at halgorithm
    rcases halgorithm with rfl | rfl | rfl <;> rfl
  unfold responseHeaderFilter
  rw [henabled, Bool.not_true, if_neg Bool.false_ne_true]
  dsimp only
  rw [hfinal, if_neg Bool.false_ne_true, if_neg Bool.false_ne_true]
  by_cases hcompressible : compressible resp = true
  · have hvary : MultiMap.getAll (addVaryHeader resp (ascii "accept-encoding")).headers contentEncodingName = [] := by
      rw [getAll_addVaryHeader resp _ (by decide), hcoding]
    have haction : decideAction (addVaryHeader resp (ascii "accept-encoding")) [algorithm] = some algorithm := by
      rw [decideAction, HeaderMap.get, hvary, if_neg (by simp)]
      simp [compressible_addVaryHeader, hcompressible, hany]
    rw [if_pos ⟨hlevel, hcompressible⟩, haction]
    dsimp only
    rw [hcompressor]
    refine ⟨_, by rw [if_pos hcompressible], fun _ => ?_, fun hnot => ?_⟩
    · exact (recoded_adjustResponseHeader _ _).of_addVaryHeader
    · rw [hnot] at hcompressible
      cases hcompressible
  · have haction : decideAction resp [algorithm] = none := by
      rw [decideAction, HeaderMap.get, hcoding, if_neg (by simp)]
      simp [hcompressible]
    rw [if_neg (fun hboth => hcompressible hboth.2), haction]
    exact ⟨resp, by rw [if_neg hcompressible], fun h => absurd h hcompressible, fun _ => rfl⟩

/-- In any phase a header is passed, with or without a `Vary`, or recoded. -/
lemma responseHeaderFilter_cases {ctx ctx' : CompressionCtx} {resp sent : ResponseHeader} {endOfStream : Bool}
    (h : ctx.responseHeaderFilter resp endOfStream = some (ctx', sent)) :
    sent = resp ∨ sent = addVaryHeader resp (ascii "accept-encoding") ∨ ∃ algorithm, Recoded algorithm resp sent := by
  unfold responseHeaderFilter at h
  split at h
  · exact .inl (Prod.mk.inj (Option.some.inj h)).2.symm
  split at h
  · split at h
    · split at h
      · exact .inl (Prod.mk.inj (Option.some.inj h)).2.symm
      · exact .inl (Prod.mk.inj (Option.some.inj h)).2.symm
    split at h
    · exact .inl (Prod.mk.inj (Option.some.inj h)).2.symm
    · next level _ _ _ =>
      dsimp only at h
      -- with or without the field, the rest of the filter is the same
      have hvary : ∃ varied, (varied = resp ∨ varied = addVaryHeader resp (ascii "accept-encoding")) ∧
          (if level ≠ 0 ∧ compressible resp = true then addVaryHeader resp (ascii "accept-encoding") else resp) =
            varied := by
        split
        · exact ⟨_, .inr rfl, rfl⟩
        · exact ⟨_, .inl rfl, rfl⟩
      obtain ⟨varied, hvaried, heq⟩ := hvary
      rw [heq] at h
      have hplain : sent = varied → sent = resp ∨ sent = addVaryHeader resp (ascii "accept-encoding") ∨
          ∃ algorithm, Recoded algorithm resp sent := by
        rintro rfl
        exact hvaried.imp_right .inl
      split at h
      · exact hplain (Prod.mk.inj (Option.some.inj h)).2.symm
      · next algorithm _ =>
        split at h
        · exact hplain (Prod.mk.inj (Option.some.inj h)).2.symm
        · obtain ⟨-, rfl⟩ := Prod.mk.inj (Option.some.inj h)
          have hrecoded := recoded_adjustResponseHeader varied algorithm
          rcases hvaried with rfl | rfl
          · exact .inr (.inr ⟨algorithm, hrecoded⟩)
          · exact .inr (.inr ⟨algorithm, hrecoded.of_addVaryHeader⟩)
  · cases h

end CompressionCtx

end Pingola
