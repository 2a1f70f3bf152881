import Pingola.Lib.LruCache
import Pingola.Lib.UnixPath

/-!
# The cache of static assets

`AssetCache` of `static_files.rs`. Keys are equal when the components of their paths are, so the path of a
key is its components. The hash of a key and the implementation of the LRU caches are arguments. A shard also
keeps whether a subtraction from its byte count has saturated, which the source does not record.
-/

namespace Pingola.StaticFiles
open ByteText

inductive Encoding where
  | identity
  | gzip
  | brotli
  | zstd
  deriving DecidableEq

structure CacheKey where
  path : List UnixPath.Component
  modifiedNanos : ℕ
  length : ℕ
  encoding : Encoding
  deriving DecidableEq

structure CachedAsset where
  body : Bytes
  contentType : Bytes
  contentLength : Bytes
  etag : Bytes
  lastModified : Bytes
  deriving DecidableEq

def assetCacheShards : ℕ := 8

def shardCapacity : ℕ := 32

instance instNeZeroShardCapacity : NeZero shardCapacity := ⟨by decide⟩

structure CacheState (L : LruCrate) where
  assets : L.Cache shardCapacity CacheKey CachedAsset
  bytes : ℕ
  saturated : Bool

namespace CacheState

variable {L : LruCrate}

def new : CacheState L := ⟨L.new, 0, false⟩

/-- The body of an asset that has left is subtracted, and the difference saturates. -/
def release (s : CacheState L) (asset : CachedAsset) : CacheState L :=
  { s with
    bytes := s.bytes - asset.body.length
    saturated := s.saturated || decide (s.bytes < asset.body.length) }

/-- The loop of `insert`. -/
def evict (maxBytes : ℕ) (s : CacheState L) : CacheState L :=
  if maxBytes < s.bytes then
    match _h : L.popLru s.assets with
    | none => s
    | some (evicted, assets) => evict maxBytes ({ s with assets }.release evicted.2)
  else s
termination_by (L.table s.assets).entries.length
decreasing_by exact (LruCache.popLru_eq_some (LruCrate.popLru_view_of_some _h)).1

/-- `insert` up to its loop. -/
def store (s : CacheState L) (key : CacheKey) (asset : CachedAsset) : CacheState L :=
  let pushed := L.push s.assets key asset
  let s := { s with assets := pushed.1 }
  let s := match pushed.2 with
    | some previous => s.release previous.2
    | none => s
  { s with bytes := s.bytes + asset.body.length }

def insert (maxBytes : ℕ) (s : CacheState L) (key : CacheKey) (asset : CachedAsset) : CacheState L :=
  evict maxBytes (s.store key asset)

end CacheState

structure AssetCache (L : LruCrate) where
  maxBytes : ℕ
  shards : Fin assetCacheShards → CacheState L

namespace AssetCache

variable {L : LruCrate} (hash : CacheKey → UInt64)

def new (maxBytes : ℕ) : AssetCache L := ⟨max (maxBytes / assetCacheShards) 1, fun _ => .new⟩

/-- `shard`. -/
def shardOf (key : CacheKey) : Fin assetCacheShards :=
  ⟨(hash key).toNat % assetCacheShards, Nat.mod_lt _ (by decide)⟩

def get (cache : AssetCache L) (key : CacheKey) : Option CachedAsset × AssetCache L :=
  let state := cache.shards (shardOf hash key)
  let found := L.get state.assets key
  (found.1, { cache with shards := Function.update cache.shards (shardOf hash key) { state with assets := found.2 } })

def insert (cache : AssetCache L) (key : CacheKey) (asset : CachedAsset) : AssetCache L :=
  if cache.maxBytes < asset.body.length then cache
  else
    let state := cache.shards (shardOf hash key)
    { cache with shards :=
        Function.update cache.shards (shardOf hash key) (state.insert cache.maxBytes key asset) }

end AssetCache

/-- The calls of a cache. -/
inductive AssetCall where
  | get (key : CacheKey)
  | insert (key : CacheKey) (asset : CachedAsset)

namespace AssetCache

variable {L : LruCrate} (hash : CacheKey → UInt64)

def call (cache : AssetCache L) : AssetCall → AssetCache L
  | .get key => (cache.get hash key).2
  | .insert key asset => cache.insert hash key asset

def run (cache : AssetCache L) (calls : List AssetCall) : AssetCache L := calls.foldl (call hash) cache

/-- What is resident under a key. -/
def resident (cache : AssetCache L) (key : CacheKey) : Option CachedAsset :=
  (L.table (cache.shards (shardOf hash key)).assets).lookup key

end AssetCache

/-- The asset of the last insertion under a key that a cache with this bound accepts. -/
def lastAccepted (maxBytes : ℕ) (key : CacheKey) (calls : List AssetCall) : Option CachedAsset :=
  calls.foldl (fun last call =>
    match call with
    | .get _ => last
    | .insert k asset => if k = key ∧ asset.body.length ≤ maxBytes then some asset else last) none

/-! ### One shard -/

namespace CacheState

variable {L : LruCrate} {s : CacheState L} {maxBytes : ℕ} {key : CacheKey} {asset : CachedAsset}

/-- The byte count is the sum of the resident bodies, and no subtraction has saturated. -/
structure Accounts (s : CacheState L) : Prop where
  bytes : s.bytes = (L.table s.assets).total fun asset => asset.body.length
  unsaturated : s.saturated = false

/-- The body of an asset that left an exact count is still in it. -/
lemma Accounts.release {assets : L.Cache shardCapacity CacheKey CachedAsset} {bytes : ℕ}
    (htotal : bytes = (L.table assets).total (fun asset => asset.body.length) + asset.body.length) :
    (CacheState.mk assets bytes false |>.release asset).Accounts := by
  refine ⟨?_, ?_⟩
  · rw [CacheState.release, htotal]
    exact Nat.add_sub_cancel _ _
  · rw [CacheState.release, Bool.false_or, decide_eq_false_iff_not, Nat.not_lt, htotal]
    exact Nat.le_add_left _ _

/-- The loop ends below the bound and keeps the newest asset, which fits alone. -/
lemma evict_spec (h : s.Accounts) (hnewest : (L.view s.assets).newest = some (key, asset))
    (hfits : asset.body.length ≤ maxBytes) :
    (evict maxBytes s).Accounts ∧ (evict maxBytes s).bytes ≤ maxBytes ∧
      (L.view (evict maxBytes s).assets).newest = some (key, asset) ∧
      ∀ k v, (L.table (evict maxBytes s).assets).lookup k = some v → (L.table s.assets).lookup k = some v := by
  induction s using evict.induct maxBytes with
  | case1 s hover hpop =>
    -- an empty shard has no bytes to spare
    rw [h.bytes, LruCrate.table, LruCache.popLru_eq_none (LruCrate.popLru_view_of_none hpop)] at hover
    cases hover
  | case2 s hover evicted assets hpop ih =>
    obtain ⟨-, htotal, hlookup, hkept⟩ := LruCache.popLru_eq_some (LruCrate.popLru_view_of_some hpop)
    have hlong : 2 ≤ (L.table s.assets).entries.length := by
      by_contra hshort
      rw [h.bytes, LruCrate.table, LruCache.total_of_newest hnewest (Nat.not_le.mp hshort)] at hover
      omega
    have hreleased : (CacheState.release { s with assets } evicted.2).Accounts := by
      rw [h.unsaturated]
      exact Accounts.release (h.bytes.trans (htotal _))
    obtain ⟨haccounts, hbound, hnewest', hfound⟩ := ih hreleased ((hkept hlong).trans hnewest)
    have hstep : evict maxBytes s = evict maxBytes (CacheState.release { s with assets } evicted.2) := by
      rw [evict, if_pos hover, hpop]
    rw [hstep]
    exact ⟨haccounts, hbound, hnewest', fun k v hv => hlookup k v (hfound k v hv)⟩
  | case3 s hover =>
    rw [evict, if_neg hover]
    exact ⟨h, Nat.not_lt.mp hover, hnewest, fun k v hv => hv⟩

lemma view_store (s : CacheState L) (key : CacheKey) (asset : CachedAsset) :
    L.view (s.store key asset).assets = (L.view s.assets).put key asset := by
  have hpush : L.view (L.push s.assets key asset).1 = (L.view s.assets).put key asset := L.view_push s.assets key asset
  rw [store, ← hpush]
  cases (L.push s.assets key asset).2 <;> rfl

lemma accounts_store (h : s.Accounts) (key : CacheKey) (asset : CachedAsset) : (s.store key asset).Accounts := by
  have htotal := LruCache.total_push (fun asset : CachedAsset => asset.body.length) (L.view s.assets) key asset
  have hnew : asset.body.length ≤ ((L.view s.assets).push key asset).1.table.total fun asset => asset.body.length :=
    LruCache.le_total_of_newest (LruCache.newest_put (L.view s.assets) key asset) fun asset => asset.body.length
  rw [← L.push_snd, ← L.view_push] at htotal
  rw [← L.view_push] at hnew
  rw [← LruCrate.table, ← LruCrate.table, ← h.bytes] at htotal
  rw [← LruCrate.table] at hnew
  rw [store]
  cases hprevious : (L.push s.assets key asset).2 with
  | none =>
    rw [hprevious] at htotal
    exact ⟨htotal.symm, h.unsaturated⟩
  | some previous =>
    -- the new body is in the new total, so the body that left is in the old one
    rw [hprevious, Option.map_some, Option.getD_some] at htotal
    refine ⟨?_, ?_⟩
    · dsimp only [release]
      omega
    · dsimp only [release]
      rw [h.unsaturated, Bool.false_or, decide_eq_false_iff_not]
      omega

lemma insert_spec (h : s.Accounts) (key : CacheKey) (hfits : asset.body.length ≤ maxBytes) :
    (s.insert maxBytes key asset).Accounts ∧ (s.insert maxBytes key asset).bytes ≤ maxBytes ∧
      (L.table (s.insert maxBytes key asset).assets).lookup key = some asset ∧
      ∀ k v, (L.table (s.insert maxBytes key asset).assets).lookup k = some v →
        k = key ∧ v = asset ∨ k ≠ key ∧ (L.table s.assets).lookup k = some v := by
  have hnewest : (L.view (s.store key asset).assets).newest = some (key, asset) := by
    rw [view_store]
    exact LruCache.newest_put (L.view s.assets) key asset
  obtain ⟨haccounts, hbound, hnewest', hfound⟩ := evict_spec (accounts_store h key asset) hnewest hfits
  refine ⟨haccounts, hbound, LruCache.lookup_of_newest hnewest', fun k v hv => ?_⟩
  apply LruCache.lookup_put_cases
  rw [← view_store]
  exact hfound k v hv

/-- A lookup changes the order only. -/
lemma accounts_get (h : s.Accounts) (key : CacheKey) :
    ({ s with assets := (L.get s.assets key).2 } : CacheState L).Accounts := by
  refine ⟨h.bytes.trans ?_, h.unsaturated⟩
  exact Table.total_congr fun k => by rw [LruCrate.lookup_get]

end CacheState

/-! ### All shards -/

section

variable (maxBytes : ℕ) (key k : CacheKey) (calls : List AssetCall)

lemma lastAccepted_append_get :
    lastAccepted maxBytes key (calls ++ [.get k]) = lastAccepted maxBytes key calls := by
  rw [lastAccepted, List.foldl_append]
  rfl

lemma lastAccepted_append_insert (asset : CachedAsset) :
    lastAccepted maxBytes key (calls ++ [.insert k asset]) =
      if k = key ∧ asset.body.length ≤ maxBytes then some asset else lastAccepted maxBytes key calls := by
  rw [lastAccepted, List.foldl_append]
  rfl

end

namespace AssetCache

variable {L : LruCrate} {hash : CacheKey → UInt64} {cache : AssetCache L} {calls : List AssetCall}

/-- What holds after some calls. -/
structure Reached (hash : CacheKey → UInt64) (calls : List AssetCall) (cache : AssetCache L) : Prop where
  accounts : ∀ shard, (cache.shards shard).Accounts
  bounded : ∀ shard, (cache.shards shard).bytes ≤ cache.maxBytes
  last : ∀ key asset, cache.resident hash key = some asset → lastAccepted cache.maxBytes key calls = some asset

/-- A property of all shards is kept when one of them gets a state with the property. -/
lemma forall_update {P : CacheState L → Prop} {shards : Fin assetCacheShards → CacheState L}
    (h : ∀ shard, P (shards shard)) {changed : Fin assetCacheShards} {state : CacheState L} (hstate : P state) :
    ∀ shard, P (Function.update shards changed state shard) := by
  intro shard
  by_cases hshard : shard = changed
  · rw [hshard, Function.update_self]
    exact hstate
  · rw [Function.update_of_ne hshard]
    exact h shard

lemma Reached.get (h : cache.Reached hash calls) (key : CacheKey) :
    (cache.get hash key).2.Reached hash (calls ++ [.get key]) := by
  have hresident : ∀ k, (cache.get hash key).2.resident hash k = cache.resident hash k := by
    intro k
    rw [resident, resident, AssetCache.get]
    by_cases hshard : shardOf hash k = shardOf hash key
    · rw [hshard]
      dsimp only
      rw [Function.update_self, LruCrate.lookup_get]
    · dsimp only
      rw [Function.update_of_ne hshard]
  refine ⟨?_, ?_, fun k asset hk => ?_⟩
  · exact forall_update h.accounts (CacheState.accounts_get (h.accounts _) key)
  · exact forall_update (P := fun s => s.bytes ≤ cache.maxBytes) h.bounded (h.bounded _)
  · rw [lastAccepted_append_get]
    rw [hresident] at hk
    exact h.last k asset hk

lemma insert_of_large {asset : CachedAsset} (h : cache.maxBytes < asset.body.length) (key : CacheKey) :
    cache.insert hash key asset = cache := by
  rw [insert, if_pos h]

lemma insert_of_fits {asset : CachedAsset} (h : asset.body.length ≤ cache.maxBytes) (key : CacheKey) :
    cache.insert hash key asset =
      { cache with
        shards := Function.update cache.shards (shardOf hash key)
          ((cache.shards (shardOf hash key)).insert cache.maxBytes key asset) } := by
  rw [insert, if_neg (Nat.not_lt.mpr h)]

lemma resident_insert {asset : CachedAsset} (h : cache.Reached hash calls)
    (hfits : asset.body.length ≤ cache.maxBytes) (key : CacheKey) :
    (cache.insert hash key asset).resident hash key = some asset := by
  rw [insert_of_fits hfits, resident]
  dsimp only
  rw [Function.update_self]
  exact (CacheState.insert_spec (h.accounts _) key hfits).2.2.1

lemma Reached.insert (h : cache.Reached hash calls) (key : CacheKey) (asset : CachedAsset) :
    (cache.insert hash key asset).Reached hash (calls ++ [.insert key asset]) := by
  rcases Nat.lt_or_ge cache.maxBytes asset.body.length with hlarge | hfits
  · rw [insert_of_large hlarge]
    refine ⟨h.accounts, h.bounded, fun k v hv => ?_⟩
    rw [lastAccepted_append_insert, if_neg fun hand => absurd hand.2 (Nat.not_le.mpr hlarge)]
    exact h.last k v hv
  · rw [insert_of_fits hfits]
    obtain ⟨haccounts, hbound, -, hfound⟩ :=
      CacheState.insert_spec (h.accounts (shardOf hash key)) key hfits
    refine ⟨forall_update h.accounts haccounts,
      forall_update (P := fun s => s.bytes ≤ cache.maxBytes) h.bounded hbound, fun k v hv => ?_⟩
    dsimp only
    rw [resident] at hv
    dsimp only at hv
    rw [lastAccepted_append_insert]
    by_cases hshard : shardOf hash k = shardOf hash key
    · rw [hshard, Function.update_self] at hv
      rcases hfound k v hv with ⟨rfl, rfl⟩ | ⟨hne, hold⟩
      · rw [if_pos ⟨rfl, hfits⟩]
      · rw [if_neg fun hand => hne hand.1.symm]
        refine h.last k v ?_
        rw [resident, hshard]
        exact hold
    · rw [Function.update_of_ne hshard] at hv
      rw [if_neg fun hand => hshard (congrArg (shardOf hash) hand.1.symm)]
      exact h.last k v hv

lemma reached_run (hash : CacheKey → UInt64) (maxBytes : ℕ) (calls : List AssetCall) :
    ((new maxBytes : AssetCache L).run hash calls).Reached hash calls := by
  induction calls using List.reverseRecOn with
  | nil =>
    have hempty : L.table (L.new : L.Cache shardCapacity CacheKey CachedAsset) = ∅ := by
      rw [LruCrate.table, L.view_new]
      rfl
    refine ⟨fun _ => ⟨?_, rfl⟩, fun _ => Nat.zero_le _, fun key asset h => ?_⟩
    · change 0 = Table.total _ (L.table L.new)
      rw [hempty]
      rfl
    · change (L.table L.new).lookup key = some asset at h
      rw [hempty] at h
      cases h
  | append_singleton calls call ih =>
    rw [run, List.foldl_append]
    cases call with
    | get key => exact ih.get key
    | insert key asset => exact ih.insert key asset

lemma maxBytes_run (hash : CacheKey → UInt64) (cache : AssetCache L) (calls : List AssetCall) :
    (cache.run hash calls).maxBytes = cache.maxBytes := by
  induction calls generalizing cache with
  | nil => rfl
  | cons call calls ih =>
    rw [run, List.foldl_cons]
    refine (ih _).trans ?_
    cases call with
    | get key => rfl
    | insert key asset =>
      rw [AssetCache.call, insert]
      split <;> rfl

/-- After any calls the counts are exact and within the bound, an insertion that is accepted leaves its
asset resident, and a lookup finds the last accepted insertion or nothing. -/
theorem counts_after_calls (L : LruCrate) (hash : CacheKey → UInt64) (maxBytes : ℕ) (calls : List AssetCall) :
    let perShard := max (maxBytes / 8) 1
    let cache := (new maxBytes : AssetCache L).run hash calls
    (∀ shard, (cache.shards shard).bytes =
          ((L.table (cache.shards shard).assets).entries.map fun e => e.2.body.length).sum ∧
        (cache.shards shard).bytes ≤ perShard ∧ (cache.shards shard).saturated = false) ∧
      (∀ key asset, asset.body.length ≤ perShard →
        (cache.insert hash key asset).resident hash key = some asset) ∧
      ∀ key asset, (cache.get hash key).1 = some asset → lastAccepted perShard key calls = some asset := by
  intro perShard cache
  have h : cache.Reached hash calls := reached_run hash maxBytes calls
  have hmax : cache.maxBytes = perShard := maxBytes_run hash (new maxBytes) calls
  rw [← hmax]
  refine ⟨fun shard => ?_, fun key asset hfits => ?_, fun key asset hget => ?_⟩
  · exact ⟨(h.accounts shard).bytes, h.bounded shard, (h.accounts shard).unsaturated⟩
  · exact resident_insert h hfits key
  · apply h.last
    rw [resident, ← LruCrate.get_eq_lookup]
    exact hget

/-- An asset with so many bytes. -/
def exampleAsset (length : ℕ) : CachedAsset := ⟨List.replicate length 0x61, [], [], [], []⟩

def exampleAssetKey (length : ℕ) : CacheKey := ⟨[], 0, length, .identity⟩

/-- An asset is replaced, one that is too large is refused, and the lookups in between find and do not find
something. -/
def exampleAssetCalls : List AssetCall :=
  [.insert (exampleAssetKey 60) (exampleAsset 60), .insert (exampleAssetKey 60) (exampleAsset 50),
    .insert (exampleAssetKey 101) (exampleAsset 101), .get (exampleAssetKey 60), .get (exampleAssetKey 101),
    .insert (exampleAssetKey 40) (exampleAsset 40)]

/-- An asset of 60 bytes needs the room of the one that was replaced, which is evicted. -/
theorem small_asset_is_resident :
    let cache := (new 800 : AssetCache .reference).run (fun _ => 0) exampleAssetCalls
    let next := cache.insert (fun _ => 0) (exampleAssetKey 61) (exampleAsset 60)
    (cache.get (fun _ => 0) (exampleAssetKey 60)).1 = some (exampleAsset 50) ∧
      lastAccepted 100 (exampleAssetKey 60) exampleAssetCalls = some (exampleAsset 50) ∧
      next.resident (fun _ => 0) (exampleAssetKey 61) = some (exampleAsset 60) ∧
      next.resident (fun _ => 0) (exampleAssetKey 60) = none := by
  intro cache next
  have hfound : (cache.get (fun _ => 0) (exampleAssetKey 60)).1 = some (exampleAsset 50) := by decide +kernel
  obtain ⟨-, hinserted, hlast⟩ := counts_after_calls .reference (fun _ => 0) 800 exampleAssetCalls
  exact ⟨hfound, hlast _ _ hfound, hinserted _ _ (by decide), by decide +kernel⟩

end AssetCache

end Pingola.StaticFiles
