import Pingola.Cache.Key
import Pingola.Lib.Table

/-!
# The cache

`PingolaCache` of `cache/core.rs`: a map of entries, an LRU order of the same keys and five
counters, which are machine words. The order is modelled by the weight of each key; which
keys an eviction picks is not determined by it and is an argument (`victims`) of the calls
that evict. Metrics, which nothing reads back, are left out.
-/

namespace Pingola
open ByteText

structure CachedValue where
  body : Bytes
  storedAt : ℕ
  freshUntil : ℕ
  deriving DecidableEq

/-- `estimated_weight`; the addition saturates. -/
def CachedValue.estimatedWeight (v : CachedValue) : ℕ := max (min (v.body.length + 128) (2 ^ 64 - 1)) 1

def CachedValue.isFresh (v : CachedValue) (now : ℕ) : Bool := decide (now < v.freshUntil)

inductive CacheLookup where
  | hit (v : CachedValue)
  | miss
  | expired
  deriving DecidableEq

structure StoredEntry where
  cacheNamespace : CacheNamespace
  value : CachedValue
  weight : ℕ
  deriving DecidableEq

/-- `pingora_lru::Lru`: the admitted keys with their weights, and the limits. -/
structure Lru where
  weights : Table UInt64 ℕ
  weightLimit : ℕ
  lenWatermark : ℕ

namespace Lru

def weight (l : Lru) : ℕ := l.weights.total id

def len (l : Lru) : ℕ := l.weights.entries.length

def within (l : Lru) : Bool := decide (l.weight ≤ l.weightLimit) && decide (l.len ≤ l.lenWatermark)

/-- Inserts a key or gives it a new weight. -/
def admitKey (l : Lru) (key : UInt64) (weight : ℕ) : Lru := { l with weights := l.weights.insert key weight }

def remove (l : Lru) (key : UInt64) : Lru := { l with weights := l.weights.erase key }

/-- `evict_to_limit`: removes the victims one by one while a limit is exceeded. `none` when these
victims are not a possible outcome. -/
def evictToLimit (l : Lru) : List UInt64 → Option Lru
  | [] => if l.within then some l else none
  | key :: keys =>
    if l.within then none
    else if key ∈ l.weights then (l.remove key).evictToLimit keys
    else none

end Lru

structure PingolaCache where
  enabled : Bool
  memoryLimit : ℕ
  data : Table UInt64 StoredEntry
  order : Lru
  bytesUsed : UInt64
  dnsEntries : UInt64
  dnsBytes : UInt64
  navidromeEntries : UInt64
  navidromeBytes : UInt64

namespace PingolaCache

def lruShards : ℕ := 16

def minEstimatedEntryBytes : ℕ := 256

def new (enabled : Bool) (memoryBytes : ℕ) : PingolaCache :=
  let memoryLimit := max memoryBytes (lruShards * minEstimatedEntryBytes)
  { enabled := enabled
    memoryLimit := memoryLimit
    data := ∅
    order := ⟨∅, memoryLimit, max (memoryLimit / minEstimatedEntryBytes) lruShards⟩
    bytesUsed := 0
    dnsEntries := 0
    dnsBytes := 0
    navidromeEntries := 0
    navidromeBytes := 0 }

def entriesCounter (c : PingolaCache) : CacheNamespace → UInt64
  | .dns => c.dnsEntries
  | .navidrome => c.navidromeEntries

def bytesCounter (c : PingolaCache) : CacheNamespace → UInt64
  | .dns => c.dnsBytes
  | .navidrome => c.navidromeBytes

def accountInsert (c : PingolaCache) (n : CacheNamespace) (weight : ℕ) : PingolaCache :=
  let c := { c with bytesUsed := c.bytesUsed + UInt64.ofNat weight }
  match n with
  | .dns => { c with dnsEntries := c.dnsEntries + 1, dnsBytes := c.dnsBytes + UInt64.ofNat weight }
  | .navidrome =>
    { c with
      navidromeEntries := c.navidromeEntries + 1
      navidromeBytes := c.navidromeBytes + UInt64.ofNat weight }

def accountRemove (c : PingolaCache) (n : CacheNamespace) (weight : ℕ) : PingolaCache :=
  let c := { c with bytesUsed := c.bytesUsed - UInt64.ofNat weight }
  match n with
  | .dns => { c with dnsEntries := c.dnsEntries - 1, dnsBytes := c.dnsBytes - UInt64.ofNat weight }
  | .navidrome =>
    { c with
      navidromeEntries := c.navidromeEntries - 1
      navidromeBytes := c.navidromeBytes - UInt64.ofNat weight }

/-- `data.insert`, and the accounting of the entry it replaces. -/
def dataInsert (c : PingolaCache) (storageKey : UInt64) (e : StoredEntry) : PingolaCache :=
  let c' := { c with data := c.data.insert storageKey e }
  match c.data.lookup storageKey with
  | some old => c'.accountRemove old.cacheNamespace old.weight
  | none => c'

/-- `data.remove`, and the accounting of the entry it removes. -/
def dataRemove (c : PingolaCache) (storageKey : UInt64) : PingolaCache :=
  match c.data.lookup storageKey with
  | some e => { c with data := c.data.erase storageKey }.accountRemove e.cacheNamespace e.weight
  | none => c

/-- The first half of `insert`: the map, the counters and the order take the new entry. -/
def admitEntry (c : PingolaCache) (storageKey : UInt64) (e : StoredEntry) : PingolaCache :=
  let c := c.dataInsert storageKey e
  let c := c.accountInsert e.cacheNamespace e.weight
  { c with order := c.order.admitKey storageKey e.weight }

def removeStorageKey (c : PingolaCache) (storageKey : UInt64) : Bool × PingolaCache :=
  match c.data.lookup storageKey with
  | none => (false, c)
  | some _ =>
    let c := c.dataRemove storageKey
    (true, { c with order := c.order.remove storageKey })

def remove (c : PingolaCache) (key : CacheKey UInt64) : PingolaCache :=
  (c.removeStorageKey key.storageKey).2

def lookup (c : PingolaCache) (key : CacheKey UInt64) (now : ℕ) : CacheLookup × PingolaCache :=
  if !c.enabled then (.miss, c)
  else
    match c.data.lookup key.storageKey with
    | none => (.miss, c)
    | some entry =>
      if entry.cacheNamespace ≠ key.cacheNamespace then (.miss, c)
      else if entry.value.isFresh now then (.hit entry.value, c)
      else (.expired, c.remove key)

def insert (c : PingolaCache) (key : CacheKey UInt64) (value : CachedValue) (victims : List UInt64) :
    Option (Bool × PingolaCache) :=
  if !c.enabled then some (false, c)
  else if c.memoryLimit < value.estimatedWeight then some (false, c)
  else
    let c := c.admitEntry key.storageKey ⟨key.cacheNamespace, value, value.estimatedWeight⟩
    (c.order.evictToLimit victims).map fun order =>
      (true, victims.foldl dataRemove { c with order := order })

/-- The loop of `purge_namespace` over the collected keys. -/
def purgeKeys (c : PingolaCache) : List UInt64 → ℕ × PingolaCache
  | [] => (0, c)
  | key :: keys =>
    let (removed, c) := c.removeStorageKey key
    let (count, c) := c.purgeKeys keys
    (count + removed.toNat, c)

def purgeNamespace (c : PingolaCache) (n : CacheNamespace) : ℕ × PingolaCache :=
  c.purgeKeys ((c.data.entries.filter fun e => e.2.cacheNamespace = n).map Sigma.fst)

end PingolaCache

/-- A body that stays fresh for `ttl`. -/
def buildCached (body : Bytes) (ttl now : ℕ) : CachedValue := ⟨body, now, now + ttl⟩

def buildCachedDns (response : Bytes) (ttl now : ℕ) : CachedValue := buildCached response ttl now

def buildCachedNavidrome (body : Bytes) (ttl now : ℕ) : CachedValue := buildCached body ttl now

end Pingola
