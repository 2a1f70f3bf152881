import Pingola.Cache.Core
import Pingola.Lib.Runs

/-!
# Sequential correctness of the cache

One call after another keeps the map, the order and the counters in step, and a hit returns
the value of the most recent accepted insert under exactly its key.
-/

namespace Pingola
open ByteText

namespace PingolaCache

/-! ### Accounting -/

def namespaceCount (n : CacheNamespace) (e : StoredEntry) : ℕ := if e.cacheNamespace = n then 1 else 0

def namespaceWeight (n : CacheNamespace) (e : StoredEntry) : ℕ :=
  if e.cacheNamespace = n then e.weight else 0

/-- The counters of `c` are, as machine words, the totals of the table `t`. -/
structure Accounts (c : PingolaCache) (t : Table UInt64 StoredEntry) : Prop where
  bytesUsed : c.bytesUsed = UInt64.ofNat (t.total StoredEntry.weight)
  entries : ∀ n, c.entriesCounter n = UInt64.ofNat (t.total (namespaceCount n))
  bytes : ∀ n, c.bytesCounter n = UInt64.ofNat (t.total (namespaceWeight n))

section AccountLemmas

variable (c : PingolaCache) (n m : CacheNamespace) (w : ℕ)

@[simp] lemma accountInsert_bytesUsed :
    (c.accountInsert n w).bytesUsed = c.bytesUsed + UInt64.ofNat w := by
  cases n <;> rfl

@[simp] lemma accountInsert_entriesCounter :
    (c.accountInsert n w).entriesCounter m = c.entriesCounter m + if n = m then 1 else 0 := by
  cases n <;> cases m <;> simp [accountInsert, entriesCounter]

@[simp] lemma accountInsert_bytesCounter :
    (c.accountInsert n w).bytesCounter m = c.bytesCounter m + if n = m then UInt64.ofNat w else 0 := by
  cases n <;> cases m <;> simp [accountInsert, bytesCounter]

@[simp] lemma accountInsert_data : (c.accountInsert n w).data = c.data := by
  cases n <;> rfl

@[simp] lemma accountInsert_order : (c.accountInsert n w).order = c.order := by
  cases n <;> rfl

@[simp] lemma accountInsert_memoryLimit : (c.accountInsert n w).memoryLimit = c.memoryLimit := by
  cases n <;> rfl

@[simp] lemma accountInsert_enabled : (c.accountInsert n w).enabled = c.enabled := by
  cases n <;> rfl

@[simp] lemma accountRemove_bytesUsed :
    (c.accountRemove n w).bytesUsed = c.bytesUsed - UInt64.ofNat w := by
  cases n <;> rfl

@[simp] lemma accountRemove_entriesCounter :
    (c.accountRemove n w).entriesCounter m = c.entriesCounter m - if n = m then 1 else 0 := by
  cases n <;> cases m <;> simp [accountRemove, entriesCounter]

@[simp] lemma accountRemove_bytesCounter :
    (c.accountRemove n w).bytesCounter m = c.bytesCounter m - if n = m then UInt64.ofNat w else 0 := by
  cases n <;> cases m <;> simp [accountRemove, bytesCounter]

@[simp] lemma accountRemove_data : (c.accountRemove n w).data = c.data := by
  cases n <;> rfl

@[simp] lemma accountRemove_order : (c.accountRemove n w).order = c.order := by
  cases n <;> rfl

@[simp] lemma accountRemove_memoryLimit : (c.accountRemove n w).memoryLimit = c.memoryLimit := by
  cases n <;> rfl

@[simp] lemma accountRemove_enabled : (c.accountRemove n w).enabled = c.enabled := by
  cases n <;> rfl

end AccountLemmas

variable {c : PingolaCache} {t : Table UInt64 StoredEntry} {k : UInt64} {e : StoredEntry}

lemma ofNat_namespaceCount (n : CacheNamespace) (e : StoredEntry) :
    UInt64.ofNat (namespaceCount n e) = if e.cacheNamespace = n then 1 else 0 := by
  unfold namespaceCount
  split_ifs <;> rfl

lemma ofNat_namespaceWeight (n : CacheNamespace) (e : StoredEntry) :
    UInt64.ofNat (namespaceWeight n e) = if e.cacheNamespace = n then UInt64.ofNat e.weight else 0 := by
  unfold namespaceWeight
  split_ifs <;> rfl

lemma Accounts.insert (h : Accounts c (t.erase k)) :
    Accounts (c.accountInsert e.cacheNamespace e.weight) (t.insert k e) where
  bytesUsed := by
    rw [accountInsert_bytesUsed, h.bytesUsed, Table.total_insert, UInt64.ofNat_add, UInt64.add_comm]
  entries n := by
    rw [accountInsert_entriesCounter, h.entries, Table.total_insert, UInt64.ofNat_add,
      ofNat_namespaceCount, UInt64.add_comm]
  bytes n := by
    rw [accountInsert_bytesCounter, h.bytes, Table.total_insert, UInt64.ofNat_add,
      ofNat_namespaceWeight, UInt64.add_comm]

lemma Accounts.remove (h : Accounts c t) (hk : t.lookup k = some e) :
    Accounts (c.accountRemove e.cacheNamespace e.weight) (t.erase k) where
  bytesUsed := by
    rw [accountRemove_bytesUsed, h.bytesUsed, Table.total_erase_add _ hk, UInt64.ofNat_add,
      UInt64.add_comm, UInt64.add_sub_cancel]
  entries n := by
    rw [accountRemove_entriesCounter, h.entries, Table.total_erase_add _ hk, UInt64.ofNat_add,
      ofNat_namespaceCount, UInt64.add_comm, UInt64.add_sub_cancel]
  bytes n := by
    rw [accountRemove_bytesCounter, h.bytes, Table.total_erase_add _ hk, UInt64.ofNat_add,
      ofNat_namespaceWeight, UInt64.add_comm, UInt64.add_sub_cancel]

/-- The accounting reads the counters only. -/
lemma Accounts.withTables (h : Accounts c t) (d : Table UInt64 StoredEntry) (o : Lru) :
    Accounts { c with data := d, order := o } t :=
  ⟨h.bytesUsed, h.entries, h.bytes⟩

/-! ### The steps of a call -/

section StepLemmas

variable (c : PingolaCache) (k : UInt64) (e : StoredEntry)

@[simp] lemma dataInsert_data : (c.dataInsert k e).data = c.data.insert k e := by
  unfold dataInsert
  split <;> simp

@[simp] lemma dataInsert_order : (c.dataInsert k e).order = c.order := by
  unfold dataInsert
  split <;> simp

@[simp] lemma dataInsert_memoryLimit : (c.dataInsert k e).memoryLimit = c.memoryLimit := by
  unfold dataInsert
  split <;> simp

@[simp] lemma dataInsert_enabled : (c.dataInsert k e).enabled = c.enabled := by
  unfold dataInsert
  split <;> simp

lemma lookup_dataRemove (l : UInt64) :
    (c.dataRemove k).data.lookup l = if l = k then none else c.data.lookup l := by
  unfold dataRemove
  split
  · rw [accountRemove_data]
    split_ifs with hl
    · rw [hl, AList.lookup_erase]
    · exact AList.lookup_erase_ne hl
  · rename_i hnone
    split_ifs with hl
    · rw [hl, hnone]
    · rfl

@[simp] lemma dataRemove_order : (c.dataRemove k).order = c.order := by
  unfold dataRemove
  split <;> simp

@[simp] lemma dataRemove_memoryLimit : (c.dataRemove k).memoryLimit = c.memoryLimit := by
  unfold dataRemove
  split <;> simp

@[simp] lemma dataRemove_enabled : (c.dataRemove k).enabled = c.enabled := by
  unfold dataRemove
  split <;> simp

end StepLemmas

lemma accounts_dataInsert (h : Accounts c c.data) : Accounts (c.dataInsert k e) (c.data.erase k) := by
  unfold dataInsert
  split
  · rename_i old hold
    exact (h.withTables _ c.order).remove hold
  · rename_i hnone
    refine ⟨?_, fun n => ?_, fun n => ?_⟩ <;> rw [Table.total_erase_of_none _ hnone]
    · exact h.bytesUsed
    · exact h.entries n
    · exact h.bytes n

lemma accounts_dataRemove (h : Accounts c c.data) : Accounts (c.dataRemove k) (c.dataRemove k).data := by
  unfold dataRemove
  split
  · rename_i e he
    rw [accountRemove_data]
    exact (h.withTables _ c.order).remove he
  · exact h

/-- What the removal of the victims of an eviction leaves. -/
lemma foldl_dataRemove (ks : List UInt64) (c : PingolaCache) :
    (∀ l, (ks.foldl dataRemove c).data.lookup l = if l ∈ ks then none else c.data.lookup l) ∧
    (ks.foldl dataRemove c).order = c.order ∧ (ks.foldl dataRemove c).memoryLimit = c.memoryLimit ∧
    (ks.foldl dataRemove c).enabled = c.enabled := by
  induction ks generalizing c with
  | nil => simp
  | cons k ks ih =>
    obtain ⟨hlook, hord, hlim, hen⟩ := ih (c.dataRemove k)
    refine ⟨fun l => ?_, by simpa using hord, by simpa using hlim, by simpa using hen⟩
    rw [List.foldl_cons, hlook, lookup_dataRemove]
    by_cases hk : l = k <;> by_cases hks : l ∈ ks <;> simp [hk, hks]

lemma accounts_foldl_dataRemove (ks : List UInt64) (h : Accounts c c.data) :
    Accounts (ks.foldl dataRemove c) (ks.foldl dataRemove c).data := by
  induction ks generalizing c with
  | nil => exact h
  | cons k ks ih => exact ih (accounts_dataRemove h)

end PingolaCache

namespace Lru

variable {o o' : Lru} {k : UInt64}

lemma within_iff : o.within = true ↔ o.weight ≤ o.weightLimit ∧ o.len ≤ o.lenWatermark := by
  simp [within]

lemma len_eq_total (o : Lru) : o.len = o.weights.total fun _ => 1 := (Table.total_one _).symm

lemma within_remove (h : o.within = true) : (o.remove k).within = true := by
  rw [within_iff, len_eq_total] at h ⊢
  exact ⟨(Table.total_erase_le _ _ _).trans h.1, (Table.total_erase_le _ _ _).trans h.2⟩

/-- The outcome of an eviction: the victims are gone, the rest is as before and within the
limits. -/
lemma evictToLimit_eq_some {ks : List UInt64} (h : o.evictToLimit ks = some o') :
    o'.within = true ∧ o'.weightLimit = o.weightLimit ∧ o'.lenWatermark = o.lenWatermark ∧
      ∀ l, o'.weights.lookup l = if l ∈ ks then none else o.weights.lookup l := by
  induction ks generalizing o with
  | nil =>
    simp only [evictToLimit, Option.ite_none_right_eq_some, Option.some.injEq] at h
    obtain ⟨hw, rfl⟩ := h
    simp [hw]
  | cons k ks ih =>
    simp only [evictToLimit] at h
    split_ifs at h with hw hmem
    obtain ⟨hwithin, hlimit, hmark, hlook⟩ := ih h
    refine ⟨hwithin, hlimit, hmark, fun l => ?_⟩
    rw [hlook]
    by_cases hk : l = k
    · subst hk
      simp [remove]
    · simp [remove, hk, AList.lookup_erase_ne hk]

end Lru

/-! ### The invariant -/

namespace PingolaCache

/-- Counters, map and order of a cache agree and stay within the limits. -/
structure Coherent (c : PingolaCache) : Prop where
  accounts : c.Accounts c.data
  mirror : ∀ k, c.order.weights.lookup k = (c.data.lookup k).map StoredEntry.weight
  within : c.order.within = true
  limit : c.order.weightLimit = c.memoryLimit
  watermark : c.order.lenWatermark ≤ c.memoryLimit
  word : c.memoryLimit < 2 ^ 64

variable {c c' : PingolaCache}

lemma coherent_new (enabled : Bool) {memoryBytes : ℕ} (h : memoryBytes < 2 ^ 64) :
    Coherent (new enabled memoryBytes) where
  accounts := ⟨rfl, fun n => by cases n <;> rfl, fun n => by cases n <;> rfl⟩
  mirror _ := rfl
  within := by simp [new, Lru.within_iff, Lru.weight, Lru.len]
  limit := rfl
  watermark := by
    simp only [new, lruShards, minEstimatedEntryBytes]
    omega
  word := by
    simp only [new, lruShards, minEstimatedEntryBytes]
    omega

lemma Coherent.removeStorageKey (h : Coherent c) (k : UInt64) : Coherent (c.removeStorageKey k).2 := by
  unfold PingolaCache.removeStorageKey
  split
  · exact h
  · refine ⟨(accounts_dataRemove h.accounts).withTables _ _, fun l => ?_, ?_, ?_, ?_, ?_⟩
    · simp only [dataRemove_order, lookup_dataRemove, Lru.remove]
      by_cases hl : l = k
      · subst hl
        simp
      · rw [if_neg hl, AList.lookup_erase_ne hl, h.mirror]
    · simpa using Lru.within_remove h.within
    · simpa [Lru.remove] using h.limit
    · simpa [Lru.remove] using h.watermark
    · simpa using h.word

lemma Coherent.purgeKeys (h : Coherent c) (ks : List UInt64) : Coherent (c.purgeKeys ks).2 := by
  induction ks generalizing c with
  | nil => exact h
  | cons k ks ih => exact ih (h.removeStorageKey k)

/-- What a call of `insert` does: nothing, or it stores the entry and evicts the victims. -/
lemma insert_eq_some {key : CacheKey UInt64} {v : CachedValue} {victims : List UInt64} {r : Bool}
    (h : c.insert key v victims = some (r, c')) :
    (r = false ∧ c' = c ∧ (c.enabled = false ∨ c.memoryLimit < v.estimatedWeight)) ∨
    (r = true ∧ c.enabled = true ∧ v.estimatedWeight ≤ c.memoryLimit ∧ ∃ order,
      (c.admitEntry key.storageKey ⟨key.cacheNamespace, v, v.estimatedWeight⟩).order.evictToLimit victims =
        some order ∧
      c' = victims.foldl dataRemove
        { c.admitEntry key.storageKey ⟨key.cacheNamespace, v, v.estimatedWeight⟩ with order := order }) := by
  unfold PingolaCache.insert at h
  split_ifs at h with hen hlim
  · obtain ⟨rfl, rfl⟩ := Prod.mk.inj (Option.some.inj h)
    exact .inl ⟨rfl, rfl, .inl (by simpa using hen)⟩
  · obtain ⟨rfl, rfl⟩ := Prod.mk.inj (Option.some.inj h)
    exact .inl ⟨rfl, rfl, .inr hlim⟩
  · obtain ⟨order, hevict, hc'⟩ := Option.map_eq_some_iff.mp h
    obtain ⟨rfl, rfl⟩ := Prod.mk.inj hc'
    exact .inr ⟨rfl, by simpa using hen, by omega, order, hevict, rfl⟩

lemma lookup_admitEntry (c : PingolaCache) (k l : UInt64) (e : StoredEntry) :
    (c.admitEntry k e).data.lookup l = if l = k then some e else c.data.lookup l := by
  simp only [admitEntry, accountInsert_data, dataInsert_data]
  split_ifs with hl
  · subst hl
    exact AList.lookup_insert _
  · exact AList.lookup_insert_ne hl

lemma lookup_order_admitEntry (c : PingolaCache) (k l : UInt64) (e : StoredEntry) :
    (c.admitEntry k e).order.weights.lookup l =
      if l = k then some e.weight else c.order.weights.lookup l := by
  simp only [admitEntry, Lru.admitKey, accountInsert_order, dataInsert_order]
  split_ifs with hl
  · subst hl
    exact AList.lookup_insert _
  · exact AList.lookup_insert_ne hl

lemma accounts_admitEntry {k : UInt64} {e : StoredEntry} (h : c.Accounts c.data) :
    (c.admitEntry k e).Accounts (c.admitEntry k e).data := by
  have hacc := (accounts_dataInsert (k := k) (e := e) h).insert (e := e)
  simp only [admitEntry, accountInsert_data, dataInsert_data]
  exact hacc.withTables _ _

lemma Coherent.insert (h : Coherent c) {key : CacheKey UInt64} {v : CachedValue} {victims : List UInt64}
    {r : Bool} (hins : c.insert key v victims = some (r, c')) : Coherent c' := by
  obtain ⟨-, rfl, -⟩ | ⟨-, -, hlim, order, hevict, rfl⟩ := insert_eq_some hins
  · exact h
  · set e : StoredEntry := ⟨key.cacheNamespace, v, v.estimatedWeight⟩
    obtain ⟨hwithin, hlimit, hmark, hlook⟩ := Lru.evictToLimit_eq_some hevict
    have hacc := accounts_foldl_dataRemove victims
      ((accounts_admitEntry (k := key.storageKey) (e := e) h.accounts).withTables
        (c.admitEntry key.storageKey e).data order)
    obtain ⟨hdata, hord, hmem, -⟩ := foldl_dataRemove victims
      { c.admitEntry key.storageKey e with order := order }
    have hlim' : (c.admitEntry key.storageKey e).memoryLimit = c.memoryLimit := by simp [admitEntry]
    have hord' : (c.admitEntry key.storageKey e).order.weightLimit = c.order.weightLimit ∧
        (c.admitEntry key.storageKey e).order.lenWatermark = c.order.lenWatermark := by
      simp [admitEntry, Lru.admitKey]
    refine ⟨hacc, fun l => ?_, ?_, ?_, ?_, ?_⟩
    · rw [hord, hdata, hlook, lookup_order_admitEntry, lookup_admitEntry, h.mirror]
      split_ifs <;> rfl
    · rw [hord, hwithin]
    · rw [hord, hmem, hlimit, hord'.1, h.limit, hlim']
    · rw [hord, hmem, hmark, hord'.2, hlim']
      exact h.watermark
    · rw [hmem, hlim']
      exact h.word

/-- Some choice of victims is an outcome of every eviction. -/
lemma exists_evictToLimit (o : Lru) : ∃ victims o', o.evictToLimit victims = some o' := by
  induction hn : o.len using Nat.strong_induction_on generalizing o with
  | _ n ih =>
    by_cases hw : o.within = true
    · exact ⟨[], o, by simp [Lru.evictToLimit, hw]⟩
    · cases hent : o.weights.entries with
      | nil =>
        exact absurd (Lru.within_iff.mpr (by simp [Lru.weight, Lru.len, Table.total, hent])) hw
      | cons e es =>
        have hmem : e.1 ∈ o.weights := by
          rw [AList.mem_keys, AList.keys, hent]
          simp
        obtain ⟨v, hv⟩ := Option.isSome_iff_exists.mp (AList.lookup_isSome.mpr hmem)
        have hlen : (o.remove e.1).len < n := by
          have htotal := Table.total_erase_add (fun _ => 1) hv
          rw [← hn, Lru.len_eq_total, Lru.len_eq_total, htotal]
          exact Nat.lt_one_add_iff.mpr le_rfl
        obtain ⟨victims, o', hevict⟩ := ih _ hlen (o.remove e.1) rfl
        exact ⟨e.1 :: victims, o', by simp [Lru.evictToLimit, hw, hmem, hevict]⟩

/-! ### Runs -/

inductive CacheOp where
  | insert (key : CacheKey UInt64) (value : CachedValue) (victims : List UInt64)
  | lookup (key : CacheKey UInt64) (now : ℕ)
  | remove (key : CacheKey UInt64)
  | purgeNamespace (n : CacheNamespace)

def step (c : PingolaCache) : CacheOp → Option PingolaCache
  | .insert key value victims => (c.insert key value victims).map Prod.snd
  | .lookup key now => some (c.lookup key now).2
  | .remove key => some (c.remove key)
  | .purgeNamespace n => some (c.purgeNamespace n).2

/-- The values of the accepted inserts, as one more call changes them. -/
def remember (memoryLimit : ℕ) (values : CacheKey UInt64 → Option CachedValue) :
    CacheOp → CacheKey UInt64 → Option CachedValue
  | .insert key value _ =>
    if memoryLimit < value.estimatedWeight then values else Function.update values key (some value)
  | .lookup _ _ => values
  | .remove key => Function.update values key none
  | .purgeNamespace n => fun key => if key.cacheNamespace = n then none else values key

/-- The value of the most recent accepted insert under each key, unless it was removed or purged
since. -/
def latestInsert (memoryLimit : ℕ) (ops : List CacheOp) : CacheKey UInt64 → Option CachedValue :=
  ops.foldl (remember memoryLimit) fun _ => none

lemma latestInsert_append (memoryLimit : ℕ) (ops : List CacheOp) (op : CacheOp) :
    latestInsert memoryLimit (ops ++ [op]) = remember memoryLimit (latestInsert memoryLimit ops) op := by
  simp [latestInsert]

lemma lookup_removeStorageKey (c : PingolaCache) (k l : UInt64) :
    (c.removeStorageKey k).2.data.lookup l = if l = k then none else c.data.lookup l := by
  unfold removeStorageKey
  split
  · rename_i hnone
    split_ifs with hl
    · rw [hl, hnone]
    · rfl
  · exact lookup_dataRemove c k l

lemma removeStorageKey_memoryLimit (c : PingolaCache) (k : UInt64) :
    (c.removeStorageKey k).2.memoryLimit = c.memoryLimit := by
  unfold removeStorageKey
  split <;> simp

lemma removeStorageKey_enabled (c : PingolaCache) (k : UInt64) :
    (c.removeStorageKey k).2.enabled = c.enabled := by
  unfold removeStorageKey
  split <;> simp

lemma lookup_purgeKeys (ks : List UInt64) (c : PingolaCache) :
    (∀ l, (c.purgeKeys ks).2.data.lookup l = if l ∈ ks then none else c.data.lookup l) ∧
      (c.purgeKeys ks).2.memoryLimit = c.memoryLimit ∧ (c.purgeKeys ks).2.enabled = c.enabled := by
  induction ks generalizing c with
  | nil => simp [purgeKeys]
  | cons k ks ih =>
    obtain ⟨hlook, hlim, hen⟩ := ih (c.removeStorageKey k).2
    refine ⟨fun l => ?_, hlim.trans (removeStorageKey_memoryLimit c k),
      hen.trans (removeStorageKey_enabled c k)⟩
    simp only [purgeKeys, hlook, lookup_removeStorageKey]
    by_cases hk : l = k <;> by_cases hks : l ∈ ks <;> simp [hk, hks]

/-- Every resident entry holds the latest value accepted under its key. -/
def Remembers (past : List CacheOp) (c : PingolaCache) : Prop :=
  ∀ key e, c.data.lookup key.storageKey = some e → e.cacheNamespace = key.cacheNamespace →
    latestInsert c.memoryLimit past key = some e.value

lemma insert_data {key : CacheKey UInt64} {v : CachedValue} {victims : List UInt64} {r : Bool}
    (h : c.insert key v victims = some (r, c')) :
    c'.memoryLimit = c.memoryLimit ∧ c'.enabled = c.enabled ∧
      ((r = false ∧ c' = c ∧ (c.enabled = false ∨ c.memoryLimit < v.estimatedWeight)) ∨
        r = true ∧ v.estimatedWeight ≤ c.memoryLimit ∧ ∀ l, c'.data.lookup l = if l ∈ victims then none
          else if l = key.storageKey then some ⟨key.cacheNamespace, v, v.estimatedWeight⟩
          else c.data.lookup l) := by
  obtain ⟨hr, rfl, hwhy⟩ | ⟨hr, -, hlim, order, hevict, rfl⟩ := insert_eq_some h
  · exact ⟨rfl, rfl, .inl ⟨hr, rfl, hwhy⟩⟩
  · obtain ⟨hdata, -, hmem, hen⟩ := foldl_dataRemove victims
      { c.admitEntry key.storageKey ⟨key.cacheNamespace, v, v.estimatedWeight⟩ with order := order }
    refine ⟨hmem.trans (by simp [admitEntry]), hen.trans (by simp [admitEntry]), .inr ⟨hr, hlim, fun l => ?_⟩⟩
    rw [hdata, lookup_admitEntry]

lemma lookup_snd (c : PingolaCache) (key : CacheKey UInt64) (now : ℕ) :
    (c.lookup key now).2 = c ∨ (c.lookup key now).2 = c.remove key := by
  unfold PingolaCache.lookup
  split_ifs
  · exact .inl rfl
  · split
    · exact .inl rfl
    · split_ifs
      · exact .inl rfl
      · exact .inl rfl
      · exact .inr rfl

/-- Entries that stay and whose latest accepted value stays are still remembered. -/
lemma Remembers.keep {past past' : List CacheOp} (h : Remembers past c) (hlim : c'.memoryLimit = c.memoryLimit)
    (hkeep : ∀ key e, c'.data.lookup key.storageKey = some e → e.cacheNamespace = key.cacheNamespace →
      c.data.lookup key.storageKey = some e ∧
        latestInsert c.memoryLimit past' key = latestInsert c.memoryLimit past key) :
    Remembers past' c' := by
  intro key e hk hn
  obtain ⟨hold, hlatest⟩ := hkeep key e hk hn
  rw [hlim, hlatest]
  exact h key e hold hn

lemma Remembers.insert {past : List CacheOp} {key : CacheKey UInt64} {v : CachedValue} {victims : List UInt64}
    {r : Bool} (h : Remembers past c) (hen : c.enabled = true) (hins : c.insert key v victims = some (r, c')) :
    Remembers (past ++ [.insert key v victims]) c' := by
  obtain ⟨hlim, -, ⟨-, rfl, hwhy⟩ | ⟨-, hfits, hdata⟩⟩ := insert_data hins
  · have hbig : c'.memoryLimit < v.estimatedWeight := by simpa [hen] using hwhy
    refine h.keep rfl fun k e hk hn => ⟨hk, ?_⟩
    simp only [latestInsert_append, remember, hbig, if_true]
  · intro k e hk hn
    rw [latestInsert_append]
    simp only [remember, hlim, Nat.not_lt.mpr hfits, if_false]
    rw [hdata] at hk
    split_ifs at hk with hv hkey
    · -- the key of the entry is the key of the insert: both have its namespace
      obtain rfl := Option.some.inj hk
      obtain rfl := CacheKey.storageKey_inj hn.symm hkey
      simp
    · have hne : k ≠ key := fun he => hkey (by rw [he])
      rw [Function.update_of_ne hne]
      exact h k e hk hn

lemma Remembers.remove {past : List CacheOp} (h : Remembers past c) (key : CacheKey UInt64) {past' : List CacheOp}
    (hpast : ∀ k, k ≠ key → latestInsert c.memoryLimit past' k = latestInsert c.memoryLimit past k) :
    Remembers past' (c.remove key) := by
  refine h.keep (removeStorageKey_memoryLimit c _) fun k e hk hn => ?_
  rw [PingolaCache.remove, lookup_removeStorageKey] at hk
  split_ifs at hk with hkey
  exact ⟨hk, hpast k fun he => hkey (by rw [he])⟩

lemma Remembers.purgeNamespace {past : List CacheOp} (h : Remembers past c) (n : CacheNamespace) :
    Remembers (past ++ [.purgeNamespace n]) (c.purgeNamespace n).2 := by
  obtain ⟨hdata, hlim, -⟩ :=
    lookup_purgeKeys ((c.data.entries.filter fun e => e.2.cacheNamespace = n).map Sigma.fst) c
  refine h.keep hlim fun k e hk hn => ?_
  rw [PingolaCache.purgeNamespace, hdata] at hk
  split_ifs at hk with hkey
  have hne : k.cacheNamespace ≠ n := by
    intro hkn
    have hmem := AList.mem_lookup_iff.mp hk
    exact hkey (List.mem_map.mpr ⟨_, List.mem_filter.mpr ⟨hmem, by simp [hn, hkn]⟩, rfl⟩)
  refine ⟨hk, ?_⟩
  simp only [latestInsert_append, remember, hne, if_false]

/-- One call keeps the invariant, and resident entries keep holding the latest values. -/
lemma step_sound {past : List CacheOp} {op : CacheOp} (h : c.step op = some c')
    (hc : Coherent c ∧ c.enabled = true ∧ Remembers past c) :
    Coherent c' ∧ c'.enabled = true ∧ Remembers (past ++ [op]) c' := by
  obtain ⟨hcoh, hen, hrem⟩ := hc
  have hremoved := fun key : CacheKey UInt64 => (removeStorageKey_enabled c key.storageKey).trans hen
  cases op with
  | insert key v victims =>
    obtain ⟨⟨r, c''⟩, hins, rfl⟩ := Option.map_eq_some_iff.mp h
    exact ⟨hcoh.insert hins, (insert_data hins).2.1.trans hen, hrem.insert hen hins⟩
  | lookup key now =>
    obtain rfl := Option.some.inj h
    have hsame : latestInsert c.memoryLimit (past ++ [.lookup key now]) = latestInsert c.memoryLimit past :=
      latestInsert_append _ _ _
    rcases lookup_snd c key now with he | he <;> rw [he]
    · exact ⟨hcoh, hen, hrem.keep rfl fun k e hk hn => ⟨hk, by rw [hsame]⟩⟩
    · exact ⟨hcoh.removeStorageKey _, hremoved key, hrem.remove key fun k _ => by rw [hsame]⟩
  | remove key =>
    obtain rfl := Option.some.inj h
    refine ⟨hcoh.removeStorageKey _, hremoved key, hrem.remove key fun k hne => ?_⟩
    rw [latestInsert_append, remember, Function.update_of_ne hne]
  | purgeNamespace n =>
    obtain rfl := Option.some.inj h
    exact ⟨hcoh.purgeKeys _, (lookup_purgeKeys _ c).2.2.trans hen, hrem.purgeNamespace n⟩

/-- The counters are the exact counts and sums over the resident entries, these fit the budget,
and the order holds exactly the resident keys. -/
structure InStep (c : PingolaCache) : Prop where
  bytesUsed : c.bytesUsed.toNat = c.data.total StoredEntry.weight
  budget : c.data.total StoredEntry.weight ≤ c.memoryLimit
  entries : ∀ n, (c.entriesCounter n).toNat = c.data.total (namespaceCount n)
  bytes : ∀ n, (c.bytesCounter n).toNat = c.data.total (namespaceWeight n)
  sameKeys : ∀ k, k ∈ c.order.weights ↔ k ∈ c.data

lemma Coherent.inStep (h : Coherent c) : InStep c := by
  have hwithin := Lru.within_iff.mp h.within
  have hweight : c.data.total StoredEntry.weight = c.order.weight :=
    (Table.total_congr fun k => by rw [h.mirror, Option.map_id]; rfl).symm
  have hlen : c.data.total (fun _ => 1) = c.order.len := by
    rw [Lru.len_eq_total]
    exact (Table.total_congr fun k => by rw [h.mirror, Option.map_map]; rfl).symm
  have hword : ∀ n, n ≤ c.memoryLimit → (UInt64.ofNat n).toNat = n :=
    fun n hn => UInt64.toNat_ofNat_of_lt' (hn.trans_lt h.word)
  have hbudget : c.data.total StoredEntry.weight ≤ c.memoryLimit := by
    rw [hweight, ← h.limit]
    exact hwithin.1
  have hcount : ∀ n, c.data.total (namespaceCount n) ≤ c.memoryLimit := fun n => by
    have hle := Table.total_mono (g := fun _ => 1)
      (fun e : StoredEntry => by unfold namespaceCount; split_ifs <;> simp) c.data (f := namespaceCount n)
    have hmark := h.watermark
    omega
  have hbytes : ∀ n, c.data.total (namespaceWeight n) ≤ c.memoryLimit := fun n =>
    (Table.total_mono (fun e => by unfold namespaceWeight; split_ifs <;> simp) c.data).trans hbudget
  refine ⟨?_, hbudget, fun n => ?_, fun n => ?_, fun k => ?_⟩
  · rw [h.accounts.bytesUsed, hword _ hbudget]
  · rw [h.accounts.entries, hword _ (hcount n)]
  · rw [h.accounts.bytes, hword _ (hbytes n)]
  · rw [← AList.lookup_isSome, ← AList.lookup_isSome, h.mirror, Option.isSome_map]

lemma lookup_eq_hit {key : CacheKey UInt64} {now : ℕ} {v : CachedValue}
    (h : (c.lookup key now).1 = .hit v) :
    ∃ e, c.data.lookup key.storageKey = some e ∧ e.cacheNamespace = key.cacheNamespace ∧ e.value = v ∧
      now < v.freshUntil := by
  unfold PingolaCache.lookup at h
  split_ifs at h
  split at h
  · simp at h
  · rename_i e he
    split_ifs at h with hn hfresh
    obtain rfl := CacheLookup.hit.inj h
    exact ⟨e, he, not_not.mp hn, rfl, by simpa [CachedValue.isFresh] using hfresh⟩

lemma run_sound {memoryBytes : ℕ} (hmem : memoryBytes < 2 ^ 64) {ops : List CacheOp}
    (h : Runs.Run (fun c op c' => step c op = some c') (new true memoryBytes) ops c) :
    Coherent c ∧ c.enabled = true ∧ Remembers ops c := by
  refine h.invariant (fun past c => Coherent c ∧ c.enabled = true ∧ Remembers past c)
    (fun past s op t hst hs => step_sound hst hs) ⟨coherent_new true hmem, rfl, ?_⟩
  intro key e hk
  simp [new] at hk

/-- After any sequence of calls on an enabled cache the counters and the order are in step with
the map, and a hit is for the latest accepted insert under its key, which is still fresh. -/
theorem pingolaCache_sequentially_correct {memoryBytes : ℕ} (hmem : memoryBytes < 2 ^ 64)
    {ops : List CacheOp}
    (h : Runs.Run (fun c op c' => step c op = some c') (new true memoryBytes) ops c) :
    InStep c ∧ ∀ key now v, (c.lookup key now).1 = .hit v →
      latestInsert c.memoryLimit ops key = some v ∧ now < v.freshUntil := by
  obtain ⟨hcoh, -, hrem⟩ := run_sound hmem h
  refine ⟨hcoh.inStep, fun key now v hhit => ?_⟩
  obtain ⟨e, he, hn, rfl, hfresh⟩ := lookup_eq_hit hhit
  exact ⟨hrem key e he hn, hfresh⟩

/-- A value whose weight exceeds the smallest budget, and one that fits it. -/
def oversizedValue : CachedValue := ⟨List.replicate 4096 0, 0, 10⟩

def smallValue : CachedValue := ⟨ascii "answer", 0, 10⟩

def sampleKey : CacheKey UInt64 := ⟨.dns, 42⟩

/-- The cache after one insert of the small value. -/
def sampleCache : PingolaCache := (new true 0).admitEntry sampleKey.storageKey ⟨.dns, smallValue, 134⟩

lemma length_oversizedValue : oversizedValue.body.length = 4096 := List.length_replicate

lemma insert_smallValue : step (new true 0) (.insert sampleKey smallValue []) = some sampleCache := rfl

lemma insert_oversizedValue : step sampleCache (.insert sampleKey oversizedValue []) = some sampleCache := by
  have hbig : sampleCache.memoryLimit < oversizedValue.estimatedWeight := by
    rw [CachedValue.estimatedWeight, length_oversizedValue]
    decide
  have hen : sampleCache.enabled = true := rfl
  simp [step, PingolaCache.insert, hen, hbig]

/-- A value of which the smallest budget holds two. -/
def bulkyValue (freshUntil : ℕ) : CachedValue := ⟨List.replicate 1500 0, 0, freshUntil⟩

/-- The small value is replaced, the last insert evicts the one before it, and its own value is found expired. -/
def sampleCalls : List CacheOp :=
  [.insert sampleKey smallValue [], .insert sampleKey (bulkyValue 20) [], .insert ⟨.dns, 43⟩ (bulkyValue 20) [],
    .insert ⟨.dns, 44⟩ (bulkyValue 5) [(⟨.dns, 43⟩ : CacheKey UInt64).storageKey], .lookup ⟨.dns, 44⟩ 5]

theorem pingolaCache_sequentially_correct_calls :
    ∃ c, Runs.exec step (new true 0) sampleCalls = some c ∧ c.data.keys = [sampleKey.storageKey] ∧
      (c.lookup sampleKey 5).1 = .hit (bulkyValue 20) ∧ InStep c ∧
      latestInsert c.memoryLimit sampleCalls sampleKey = some (bulkyValue 20) := by
  have hexec : (Runs.exec step (new true 0) sampleCalls).map (fun c => (c.data.keys, (c.lookup sampleKey 5).1)) =
      some ([sampleKey.storageKey], .hit (bulkyValue 20)) := by
    decide +kernel
  obtain ⟨c, hc, hview⟩ := Option.map_eq_some_iff.mp hexec
  obtain ⟨hkeys, hhit⟩ := Prod.mk.inj hview
  obtain ⟨hinStep, hlatest⟩ := pingolaCache_sequentially_correct (by decide) (Runs.run_of_exec hc)
  exact ⟨c, hc, hkeys, hhit, hinStep, (hlatest sampleKey 5 _ hhit).1⟩

/-- After a refused insert a lookup still hits, with the value of the insert before it. -/
theorem pingolaCache_hit_after_refused_insert :
    Runs.Run (fun c op c' => step c op = some c') (new true 0)
      [.insert sampleKey smallValue [], .insert sampleKey oversizedValue []] sampleCache ∧
    (sampleCache.lookup sampleKey 5).1 = .hit smallValue ∧ smallValue ≠ oversizedValue := by
  refine ⟨.cons insert_smallValue (.cons insert_oversizedValue .nil), by decide +kernel, fun h => ?_⟩
  have hlen := length_oversizedValue
  rw [← h] at hlen
  exact absurd hlen (by decide)

end PingolaCache

end Pingola
