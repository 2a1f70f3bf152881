import Pingola.Cache.Sequential

/-!
# Concurrent calls on the cache

Each call of `insert`, `lookup`, `remove` or `purge_namespace` is a sequence of phases, and one
phase is one access of the map, of the order or of the counters. Calls in progress are
interleaved phase by phase.
-/

namespace Pingola
open ByteText

/-- What a call does next. -/
inductive Phase where
  | dataInsert (k : UInt64) (e : StoredEntry)
  | replaceAccount (k : UInt64) (e old : StoredEntry)
  | insertAccount (k : UInt64) (e : StoredEntry)
  | orderAdmit (k : UInt64) (e : StoredEntry)
  | evictCheck (popped : List UInt64)
  | evictPop (popped : List UInt64)
  | evictData (popped : List UInt64)
  | evictAccount (e : StoredEntry) (popped : List UInt64)
  | dataGet (key : CacheKey UInt64) (now : ℕ)
  | dataRemove (keys : List UInt64)
  | removeAccount (k : UInt64) (e : StoredEntry) (keys : List UInt64)
  | orderRemove (k : UInt64) (keys : List UInt64)

/-- One phase: its effect on the cache and the phase after it. `victim` is the key an eviction
finds at the tail of the shard it looks at, if there is one. -/
def Phase.next (c : PingolaCache) (victim : Option UInt64) : Phase → PingolaCache × Option Phase
  | .dataInsert k e =>
    ({ c with data := c.data.insert k e },
      match c.data.lookup k with
      | some old => some (.replaceAccount k e old)
      | none => some (.insertAccount k e))
  | .replaceAccount k e old =>
    (c.accountRemove old.cacheNamespace old.weight, some (.insertAccount k e))
  | .insertAccount k e => (c.accountInsert e.cacheNamespace e.weight, some (.orderAdmit k e))
  | .orderAdmit k e => ({ c with order := c.order.admitKey k e.weight }, some (.evictCheck []))
  | .evictCheck popped => (c, some (if c.order.within then .evictData popped else .evictPop popped))
  | .evictPop popped =>
    match victim with
    | some k =>
      if k ∈ c.order.weights then
        ({ c with order := c.order.remove k }, some (.evictCheck (popped ++ [k])))
      else (c, some (.evictCheck popped))
    | none => (c, some (.evictCheck popped))
  | .evictData [] => (c, none)
  | .evictData (k :: popped) =>
    match c.data.lookup k with
    | some e => ({ c with data := c.data.erase k }, some (.evictAccount e popped))
    | none => (c, some (.evictData popped))
  | .evictAccount e popped => (c.accountRemove e.cacheNamespace e.weight, some (.evictData popped))
  | .dataGet key now =>
    match c.data.lookup key.storageKey with
    | none => (c, none)
    | some e =>
      if e.cacheNamespace ≠ key.cacheNamespace then (c, none)
      else if e.value.isFresh now then (c, none)
      else (c, some (.dataRemove [key.storageKey]))
  | .dataRemove [] => (c, none)
  | .dataRemove (k :: keys) =>
    match c.data.lookup k with
    | some e => ({ c with data := c.data.erase k }, some (.removeAccount k e keys))
    | none => (c, some (.dataRemove keys))
  | .removeAccount k e keys =>
    (c.accountRemove e.cacheNamespace e.weight, some (.orderRemove k keys))
  | .orderRemove k keys => ({ c with order := c.order.remove k }, some (.dataRemove keys))

/-- A call; a purge comes with the keys its iteration of the map collected. -/
inductive CacheCall where
  | insert (key : CacheKey UInt64) (value : CachedValue)
  | lookup (key : CacheKey UInt64) (now : ℕ)
  | remove (key : CacheKey UInt64)
  | purge (keys : List UInt64)

/-- The first phase of a call, if it does not return at once. -/
def CacheCall.start (c : PingolaCache) : CacheCall → Option Phase
  | .insert key value =>
    if !c.enabled || decide (c.memoryLimit < value.estimatedWeight) then none
    else some (.dataInsert key.storageKey ⟨key.cacheNamespace, value, value.estimatedWeight⟩)
  | .lookup key now => if !c.enabled then none else some (.dataGet key now)
  | .remove key => some (.dataRemove [key.storageKey])
  | .purge keys => some (.dataRemove keys)

/-- The cache and the calls in progress. -/
structure SharedCache where
  cache : PingolaCache
  calls : ℕ → Option Phase

inductive CacheEvent where
  | start (i : ℕ) (call : CacheCall)
  | advance (i : ℕ) (victim : Option UInt64)

namespace SharedCache

/-- Call `i` leaves the cache `c` and goes on with the phase `p`. -/
def proceed (s : SharedCache) (i : ℕ) (c : PingolaCache) (p : Option Phase) : SharedCache :=
  ⟨c, Function.update s.calls i p⟩

@[simp] lemma proceed_cache (s : SharedCache) (i : ℕ) (c : PingolaCache) (p : Option Phase) :
    (s.proceed i c p).cache = c := rfl

@[simp] lemma proceed_calls_self (s : SharedCache) (i : ℕ) (c : PingolaCache) (p : Option Phase) :
    (s.proceed i c p).calls i = p := by
  simp [proceed]

lemma proceed_calls_of_ne (s : SharedCache) {i j : ℕ} (h : j ≠ i) (c : PingolaCache)
    (p : Option Phase) : (s.proceed i c p).calls j = s.calls j := by
  simp [proceed, h]

def step (s : SharedCache) : CacheEvent → Option SharedCache
  | .start i call =>
    match s.calls i with
    | none => some (s.proceed i s.cache (call.start s.cache))
    | some _ => none
  | .advance i victim =>
    match s.calls i with
    | none => none
    | some p => some (s.proceed i (p.next s.cache victim).1 (p.next s.cache victim).2)

def init (c : PingolaCache) : SharedCache := ⟨c, fun _ => none⟩

/-- No call is in progress. -/
def Quiescent (s : SharedCache) : Prop := ∀ i, s.calls i = none

end SharedCache

/-- The entry a call has stored and not yet admitted to the order. -/
def Phase.aboutToAdmit : Phase → Option (UInt64 × StoredEntry)
  | .replaceAccount k e _ => some (k, e)
  | .insertAccount k e => some (k, e)
  | .orderAdmit k e => some (k, e)
  | _ => none

/-- The keys a call has taken from the order and not yet from the map. -/
def Phase.popped : Phase → List UInt64
  | .evictCheck ks => ks
  | .evictPop ks => ks
  | .evictData ks => ks
  | .evictAccount _ ks => ks
  | _ => []

def Phase.evicting : Phase → Bool
  | .evictCheck _ => true
  | .evictPop _ => true
  | _ => false

/-- Some call other than `i` is about to admit this entry, or some call is about to remove it. -/
def Unsettled (calls : ℕ → Option Phase) (i : ℕ) (k : UInt64) (e : StoredEntry) : Prop :=
  ∃ j ≠ i, ∃ p, calls j = some p ∧ (p.aboutToAdmit = some (k, e) ∨ k ∈ p.popped)

/-- The next phase of call `i` would give the order the weight of an entry that is no longer
resident, or take from it a key that is resident again, although the call that stored the
resident entry has admitted it. -/
def Disturbs (s : SharedCache) (i : ℕ) : Prop :=
  match s.calls i with
  | some (.orderAdmit k e) =>
    ∃ e', s.cache.data.lookup k = some e' ∧ e'.weight ≠ e.weight ∧ ¬Unsettled s.calls i k e'
  | some (.orderRemove k _) => ∃ e', s.cache.data.lookup k = some e' ∧ ¬Unsettled s.calls i k e'
  | _ => False

/-! ### What one phase does -/

/-- The call is about to admit this entry or to remove it from the map. -/
def Vouches (p : Option Phase) (k : UInt64) (e : StoredEntry) : Prop :=
  ∃ q, p = some q ∧ (q.aboutToAdmit = some (k, e) ∨ k ∈ q.popped)

@[simp] lemma vouches_some {q : Phase} {k : UInt64} {e : StoredEntry} :
    Vouches (some q) k e ↔ q.aboutToAdmit = some (k, e) ∨ k ∈ q.popped := by
  simp [Vouches]

@[simp] lemma not_vouches_none {k : UInt64} {e : StoredEntry} : ¬Vouches none k e := by
  simp [Vouches]

/-- Nothing changed for a resident entry, and the call still vouches for it if it did before. -/
def Kept (c c' : PingolaCache) (p p' : Option Phase) (k : UInt64) (e : StoredEntry) : Prop :=
  c.data.lookup k = some e ∧ c'.order.weights.lookup k = c.order.weights.lookup k ∧
    (Vouches p k e → Vouches p' k e)

/-- How an entry can be resident after a phase `p` of a call, which takes it to `p'`. -/
inductive Resident (c c' : PingolaCache) (p : Phase) (p' : Option Phase) (k : UInt64) (e : StoredEntry) : Prop
  | ordered (h : c'.order.weights.lookup k = some e.weight)
  | vouched (h : Vouches p' k e)
  | kept (h : Kept c c' (some p) p' k e)
  /-- The phase touched its place in the order only. -/
  | touched (h : c.data.lookup k = some e)
      (hp : (∃ e', p = .orderAdmit k e' ∧ e.weight ≠ e'.weight) ∨ ∃ keys, p = .orderRemove k keys)

lemma Phase.next_resident {c : PingolaCache} {victim : Option UInt64} {p : Phase} {k : UInt64}
    {e : StoredEntry} (h : (p.next c victim).1.data.lookup k = some e) :
    Resident c (p.next c victim).1 p (p.next c victim).2 k e := by
  cases p with
  | dataInsert l e' =>
    by_cases hk : k = l
    · subst hk
      simp only [next, AList.lookup_insert, Option.some.injEq] at h
      subst h
      refine .vouched ?_
      simp only [next]
      split <;> simp [aboutToAdmit]
    · simp only [next, AList.lookup_insert_ne hk] at h
      exact .kept ⟨h, rfl, by simp [aboutToAdmit, popped]⟩
  | replaceAccount l e' old =>
    simp only [next, PingolaCache.accountRemove_data] at h
    exact .kept ⟨h, by simp [next], by simp [next, aboutToAdmit, popped]⟩
  | insertAccount l e' =>
    simp only [next, PingolaCache.accountInsert_data] at h
    exact .kept ⟨h, by simp [next], by simp [next, aboutToAdmit, popped]⟩
  | orderAdmit l e' =>
    simp only [next] at h
    by_cases hk : k = l
    · subst hk
      by_cases hw : e.weight = e'.weight
      · exact .ordered (by simp [next, Lru.admitKey, hw])
      · exact .touched h (.inl ⟨e', rfl, hw⟩)
    · exact .kept ⟨h, AList.lookup_insert_ne hk, by simp [aboutToAdmit, popped, Ne.symm hk]⟩
  | evictCheck ks =>
    simp only [next] at h
    refine .kept ⟨h, rfl, ?_⟩
    simp only [next]
    split <;> simp [aboutToAdmit, popped]
  | evictPop ks =>
    cases victim with
    | none => exact .kept ⟨h, rfl, by simp [next, aboutToAdmit, popped]⟩
    | some l =>
      by_cases hl : l ∈ c.order.weights
      · simp only [next, hl, if_true] at h ⊢
        by_cases hk : k = l
        · exact .vouched (by simp [popped, hk])
        · refine .kept ⟨h, AList.lookup_erase_ne hk, ?_⟩
          simp only [vouches_some, aboutToAdmit, popped]
          simp +contextual
      · simp only [next, hl, if_false] at h ⊢
        exact .kept ⟨h, rfl, by simp [aboutToAdmit, popped]⟩
  | evictData ks =>
    cases ks with
    | nil => exact .kept ⟨h, rfl, by simp [aboutToAdmit, popped]⟩
    | cons l ks =>
      cases hl : c.data.lookup l with
      | none =>
        simp only [next, hl] at h ⊢
        have hk : k ≠ l := fun hk => by rw [hk, hl] at h; simp at h
        exact .kept ⟨h, rfl, by simp [aboutToAdmit, popped, hk]⟩
      | some e' =>
        simp only [next, hl] at h ⊢
        have hk : k ≠ l := fun hk => by subst hk; simp at h
        rw [AList.lookup_erase_ne hk] at h
        exact .kept ⟨h, rfl, by simp [aboutToAdmit, popped, hk]⟩
  | evictAccount e' ks =>
    simp only [next, PingolaCache.accountRemove_data] at h
    exact .kept ⟨h, by simp [next], by simp [next, aboutToAdmit, popped]⟩
  | dataGet key now =>
    have hc : (next c victim (.dataGet key now)).1 = c := by
      simp only [next]
      split
      · rfl
      · split_ifs <;> rfl
    rw [hc] at h
    exact .kept ⟨h, by rw [hc], by simp [aboutToAdmit, popped]⟩
  | dataRemove keys =>
    cases keys with
    | nil => exact .kept ⟨h, rfl, by simp [aboutToAdmit, popped]⟩
    | cons l keys =>
      cases hl : c.data.lookup l with
      | none =>
        simp only [next, hl] at h ⊢
        exact .kept ⟨h, rfl, by simp [aboutToAdmit, popped]⟩
      | some e' =>
        simp only [next, hl] at h ⊢
        have hk : k ≠ l := fun hk => by subst hk; simp at h
        rw [AList.lookup_erase_ne hk] at h
        exact .kept ⟨h, rfl, by simp [aboutToAdmit, popped]⟩
  | removeAccount l e' keys =>
    simp only [next, PingolaCache.accountRemove_data] at h
    exact .kept ⟨h, by simp [next], by simp [aboutToAdmit, popped]⟩
  | orderRemove l keys =>
    simp only [next] at h
    by_cases hk : k = l
    · subst hk
      exact .touched h (.inr ⟨keys, rfl⟩)
    · exact .kept ⟨h, AList.lookup_erase_ne hk, by simp [aboutToAdmit, popped]⟩

/-- After a phase the order is within its limits, or the call is still evicting, if that was so
before. -/
lemma Phase.next_within {c : PingolaCache} {victim : Option UInt64} {p : Phase}
    (h : c.order.within = true ∨ p.evicting = true) :
    (p.next c victim).1.order.within = true ∨ ∃ q, (p.next c victim).2 = some q ∧ q.evicting = true := by
  cases p with
  | dataInsert k e => exact .inl (by simpa [next, evicting] using h)
  | replaceAccount k e old => exact .inl (by simpa [next, evicting] using h)
  | insertAccount k e => exact .inl (by simpa [next, evicting] using h)
  | orderAdmit k e => exact .inr ⟨_, rfl, rfl⟩
  | evictCheck ks =>
    by_cases hw : c.order.within = true
    · exact .inl hw
    · exact .inr ⟨_, by simp only [next, hw]; rfl, rfl⟩
  | evictPop ks =>
    refine .inr ?_
    simp only [next]
    split
    · split_ifs <;> exact ⟨_, rfl, rfl⟩
    · exact ⟨_, rfl, rfl⟩
  | evictData ks =>
    refine .inl ?_
    cases ks with
    | nil => simpa [next, evicting] using h
    | cons k ks =>
      simp only [next]
      split <;> simpa [evicting] using h
  | evictAccount e ks => exact .inl (by simpa [next, evicting] using h)
  | dataGet key now =>
    refine .inl ?_
    simp only [next]
    split
    · simpa [evicting] using h
    · split_ifs <;> simpa [evicting] using h
  | dataRemove keys =>
    refine .inl ?_
    cases keys with
    | nil => simpa [next, evicting] using h
    | cons k keys =>
      simp only [next]
      split <;> simpa [evicting] using h
  | removeAccount k e keys => exact .inl (by simpa [next, evicting] using h)
  | orderRemove k keys => exact .inl (Lru.within_remove (by simpa [evicting] using h))

lemma Phase.next_limits (c : PingolaCache) (victim : Option UInt64) (p : Phase) :
    (p.next c victim).1.memoryLimit = c.memoryLimit ∧
      (p.next c victim).1.order.weightLimit = c.order.weightLimit := by
  cases p with
  | evictPop ks =>
    simp only [next]
    split
    · split_ifs <;> exact ⟨rfl, rfl⟩
    · exact ⟨rfl, rfl⟩
  | evictData ks =>
    cases ks with
    | nil => exact ⟨rfl, rfl⟩
    | cons k ks => simp only [next]; split <;> exact ⟨rfl, rfl⟩
  | dataGet key now =>
    simp only [next]
    split
    · exact ⟨rfl, rfl⟩
    · split_ifs <;> exact ⟨rfl, rfl⟩
  | dataRemove keys =>
    cases keys with
    | nil => exact ⟨rfl, rfl⟩
    | cons k keys => simp only [next]; split <;> exact ⟨rfl, rfl⟩
  | _ => simp [next, Lru.admitKey, Lru.remove]

/-! ### The invariant -/

/-- Every resident entry is in the order with its weight unless a call is about to admit it or to
remove it; the order is within its limits unless a call is evicting. -/
structure SharedCache.Safe (s : SharedCache) : Prop where
  resident : ∀ k e, s.cache.data.lookup k = some e →
    s.cache.order.weights.lookup k = some e.weight ∨ ∃ i, Vouches (s.calls i) k e
  within : s.cache.order.within = true ∨ ∃ i p, s.calls i = some p ∧ p.evicting = true
  limit : s.cache.order.weightLimit = s.cache.memoryLimit

lemma SharedCache.safe_advance {s : SharedCache} {i : ℕ} {p : Phase} (victim : Option UInt64)
    (hi : s.calls i = some p) (hs : s.Safe) (hd : ¬Disturbs s i) :
    Safe (s.proceed i (p.next s.cache victim).1 (p.next s.cache victim).2) := by
  have hlim := Phase.next_limits s.cache victim p
  refine ⟨fun k e hk => ?_, ?_, by rw [proceed_cache, hlim.1, hlim.2, hs.limit]⟩
  · have hother : ∀ j, j ≠ i → Vouches (s.calls j) k e →
        ∃ l, Vouches ((s.proceed i (p.next s.cache victim).1 (p.next s.cache victim).2).calls l) k e :=
      fun j hj hv => ⟨j, by rwa [proceed_calls_of_ne _ hj]⟩
    rcases Phase.next_resident hk with hord | hv | ⟨hold, hsame, hmono⟩ | ⟨hold, hphase⟩
    · exact .inl hord
    · exact .inr ⟨i, by rwa [proceed_calls_self]⟩
    · rcases hs.resident k e hold with hord | ⟨j, hj⟩
      · exact .inl (hsame.trans hord)
      · by_cases hji : j = i
        · subst hji
          exact .inr ⟨j, by rw [proceed_calls_self]; exact hmono (hi ▸ hj)⟩
        · exact .inr (hother j hji hj)
    · -- the phase touched the order at `k`: some other call vouches for the entry
      have hun : Unsettled s.calls i k e := by
        by_contra hun
        rcases hphase with ⟨e', rfl, hw⟩ | ⟨keys, rfl⟩
        · exact hd (by simpa [Disturbs, hi] using ⟨e, hold, hw, hun⟩)
        · exact hd (by simpa [Disturbs, hi] using ⟨e, hold, hun⟩)
      obtain ⟨j, hj, q, hq, hv⟩ := hun
      exact .inr (hother j hj ⟨q, hq, hv⟩)
  · have hself : s.cache.order.within = true ∨ p.evicting = true →
        (p.next s.cache victim).1.order.within = true ∨ ∃ j q,
          (s.proceed i (p.next s.cache victim).1 (p.next s.cache victim).2).calls j = some q ∧ q.evicting = true := by
      intro h
      rcases Phase.next_within h with hw | ⟨q, hq, hev⟩
      · exact .inl hw
      · exact .inr ⟨i, q, by rwa [proceed_calls_self], hev⟩
    rcases hs.within with hw | ⟨j, q, hj, hev⟩
    · exact hself (.inl hw)
    · by_cases hji : j = i
      · subst hji
        rw [hi] at hj
        exact hself (.inr (Option.some.inj hj ▸ hev))
      · exact .inr ⟨j, q, by rwa [proceed_calls_of_ne _ hji], hev⟩

/-- The event advances no call to a phase that disturbs the order. -/
def Undisturbed (s : SharedCache) : CacheEvent → Prop
  | .start _ _ => True
  | .advance i _ => ¬Disturbs s i

/-- One event that disturbs nothing. -/
def UndisturbedStep (s : SharedCache) (ev : CacheEvent) (t : SharedCache) : Prop :=
  s.step ev = some t ∧ Undisturbed s ev

lemma SharedCache.safe_step {s t : SharedCache} {ev : CacheEvent} (hstep : UndisturbedStep s ev t)
    (hs : s.Safe) : t.Safe := by
  obtain ⟨h, hu⟩ := hstep
  cases ev with
  | start i call =>
    simp only [step] at h
    split at h
    · rename_i hi
      obtain rfl := Option.some.inj h
      refine ⟨fun k e hk => ?_, ?_, hs.limit⟩
      · rcases hs.resident k e hk with hord | ⟨j, hj⟩
        · exact .inl hord
        · have hji : j ≠ i := fun hji => by simp [hji, hi] at hj
          exact .inr ⟨j, by rwa [proceed_calls_of_ne _ hji]⟩
      · rcases hs.within with hw | ⟨j, q, hj, hev⟩
        · exact .inl hw
        · have hji : j ≠ i := fun hji => by simp [hji, hi] at hj
          exact .inr ⟨j, q, by rwa [proceed_calls_of_ne _ hji], hev⟩
    · simp at h
  | advance i victim =>
    simp only [step] at h
    split at h
    · simp at h
    · rename_i p hi
      obtain rfl := Option.some.inj h
      exact safe_advance victim hi hs hu

lemma SharedCache.safe_init (enabled : Bool) (memoryBytes : ℕ) :
    (init (.new enabled memoryBytes)).Safe where
  resident k e hk := by simp [init, PingolaCache.new] at hk
  within := .inl (by simp [init, PingolaCache.new, Lru.within_iff, Lru.weight, Lru.len])
  limit := rfl

/-- In every run without a disturbing step, whenever no call is in progress every resident key is
in the order and the resident weights fit the budget. -/
theorem interleaved_cache_stays_bounded {enabled : Bool} {memoryBytes : ℕ} {events : List CacheEvent}
    {s : SharedCache}
    (h : Runs.Run UndisturbedStep (.init (.new enabled memoryBytes)) events s) (hq : s.Quiescent) :
    (∀ k, k ∈ s.cache.data → k ∈ s.cache.order.weights) ∧
      s.cache.data.total StoredEntry.weight ≤ s.cache.memoryLimit := by
  have hs : s.Safe := h.invariant (fun _ s => s.Safe)
    (fun _ _ _ _ hst hs => SharedCache.safe_step hst hs) (SharedCache.safe_init _ _)
  have hord : ∀ k e, s.cache.data.lookup k = some e →
      s.cache.order.weights.lookup k = some e.weight := by
    intro k e hk
    rcases hs.resident k e hk with hord | ⟨i, hi⟩
    · exact hord
    · simp [hq i] at hi
  have hwithin : s.cache.order.within = true := by
    rcases hs.within with hw | ⟨i, p, hi, -⟩
    · exact hw
    · simp [hq i] at hi
  refine ⟨fun k hk => ?_, ?_⟩
  · obtain ⟨e, he⟩ := Option.isSome_iff_exists.mp (AList.lookup_isSome.mpr hk)
    exact AList.lookup_isSome.mp (by rw [hord k e he]; rfl)
  · calc s.cache.data.total StoredEntry.weight ≤ s.cache.order.weight :=
        Table.total_le_of_lookup fun k e hk => by rw [hord k e hk]; rfl
      _ ≤ s.cache.order.weightLimit := (Lru.within_iff.mp hwithin).1
      _ = s.cache.memoryLimit := hs.limit

/-! ### Calls that run alone -/

section Solo

open Runs

variable (s : SharedCache) (i : ℕ) (c : PingolaCache)

lemma proceed_proceed (c' : PingolaCache) (p p' : Option Phase) :
    (s.proceed i c p).proceed i c' p' = s.proceed i c' p' := by
  simp [SharedCache.proceed]

lemma reaches_of_advance {p : Phase} {t : SharedCache} (victim : Option UInt64)
    (hd : ¬Disturbs (s.proceed i c (some p)) i)
    (h : Reaches UndisturbedStep (s.proceed i (p.next c victim).1 (p.next c victim).2) t) :
    Reaches UndisturbedStep (s.proceed i c (some p)) t := by
  refine .head (a := .advance i victim) ⟨?_, hd⟩ h
  simp only [SharedCache.step, SharedCache.proceed_calls_self, SharedCache.proceed_cache,
    proceed_proceed]

lemma reaches_evictData (ks : List UInt64) :
    Reaches UndisturbedStep (s.proceed i c (some (.evictData ks)))
      (s.proceed i (ks.foldl PingolaCache.dataRemove c) none) := by
  induction ks generalizing c with
  | nil => exact reaches_of_advance s i c none (by simp [Disturbs]) (.refl _)
  | cons k ks ih =>
    refine reaches_of_advance s i c none (by simp [Disturbs]) ?_
    rw [List.foldl_cons, PingolaCache.dataRemove]
    cases hk : c.data.lookup k with
    | none =>
      simp only [Phase.next, hk]
      exact ih c
    | some e =>
      simp only [Phase.next, hk]
      exact reaches_of_advance s i _ none (by simp [Disturbs]) (ih _)

lemma reaches_evictCheck {o : Lru} {victims : List UInt64}
    (h : c.order.evictToLimit victims = some o) (popped : List UInt64) :
    Reaches UndisturbedStep (s.proceed i c (some (.evictCheck popped)))
      (s.proceed i { c with order := o } (some (.evictData (popped ++ victims)))) := by
  induction victims generalizing c popped with
  | nil =>
    simp only [Lru.evictToLimit, Option.ite_none_right_eq_some, Option.some.injEq] at h
    obtain ⟨hw, rfl⟩ := h
    refine reaches_of_advance s i c none (by simp [Disturbs]) ?_
    simp only [Phase.next, hw, if_true, List.append_nil]
    exact .refl _
  | cons k victims ih =>
    simp only [Lru.evictToLimit] at h
    split_ifs at h with hw hk
    refine reaches_of_advance s i c none (by simp [Disturbs]) ?_
    simp only [Phase.next, hw]
    refine reaches_of_advance s i c (some k) (by simp [Disturbs]) ?_
    simp only [Phase.next, hk, if_true]
    simpa using ih { c with order := c.order.remove k } h (popped ++ [k])

lemma reaches_dataRemove (keys : List UInt64) :
    Reaches UndisturbedStep (s.proceed i c (some (.dataRemove keys)))
      (s.proceed i (c.purgeKeys keys).2 none) := by
  induction keys generalizing c with
  | nil => exact reaches_of_advance s i c none (by simp [Disturbs]) (.refl _)
  | cons k keys ih =>
    refine reaches_of_advance s i c none (by simp [Disturbs]) ?_
    simp only [PingolaCache.purgeKeys, PingolaCache.removeStorageKey, PingolaCache.dataRemove]
    cases hk : c.data.lookup k with
    | none =>
      simp only [Phase.next, hk]
      exact ih c
    | some e =>
      simp only [Phase.next, hk]
      refine reaches_of_advance s i _ none (by simp [Disturbs]) ?_
      refine reaches_of_advance s i _ none ?_ (ih _)
      simp [Disturbs, Phase.next]

lemma reaches_dataInsert (k : UInt64) (e : StoredEntry) :
    Reaches UndisturbedStep (s.proceed i c (some (.dataInsert k e)))
      (s.proceed i (c.admitEntry k e) (some (.evictCheck []))) := by
  have hadmit : ∀ c' : PingolaCache, c'.data.lookup k = some e →
      Reaches UndisturbedStep (s.proceed i c' (some (.insertAccount k e)))
        (s.proceed i { c'.accountInsert e.cacheNamespace e.weight with
          order := c'.order.admitKey k e.weight } (some (.evictCheck []))) := by
    intro c' hc'
    refine reaches_of_advance s i c' none (by simp [Disturbs]) ?_
    refine reaches_of_advance s i _ none ?_ ?_
    · simp [Disturbs, Phase.next, hc']
    · simp only [Phase.next, PingolaCache.accountInsert_order]
      exact .refl _
  refine reaches_of_advance s i c none (by simp [Disturbs]) ?_
  simp only [PingolaCache.admitEntry, PingolaCache.dataInsert]
  cases hk : c.data.lookup k with
  | none =>
    simp only [Phase.next, hk, PingolaCache.accountInsert_order]
    exact hadmit _ (AList.lookup_insert _)
  | some old =>
    simp only [Phase.next, hk, PingolaCache.accountInsert_order]
    refine reaches_of_advance s i _ none (by simp [Disturbs]) ?_
    exact hadmit _ (by simp [Phase.next])

lemma init_proceed (c c' : PingolaCache) :
    (SharedCache.init c).proceed i c' none = SharedCache.init c' := by
  simp [SharedCache.proceed, SharedCache.init]

lemma reaches_of_start (call : CacheCall) {t : SharedCache}
    (h : Reaches UndisturbedStep ((SharedCache.init c).proceed 0 c (call.start c)) t) :
    Reaches UndisturbedStep (SharedCache.init c) t :=
  .head (a := .start 0 call) ⟨rfl, trivial⟩ h

lemma reaches_insert {c c' : PingolaCache} {key : CacheKey UInt64} {v : CachedValue} {victims : List UInt64}
    {r : Bool} (h : c.insert key v victims = some (r, c')) :
    Reaches UndisturbedStep (SharedCache.init c) (SharedCache.init c') := by
  refine reaches_of_start c (.insert key v) ?_
  obtain ⟨-, rfl, hwhy⟩ | ⟨-, hen, hlim, order, hevict, rfl⟩ := PingolaCache.insert_eq_some h
  · have hstart : CacheCall.start c' (.insert key v) = none := by
      rcases hwhy with hdis | hbig
      · simp [CacheCall.start, hdis]
      · simp [CacheCall.start, hbig]
    rw [hstart, init_proceed]
    exact .refl _
  · have hstart : CacheCall.start c (.insert key v) =
        some (.dataInsert key.storageKey ⟨key.cacheNamespace, v, v.estimatedWeight⟩) := by
      simp [CacheCall.start, hen, hlim]
    rw [hstart]
    have hrun := ((reaches_dataInsert (SharedCache.init c) 0 c _ _).trans
      (reaches_evictCheck _ 0 _ hevict [])).trans (reaches_evictData _ 0 _ victims)
    rwa [init_proceed] at hrun

lemma reaches_purgeKeys (keys : List UInt64) :
    Reaches UndisturbedStep ((SharedCache.init c).proceed 0 c (some (.dataRemove keys)))
      (SharedCache.init (c.purgeKeys keys).2) := by
  have hrun := reaches_dataRemove (SharedCache.init c) 0 c keys
  rwa [init_proceed] at hrun

lemma reaches_lookup (key : CacheKey UInt64) (now : ℕ) :
    Reaches UndisturbedStep (SharedCache.init c) (SharedCache.init (c.lookup key now).2) := by
  refine reaches_of_start c (.lookup key now) ?_
  have hdone : Reaches UndisturbedStep ((SharedCache.init c).proceed 0 c none) (SharedCache.init c) := by
    rw [init_proceed]
    exact .refl _
  by_cases hen : c.enabled = true
  · simp only [CacheCall.start, PingolaCache.lookup, hen, Bool.not_true, Bool.false_eq_true, if_false]
    refine reaches_of_advance _ 0 c none (by simp [Disturbs]) ?_
    simp only [Phase.next]
    cases hk : c.data.lookup key.storageKey with
    | none => exact hdone
    | some e =>
      simp only
      split_ifs
      · exact hdone
      · exact hdone
      · exact reaches_purgeKeys c [key.storageKey]
  · simp only [CacheCall.start, PingolaCache.lookup, hen, Bool.not_false, if_true]
    exact hdone

/-- Each call of the sequential model is a run of its phases that disturbs nothing. -/
lemma reaches_of_step {c c' : PingolaCache} {op : PingolaCache.CacheOp} (h : c.step op = some c') :
    Reaches UndisturbedStep (SharedCache.init c) (SharedCache.init c') := by
  cases op with
  | insert key v victims =>
    obtain ⟨⟨r, c''⟩, hins, rfl⟩ := Option.map_eq_some_iff.mp h
    exact reaches_insert hins
  | lookup key now =>
    obtain rfl := Option.some.inj h
    exact reaches_lookup c key now
  | remove key =>
    obtain rfl := Option.some.inj h
    exact reaches_of_start c (.remove key) (reaches_purgeKeys c [key.storageKey])
  | purgeNamespace n =>
    obtain rfl := Option.some.inj h
    refine reaches_of_start c
      (.purge ((c.data.entries.filter fun e => e.2.cacheNamespace = n).map Sigma.fst)) ?_
    exact reaches_purgeKeys c _

/-- Whole calls one after the other are runs of their phases that disturb nothing. -/
theorem reaches_of_run {c c' : PingolaCache} {ops : List PingolaCache.CacheOp}
    (h : Run (fun c op c' => PingolaCache.step c op = some c') c ops c') :
    Reaches UndisturbedStep (SharedCache.init c) (SharedCache.init c') :=
  h.simulation SharedCache.init fun _ _ _ => reaches_of_step

end Solo

section Samples

open PingolaCache

/-- A condition on the next phase that is checked without the other calls: the order is given the weight of the
resident entry, or loses a key without one. -/
def SharedCache.quiet (s : SharedCache) : CacheEvent → Bool
  | .start _ _ => true
  | .advance i _ =>
    match s.calls i with
    | some (.orderAdmit k e) => (s.cache.data.lookup k).all fun e' => e'.weight == e.weight
    | some (.orderRemove k _) => (s.cache.data.lookup k).isNone
    | _ => true

lemma undisturbed_of_quiet {s : SharedCache} {ev : CacheEvent} (h : s.quiet ev = true) : Undisturbed s ev := by
  cases ev with
  | start i call => trivial
  | advance i victim =>
    intro hdisturbs
    unfold Disturbs at hdisturbs
    unfold SharedCache.quiet at h
    dsimp only at h
    generalize s.calls i = p at h hdisturbs
    rcases p with _ | p
    · exact hdisturbs
    · cases p with
      | orderAdmit k e =>
        obtain ⟨e', he', hweight, -⟩ := hdisturbs
        dsimp only at h
        rw [he', Option.all_some, beq_iff_eq] at h
        exact hweight h
      | orderRemove k keys =>
        obtain ⟨e', he', -⟩ := hdisturbs
        dsimp only at h
        rw [he'] at h
        cases h
      | _ => exact hdisturbs

/-- The five phases of an insert by call `i` that replaces and evicts nothing. -/
def insertEvents (i : ℕ) (key : CacheKey UInt64) (v : CachedValue) : List CacheEvent :=
  .start i (.insert key v) :: List.replicate 5 (.advance i none)

/-- Call 1 removes the entry from the map, call 0 inserts it again, then call 1 goes on to the
order. -/
def lostEvents : List CacheEvent :=
  insertEvents 0 sampleKey smallValue ++ [.start 1 (.remove sampleKey), .advance 1 none] ++
    insertEvents 0 sampleKey smallValue ++ [.advance 1 none, .advance 1 none, .advance 1 none]

def lostState : SharedCache :=
  (Runs.exec SharedCache.step (.init (.new true 0)) lostEvents).getD (.init (.new true 0))

lemma exec_lostEvents : Runs.exec SharedCache.step (.init (.new true 0)) lostEvents = some lostState := rfl

/-- Two inserts under different keys, with a removal of the first entry between their phases. -/
def overlappingEvents : List CacheEvent :=
  [.start 0 (.insert sampleKey smallValue), .advance 0 none, .start 1 (.insert ⟨.dns, 43⟩ smallValue), .advance 1 none,
    .advance 0 none, .advance 0 none, .start 2 (.remove sampleKey), .advance 2 none, .advance 1 none, .advance 2 none,
    .advance 1 none, .advance 2 none, .advance 0 none, .advance 1 none, .advance 2 none, .advance 0 none,
    .advance 1 none]

def overlappedState : SharedCache :=
  (Runs.exec SharedCache.step (.init (.new true 0)) overlappingEvents).getD (.init (.new true 0))

theorem interleaved_cache_stays_bounded_overlapping :
    overlappedState.cache.data.keys = [(⟨.dns, 43⟩ : CacheKey UInt64).storageKey] ∧
    (∀ k, k ∈ overlappedState.cache.data → k ∈ overlappedState.cache.order.weights) ∧
      overlappedState.cache.data.total StoredEntry.weight ≤ overlappedState.cache.memoryLimit := by
  have hexec : Runs.exec (fun s ev => if s.quiet ev then SharedCache.step s ev else none) (.init (.new true 0))
      overlappingEvents = some overlappedState := rfl
  refine ⟨by decide +kernel, interleaved_cache_stays_bounded ((Runs.run_of_exec_guarded hexec).mono fun s ev t h =>
    ⟨h.1, undisturbed_of_quiet h.2⟩) fun i => ?_⟩
  rcases i with _ | _ | _ | i <;> rfl

theorem interleaved_cache_loses_key :
    Runs.Run (fun s ev t => SharedCache.step s ev = some t) (.init (.new true 0)) lostEvents lostState ∧
    lostState.Quiescent ∧ sampleKey.storageKey ∈ lostState.cache.data ∧
    sampleKey.storageKey ∉ lostState.cache.order.weights := by
  refine ⟨Runs.run_of_exec exec_lostEvents, fun i => ?_, by decide +kernel, by decide +kernel⟩
  rcases i with _ | _ | i <;> rfl

end Samples

end Pingola
