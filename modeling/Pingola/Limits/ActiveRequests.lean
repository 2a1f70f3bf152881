import Pingola.Lib.Runs
import Pingola.Limits.RateLimiter

/-!
# Active requests

`ActiveRequestLimiter` of `limits.rs` under threads that take turns. A turn is one section under a
guard of the map, one update of an atomic outside of the guards, or one operation of the cleanup
mutex. `retain` visits the shards of the map one by one, each under its own guard. A counter is
named by its place in the order of allocation, so that equal numbers are equal pointers.
-/

namespace Pingola

structure ActiveRequestPermit where
  counter : ℕ
  deriving DecidableEq

/-- Where a thread stands: outside, at one of the two lookups of `acquire`, or inside
`cleanup_inactive`, from where an `acquire` resumes. -/
inductive AcquirePhase where
  | idle (result : Option ActiveRequestPermit)
  | lookup (key : ClientKey) (limit : UInt64)
  | entry (key : ClientKey) (limit : UInt64) (retriedAfterCleanup : Bool)
  | tryLock (resume : Option (ClientKey × UInt64))
  | retain (shards : List ℕ) (removed : UInt64) (resume : Option (ClientKey × UInt64))
  | unlock (resume : Option (ClientKey × UInt64))
  deriving DecidableEq

/-- The limiter with its live permits, each with the key that it was acquired for, and the threads.
The mutex is held by a thread or by none. -/
structure ActiveRequestLimiter where
  counters : Table ClientKey ℕ
  values : ℕ → UInt64
  allocated : ℕ
  counterCount : UInt64
  maxCounters : UInt64
  cleanup : Option ℕ
  permits : List (ClientKey × ActiveRequestPermit)
  threads : ℕ → AcquirePhase

/-- Callers pass limits of at least one. -/
inductive ActiveEvent where
  | acquire (thread : ℕ) (key : ClientKey) (limit : UInt64)
  | cleanupInactive (thread : ℕ)
  | advance (thread : ℕ)
  | drop (permit : ℕ)
  deriving DecidableEq

/-- `fetch_update` with the closure that counts up below a limit. -/
def fetchUpdate (limit current : UInt64) : Option UInt64 := if current < limit then some (current + 1) else none

namespace ActiveRequestLimiter

def withMaxCounters (maxCounters : UInt64) : ActiveRequestLimiter :=
  ⟨∅, fun _ => 0, 0, 0, maxCounters, none, [], fun _ => .idle none⟩

section
variable (shardOf : ClientKey → ℕ) (shards : ℕ) (s : ActiveRequestLimiter) (thread : ℕ)

def goto (phase : AcquirePhase) : ActiveRequestLimiter :=
  { s with threads := Function.update s.threads thread phase }

/-- The counter of a key counts up to `next`, for a new permit. -/
def grant (key : ClientKey) (counter : ℕ) (next : UInt64) : ActiveRequestLimiter :=
  { s with
    values := Function.update s.values counter next
    permits := (key, ⟨counter⟩) :: s.permits }

/-- A new counter goes into the vacant entry of a key; `next` is the number of counters. -/
def create (key : ClientKey) (next : UInt64) : ActiveRequestLimiter :=
  { s with
    counters := s.counters.insert key s.allocated
    values := Function.update s.values s.allocated 1
    allocated := s.allocated + 1
    counterCount := next
    permits := (key, ⟨s.allocated⟩) :: s.permits }

def acquireFrom (key : ClientKey) (limit : UInt64) (counter : ℕ) : ActiveRequestLimiter :=
  match fetchUpdate limit (s.values counter) with
  | some next => (s.grant key counter next).goto thread (.idle (some ⟨counter⟩))
  | none => s.goto thread (.idle none)

def keeps (shard : ℕ) (key : ClientKey) (counter : ℕ) : Bool :=
  decide (shardOf key ≠ shard) || decide (s.values counter ≠ 0)

/-- The part of `retain` under the guard of one shard. -/
def sweep (shard : ℕ) : ActiveRequestLimiter :=
  { s with counters := s.counters.retain (s.keeps shardOf shard) }

/-- How many counters that part removes. -/
def stale (shard : ℕ) : ℕ := (s.counters.entries.filter fun e => !s.keeps shardOf shard e.1 e.2).length

/-- The next turn of a thread inside `acquire` or `cleanup_inactive`. -/
def advance : Option ActiveRequestLimiter :=
  match s.threads thread with
  | .idle _ => none
  | .lookup key limit =>
    match s.counters.lookup key with
    | some counter => some (s.acquireFrom thread key limit counter)
    | none => some (s.goto thread (.entry key limit false))
  | .entry key limit retriedAfterCleanup =>
    match s.counters.lookup key with
    | some counter => some (s.acquireFrom thread key limit counter)
    | none =>
      match fetchUpdate s.maxCounters s.counterCount with
      | some next => some ((s.create key next).goto thread (.idle (some ⟨s.allocated⟩)))
      | none =>
        some (s.goto thread (if retriedAfterCleanup then .idle none else .tryLock (some (key, limit))))
  | .tryLock resume =>
    match s.cleanup with
    | some _ => some (s.goto thread (.idle none))
    | none =>
      some (({ s with cleanup := some thread } : ActiveRequestLimiter).goto thread
        (.retain (List.range shards) 0 resume))
  | .retain (shard :: rest) removed resume =>
    some ((s.sweep shardOf shard).goto thread
      (.retain rest (removed + UInt64.ofNat (s.stale shardOf shard)) resume))
  | .retain [] removed resume =>
    some (({ s with counterCount := s.counterCount - removed } : ActiveRequestLimiter).goto thread
      (.unlock resume))
  | .unlock none => some (({ s with cleanup := none } : ActiveRequestLimiter).goto thread (.idle none))
  | .unlock (some (key, limit)) =>
    some (({ s with cleanup := none } : ActiveRequestLimiter).goto thread (.entry key limit true))

/-- `Drop` of a permit. -/
def dropPermit (permit : ℕ) : Option ActiveRequestLimiter :=
  (s.permits[permit]?).map fun p =>
    { s with
      values := Function.update s.values p.2.counter (s.values p.2.counter - 1)
      permits := s.permits.eraseIdx permit }

def step : ActiveEvent → Option ActiveRequestLimiter
  | .acquire thread key limit =>
    match s.threads thread with
    | .idle _ => if 0 < limit then some (s.goto thread (.lookup key limit)) else none
    | _ => none
  | .cleanupInactive thread =>
    match s.threads thread with
    | .idle _ => some (s.goto thread (.tryLock none))
    | _ => none
  | .advance thread => s.advance shardOf shards thread
  | .drop permit => s.dropPermit permit

end

/-- The live permits of a key. -/
def live (s : ActiveRequestLimiter) (key : ClientKey) : ℕ := s.permits.countP fun p => p.1 = key

/-- The value of the counter that the map has for a key, zero if it has none. -/
def value (s : ActiveRequestLimiter) (key : ClientKey) : UInt64 :=
  ((s.counters.lookup key).map s.values).getD 0

end ActiveRequestLimiter

/-! ### The invariant -/

namespace AcquirePhase

/-- The key and the limit of an `acquire` under way. -/
def acquiring : AcquirePhase → Option (ClientKey × UInt64)
  | .idle _ => none
  | .lookup key limit => some (key, limit)
  | .entry key limit _ => some (key, limit)
  | .tryLock resume => resume
  | .retain _ _ resume => resume
  | .unlock resume => resume

/-- Inside the cleanup mutex. -/
def holds : AcquirePhase → Bool
  | .retain _ _ _ => true
  | .unlock _ => true
  | _ => false

/-- The counters that were removed and are still counted. -/
def removed : AcquirePhase → UInt64
  | .retain _ removed _ => removed
  | _ => 0

end AcquirePhase

namespace ActiveRequestLimiter

/-- The counters that the holder of the mutex removed and did not yet subtract. -/
def removed (s : ActiveRequestLimiter) : UInt64 := (s.cleanup.map fun thread => (s.threads thread).removed).getD 0

structure Sound (s : ActiveRequestLimiter) : Prop where
  permit_counter : ∀ p ∈ s.permits, s.counters.lookup p.1 = some p.2.counter
  value_eq : ∀ key counter, s.counters.lookup key = some counter → (s.values counter).toNat = s.live key
  injective : ∀ key key' counter, s.counters.lookup key = some counter →
    s.counters.lookup key' = some counter → key = key'
  allocated : ∀ key counter, s.counters.lookup key = some counter → counter < s.allocated
  count_eq : s.counterCount.toNat = s.counters.entries.length + s.removed.toNat
  count_le : s.counterCount ≤ s.maxCounters
  holder : ∀ thread, (s.threads thread).holds = true ↔ s.cleanup = some thread
  limit_pos : ∀ thread key limit, (s.threads thread).acquiring = some (key, limit) → 0 < limit

lemma fetchUpdate_eq_some {limit current next : UInt64} (h : fetchUpdate limit current = some next) :
    current < limit ∧ next.toNat = current.toNat + 1 ∧ next.toNat ≤ limit.toNat := by
  rw [fetchUpdate] at h
  split_ifs at h with hlt
  obtain rfl := Option.some.inj h
  have hlt' := UInt64.lt_iff_toNat_lt.mp hlt
  have hsize := limit.toNat_lt
  have hadd : (current + 1).toNat = current.toNat + 1 := by
    rw [UInt64.toNat_add]
    simp
    omega
  exact ⟨hlt, hadd, by omega⟩

variable {s : ActiveRequestLimiter} {thread : ℕ} {key : ClientKey}

lemma Sound.live_eq_zero (h : Sound s) (hnone : s.counters.lookup key = none) : s.live key = 0 := by
  rw [live, List.countP_eq_zero]
  intro p hp heq
  have hcounter := h.permit_counter p hp
  rw [of_decide_eq_true heq, hnone] at hcounter
  cases hcounter

lemma sound_new (maxCounters : UInt64) : Sound (withMaxCounters maxCounters) where
  permit_counter := fun p hp => by cases hp
  value_eq := fun key counter h => by cases h
  injective := fun key key' counter h => by cases h
  allocated := fun key counter h => by cases h
  count_eq := rfl
  count_le := UInt64.le_iff_toNat_le.mpr (Nat.zero_le _)
  holder := fun thread => by simp [withMaxCounters, AcquirePhase.holds]
  limit_pos := fun thread key limit h => by cases h

/-! ### Turns -/

section

variable (h : Sound s)
include h

lemma Sound.holder_update {phase : AcquirePhase} {cleanup : Option ℕ}
    (hself : phase.holds = true ↔ cleanup = some thread)
    (hother : ∀ t, t ≠ thread → (cleanup = some t ↔ s.cleanup = some t)) (t : ℕ) :
    (Function.update s.threads thread phase t).holds = true ↔ cleanup = some t := by
  by_cases ht : t = thread
  · subst ht
    rw [Function.update_self]
    exact hself
  · rw [Function.update_of_ne ht, hother t ht]
    exact h.holder t

lemma Sound.limit_update {phase : AcquirePhase}
    (hlimit : ∀ key limit, phase.acquiring = some (key, limit) → 0 < limit) (t : ℕ) (key : ClientKey) (limit : UInt64)
    (ht : (Function.update s.threads thread phase t).acquiring = some (key, limit)) : 0 < limit := by
  by_cases heq : t = thread
  · subst heq
    rw [Function.update_self] at ht
    exact hlimit key limit ht
  · rw [Function.update_of_ne heq] at ht
    exact h.limit_pos t key limit ht

lemma Sound.removed_eq (hholds : (s.threads thread).holds = true) : s.removed = (s.threads thread).removed := by
  rw [removed, (h.holder thread).mp hholds]
  rfl

/-- A thread outside the mutex goes on outside the mutex. -/
lemma Sound.goto {phase : AcquirePhase} (hholds : (s.threads thread).holds = false) (hphase : phase.holds = false)
    (hlimit : ∀ key limit, phase.acquiring = some (key, limit) → 0 < limit) : Sound (s.goto thread phase) := by
  have hself : s.cleanup ≠ some thread := fun hcleanup => by
    rw [(h.holder thread).mpr hcleanup] at hholds
    cases hholds
  have hremoved : (s.goto thread phase).removed = s.removed := by
    cases hcleanup : s.cleanup with
    | none => simp [removed, ActiveRequestLimiter.goto, hcleanup]
    | some t =>
      have ht : t ≠ thread := fun heq => hself (heq ▸ hcleanup)
      simp [removed, ActiveRequestLimiter.goto, hcleanup, Function.update_of_ne ht]
  exact
    { h with
      count_eq := by rw [hremoved]; exact h.count_eq
      holder := h.holder_update (by rw [hphase]; exact iff_of_false Bool.false_ne_true hself) fun t _ => Iff.rfl
      limit_pos := h.limit_update hlimit }

lemma Sound.grant {counter : ℕ} {limit next : UInt64} (hlookup : s.counters.lookup key = some counter)
    (hnext : fetchUpdate limit (s.values counter) = some next) : Sound (s.grant key counter next) := by
  refine { h with permit_counter := fun p hp => ?_, value_eq := fun key' counter' hlookup' => ?_ }
  · rcases List.mem_cons.mp hp with rfl | hp
    · exact hlookup
    · exact h.permit_counter p hp
  · have hold := h.value_eq key' counter' hlookup'
    by_cases hkey : key' = key
    · subst hkey
      obtain rfl : counter' = counter := by
        change s.counters.lookup key' = some counter' at hlookup'
        rw [hlookup] at hlookup'
        exact (Option.some.inj hlookup').symm
      have hlive : (s.grant key' counter' next).live key' = s.live key' + 1 := by
        simp [live, ActiveRequestLimiter.grant]
      rw [hlive, ← hold, ActiveRequestLimiter.grant]
      simp only [Function.update_self]
      exact (fetchUpdate_eq_some hnext).2.1
    · have hcounter : counter' ≠ counter := by
        rintro rfl
        exact hkey (h.injective _ _ _ hlookup' hlookup)
      have hlive : (s.grant key counter next).live key' = s.live key' := by
        simp [live, ActiveRequestLimiter.grant, Ne.symm hkey]
      rw [hlive, ← hold, ActiveRequestLimiter.grant]
      simp only [Function.update_of_ne hcounter]

lemma Sound.create {next : UInt64} (hlookup : s.counters.lookup key = none)
    (hnext : fetchUpdate s.maxCounters s.counterCount = some next) : Sound (s.create key next) := by
  obtain ⟨-, hcount, hmax⟩ := fetchUpdate_eq_some hnext
  have hother : ∀ key', key' ≠ key →
      (s.create key next).counters.lookup key' = s.counters.lookup key' ∧
        (s.create key next).live key' = s.live key' := by
    intro key' hkey
    refine ⟨AList.lookup_insert_ne hkey, ?_⟩
    simp [live, ActiveRequestLimiter.create, Ne.symm hkey]
  have hself : (s.create key next).counters.lookup key = some s.allocated := AList.lookup_insert _
  have hfresh : ∀ key' counter, s.counters.lookup key' = some counter → counter ≠ s.allocated :=
    fun key' counter hcounter => (h.allocated key' counter hcounter).ne
  refine ⟨fun p hp => ?_, fun key' counter hcounter => ?_, fun key' key'' counter h' h'' => ?_,
    fun key' counter hcounter => ?_, ?_, UInt64.le_iff_toNat_le.mpr hmax, h.holder, h.limit_pos⟩
  · rcases List.mem_cons.mp hp with rfl | hp
    · exact hself
    · have hkey : p.1 ≠ key := by
        intro heq
        have hcounter := h.permit_counter p hp
        rw [heq, hlookup] at hcounter
        cases hcounter
      rw [(hother p.1 hkey).1]
      exact h.permit_counter p hp
  · by_cases hkey : key' = key
    · subst hkey
      obtain rfl : s.allocated = counter := by
        rw [hself] at hcounter
        exact Option.some.inj hcounter
      have hlive : (s.create key' next).live key' = s.live key' + 1 := by
        simp [live, ActiveRequestLimiter.create]
      rw [hlive, h.live_eq_zero hlookup, ActiveRequestLimiter.create]
      simp only [Function.update_self]
      rfl
    · rw [(hother key' hkey).1] at hcounter
      rw [(hother key' hkey).2, ← h.value_eq key' counter hcounter, ActiveRequestLimiter.create]
      simp only [Function.update_of_ne (hfresh key' counter hcounter)]
  · by_cases hkey : key' = key
    · by_cases hkey' : key'' = key
      · rw [hkey, hkey']
      · rw [(hother key'' hkey').1] at h''
        rw [hkey, hself] at h'
        exact absurd (Option.some.inj h').symm (hfresh key'' counter h'')
    · rw [(hother key' hkey).1] at h'
      by_cases hkey' : key'' = key
      · rw [hkey', hself] at h''
        exact absurd (Option.some.inj h'').symm (hfresh key' counter h')
      · rw [(hother key'' hkey').1] at h''
        exact h.injective key' key'' counter h' h''
  · by_cases hkey : key' = key
    · rw [hkey, hself] at hcounter
      have heq := Option.some.inj hcounter
      exact heq ▸ Nat.lt_succ_self _
    · rw [(hother key' hkey).1] at hcounter
      exact (h.allocated key' counter hcounter).trans (Nat.lt_succ_self _)
  · have hlength : (s.create key next).counters.entries.length = s.counters.entries.length + 1 :=
      Table.length_insert_of_none hlookup _
    have hremoved : (s.create key next).removed = s.removed := rfl
    have hold := h.count_eq
    rw [hlength, hremoved]
    change next.toNat = _
    omega

lemma Sound.dropPermit {permit : ℕ} {t : ActiveRequestLimiter} (hdrop : s.dropPermit permit = some t) : Sound t := by
  obtain ⟨p, hp, rfl⟩ := Option.map_eq_some_iff.mp hdrop
  obtain ⟨hlt, hget⟩ := List.getElem?_eq_some_iff.mp hp
  have hmem : p ∈ s.permits := List.mem_of_getElem? hp
  have hlookup := h.permit_counter p hmem
  have hperm : (p :: s.permits.eraseIdx permit).Perm s.permits := by
    rw [← hget]
    exact List.getElem_cons_eraseIdx_perm hlt
  have hcount : ∀ key, s.live key = (s.permits.eraseIdx permit).countP (fun q => q.1 = key) +
      (if p.1 = key then 1 else 0) := by
    intro key
    rw [live, ← hperm.countP_eq, List.countP_cons]
    simp
  refine { h with permit_counter := fun q hq => ?_, value_eq := fun key counter hcounter => ?_ }
  · exact h.permit_counter q (List.mem_of_mem_eraseIdx hq)
  · have hold := h.value_eq key counter hcounter
    rw [hcount key] at hold
    simp only [live]
    by_cases hkey : p.1 = key
    · subst hkey
      obtain rfl : counter = p.2.counter := by
        change s.counters.lookup p.1 = some counter at hcounter
        rw [hlookup] at hcounter
        exact (Option.some.inj hcounter).symm
      rw [if_pos rfl] at hold
      rw [Function.update_self, UInt64.toNat_sub_of_le _ _ (UInt64.le_iff_toNat_le.mpr (by simp; omega))]
      simp
      omega
    · have hne : counter ≠ p.2.counter := by
        rintro rfl
        exact hkey (h.injective _ _ _ hlookup hcounter)
      rw [if_neg hkey] at hold
      rw [Function.update_of_ne hne]
      exact hold

/-- A counter goes only if it has no live permit. -/
lemma Sound.sweep {shardOf : ClientKey → ℕ} {shard : ℕ} {rest : List ℕ} {removed : UInt64}
    {resume : Option (ClientKey × UInt64)} (hthread : s.threads thread = .retain (shard :: rest) removed resume) :
    Sound ((s.sweep shardOf shard).goto thread
      (.retain rest (removed + UInt64.ofNat (s.stale shardOf shard)) resume)) := by
  have hholds : (s.threads thread).holds = true := by rw [hthread]; rfl
  have hcleanup := (h.holder thread).mp hholds
  have hlookup : ∀ key counter, (s.sweep shardOf shard).counters.lookup key = some counter →
      s.counters.lookup key = some counter := by
    intro key counter hkept
    rw [ActiveRequestLimiter.sweep, Table.lookup_retain, Option.filter_eq_some_iff] at hkept
    exact hkept.1
  refine ⟨fun p hp => ?_, fun key counter hkept => h.value_eq key counter (hlookup key counter hkept),
    fun key key' counter hkept hkept' => h.injective _ _ _ (hlookup _ _ hkept) (hlookup _ _ hkept'),
    fun key counter hkept => h.allocated key counter (hlookup key counter hkept), ?_, h.count_le,
    h.holder_update (iff_of_true rfl hcleanup) fun t _ => Iff.rfl, h.limit_update fun key limit hlimit => ?_⟩
  · have hcounter := h.permit_counter p hp
    have hpos : 0 < s.live p.1 := List.countP_pos_iff.mpr ⟨p, hp, by simp⟩
    have hvalue : s.values p.2.counter ≠ 0 := by
      intro hzero
      have heq := h.value_eq _ _ hcounter
      rw [hzero] at heq
      exact hpos.ne heq
    change (s.counters.retain _).lookup p.1 = _
    rw [Table.lookup_retain, hcounter, Option.filter_some, keeps]
    simp [hvalue]
  · have hlength := Table.length_retain (s.keeps shardOf shard) s.counters
    have hcount := h.count_eq
    have hsize := s.counterCount.toNat_lt
    rw [h.removed_eq hholds, hthread] at hcount
    have hafter : ((s.sweep shardOf shard).goto thread
        (.retain rest (removed + UInt64.ofNat (s.stale shardOf shard)) resume)).removed =
        removed + UInt64.ofNat (s.stale shardOf shard) := by
      simp [ActiveRequestLimiter.removed, ActiveRequestLimiter.goto, ActiveRequestLimiter.sweep, hcleanup,
        AcquirePhase.removed]
    have hstale : s.stale shardOf shard =
        (s.counters.entries.filter fun e => !s.keeps shardOf shard e.1 e.2).length := rfl
    change s.counterCount.toNat = s.counters.entries.length + removed.toNat at hcount
    rw [hafter, UInt64.toNat_add, UInt64.toNat_ofNat']
    change s.counterCount.toNat = (s.counters.retain (s.keeps shardOf shard)).entries.length + _
    omega
  · exact h.limit_pos thread key limit (by rw [hthread]; exact hlimit)

lemma Sound.lock {shards : List ℕ} {resume : Option (ClientKey × UInt64)}
    (hthread : s.threads thread = .tryLock resume) (hfree : s.cleanup = none) :
    Sound (({ s with cleanup := some thread } : ActiveRequestLimiter).goto thread (.retain shards 0 resume)) := by
  refine { h with count_eq := ?_, holder := ?_, limit_pos := ?_ }
  · have hcount := h.count_eq
    simp only [ActiveRequestLimiter.removed, hfree, Option.map_none, Option.getD_none] at hcount
    simpa [ActiveRequestLimiter.removed, ActiveRequestLimiter.goto, AcquirePhase.removed] using hcount
  · refine h.holder_update (iff_of_true rfl rfl) fun t ht => ?_
    simp [hfree, Ne.symm ht, ActiveRequestLimiter.goto]
  · exact h.limit_update fun key limit hlimit => h.limit_pos thread key limit (by rw [hthread]; exact hlimit)

lemma Sound.subtract {removed : UInt64} {resume : Option (ClientKey × UInt64)}
    (hthread : s.threads thread = .retain [] removed resume) :
    Sound (({ s with counterCount := s.counterCount - removed } : ActiveRequestLimiter).goto thread
      (.unlock resume)) := by
  have hholds : (s.threads thread).holds = true := by rw [hthread]; rfl
  have hcleanup := (h.holder thread).mp hholds
  have hcount := h.count_eq
  rw [h.removed_eq hholds, hthread] at hcount
  change s.counterCount.toNat = s.counters.entries.length + removed.toNat at hcount
  have hsub : (s.counterCount - removed).toNat = s.counterCount.toNat - removed.toNat :=
    UInt64.toNat_sub_of_le _ _ (UInt64.le_iff_toNat_le.mpr (by omega))
  refine { h with count_eq := ?_, count_le := ?_, holder := ?_, limit_pos := ?_ }
  · have hafter : (({ s with counterCount := s.counterCount - removed } : ActiveRequestLimiter).goto thread
        (.unlock resume)).removed = 0 := by
      simp [ActiveRequestLimiter.removed, ActiveRequestLimiter.goto, hcleanup, AcquirePhase.removed]
    rw [hafter]
    change (s.counterCount - removed).toNat = s.counters.entries.length + 0
    omega
  · have hle := UInt64.le_iff_toNat_le.mp h.count_le
    refine UInt64.le_iff_toNat_le.mpr ?_
    change (s.counterCount - removed).toNat ≤ s.maxCounters.toNat
    omega
  · exact h.holder_update (iff_of_true rfl hcleanup) fun t _ => Iff.rfl
  · exact h.limit_update fun key limit hlimit => h.limit_pos thread key limit (by rw [hthread]; exact hlimit)

lemma Sound.unlock {resume : Option (ClientKey × UInt64)} {phase : AcquirePhase}
    (hthread : s.threads thread = .unlock resume) (hphase : phase.holds = false)
    (hlimit : ∀ key limit, phase.acquiring = some (key, limit) → resume = some (key, limit)) :
    Sound (({ s with cleanup := none } : ActiveRequestLimiter).goto thread phase) := by
  have hholds : (s.threads thread).holds = true := by rw [hthread]; rfl
  have hcleanup := (h.holder thread).mp hholds
  refine { h with count_eq := ?_, holder := ?_, limit_pos := ?_ }
  · have hcount := h.count_eq
    rw [h.removed_eq hholds, hthread] at hcount
    exact hcount
  · refine h.holder_update (by simp [hphase, ActiveRequestLimiter.goto]) fun t ht => ?_
    simp [hcleanup, Ne.symm ht, ActiveRequestLimiter.goto]
  · refine h.limit_update fun key limit hacquiring => h.limit_pos thread key limit ?_
    rw [hthread]
    exact hlimit key limit hacquiring

/-- A refused or a granted permit, from a counter that the map has for the key. -/
lemma Sound.acquireFrom {limit : UInt64} {counter : ℕ} (hlookup : s.counters.lookup key = some counter)
    (hholds : (s.threads thread).holds = false) : Sound (s.acquireFrom thread key limit counter) := by
  rw [ActiveRequestLimiter.acquireFrom]
  cases hnext : fetchUpdate limit (s.values counter) with
  | none => exact h.goto hholds rfl (by simp [AcquirePhase.acquiring])
  | some next => exact (h.grant hlookup hnext).goto hholds rfl (by simp [AcquirePhase.acquiring])

variable {shardOf : ClientKey → ℕ} {shards : ℕ}

end

/-- What a turn of a thread does: it is granted or refused a permit, makes a counter, goes on without
a change of the limiter, or does one of the four operations of a cleanup. -/
lemma advance_cases {t : ActiveRequestLimiter} (h : s.advance shardOf shards thread = some t) :
    (∃ key limit counter, (s.threads thread).acquiring = some (key, limit) ∧
      (s.threads thread).holds = false ∧ s.counters.lookup key = some counter ∧
      t = s.acquireFrom thread key limit counter) ∨
    (∃ key limit next, (s.threads thread).acquiring = some (key, limit) ∧ (s.threads thread).holds = false ∧
      s.counters.lookup key = none ∧ fetchUpdate s.maxCounters s.counterCount = some next ∧
      t = (s.create key next).goto thread (.idle (some ⟨s.allocated⟩))) ∨
    (∃ phase, (s.threads thread).holds = false ∧ phase.holds = false ∧
      (∀ pending, phase.acquiring = some pending → (s.threads thread).acquiring = some pending) ∧
      (∀ permit, phase ≠ .idle (some permit)) ∧ t = s.goto thread phase) ∨
    (∃ resume, s.threads thread = .tryLock resume ∧ s.cleanup = none ∧
      t = ({ s with cleanup := some thread } : ActiveRequestLimiter).goto thread
        (.retain (List.range shards) 0 resume)) ∨
    (∃ shard rest removed resume, s.threads thread = .retain (shard :: rest) removed resume ∧
      t = (s.sweep shardOf shard).goto thread
        (.retain rest (removed + UInt64.ofNat (s.stale shardOf shard)) resume)) ∨
    (∃ removed resume, s.threads thread = .retain [] removed resume ∧
      t = ({ s with counterCount := s.counterCount - removed } : ActiveRequestLimiter).goto thread
        (.unlock resume)) ∨
    (∃ resume phase, s.threads thread = .unlock resume ∧ phase.holds = false ∧ phase.acquiring = resume ∧
      (∀ permit, phase ≠ .idle (some permit)) ∧
      t = ({ s with cleanup := none } : ActiveRequestLimiter).goto thread phase) := by
  rw [ActiveRequestLimiter.advance] at h
  cases hthread : s.threads thread with
  | idle result => simp [hthread] at h
  | lookup key limit =>
    simp only [hthread] at h
    cases hlookup : s.counters.lookup key with
    | some counter =>
      simp only [hlookup, Option.some.injEq] at h
      exact .inl ⟨key, limit, counter, rfl, rfl, hlookup, h.symm⟩
    | none =>
      simp only [hlookup, Option.some.injEq] at h
      exact .inr (.inr (.inl ⟨.entry key limit false, rfl, rfl, fun _ => id, by simp, h.symm⟩))
  | entry key limit retriedAfterCleanup =>
    simp only [hthread] at h
    cases hlookup : s.counters.lookup key with
    | some counter =>
      simp only [hlookup, Option.some.injEq] at h
      exact .inl ⟨key, limit, counter, rfl, rfl, hlookup, h.symm⟩
    | none =>
      cases hnext : fetchUpdate s.maxCounters s.counterCount with
      | some next =>
        simp only [hlookup, hnext, Option.some.injEq] at h
        exact .inr (.inl ⟨key, limit, next, rfl, rfl, hlookup, rfl, h.symm⟩)
      | none =>
        simp only [hlookup, hnext, Option.some.injEq] at h
        refine .inr (.inr (.inl ⟨_, rfl, ?_, ?_, ?_, h.symm⟩)) <;>
          cases retriedAfterCleanup <;> simp [AcquirePhase.holds, AcquirePhase.acquiring]
  | tryLock resume =>
    simp only [hthread] at h
    cases hcleanup : s.cleanup with
    | some holder =>
      simp only [hcleanup, Option.some.injEq] at h
      exact .inr (.inr (.inl ⟨_, rfl, rfl, by simp [AcquirePhase.acquiring], by simp, h.symm⟩))
    | none =>
      simp only [hcleanup, Option.some.injEq] at h
      exact .inr (.inr (.inr (.inl ⟨resume, rfl, rfl, h.symm⟩)))
  | retain remaining removed resume =>
    cases remaining with
    | nil =>
      simp only [hthread, Option.some.injEq] at h
      exact .inr (.inr (.inr (.inr (.inr (.inl ⟨removed, resume, rfl, h.symm⟩)))))
    | cons shard rest =>
      simp only [hthread, Option.some.injEq] at h
      exact .inr (.inr (.inr (.inr (.inl ⟨shard, rest, removed, resume, rfl, h.symm⟩))))
  | unlock resume =>
    cases resume with
    | none =>
      simp only [hthread, Option.some.injEq] at h
      exact .inr (.inr (.inr (.inr (.inr (.inr ⟨_, _, rfl, rfl, rfl, by simp, h.symm⟩)))))
    | some pending =>
      simp only [hthread, Option.some.injEq] at h
      exact .inr (.inr (.inr (.inr (.inr (.inr ⟨_, _, rfl, rfl, rfl, by simp, h.symm⟩)))))

lemma Sound.advance {t : ActiveRequestLimiter} (h : Sound s) (hadvance : s.advance shardOf shards thread = some t) :
    Sound t := by
  rcases advance_cases hadvance with ⟨key, limit, counter, -, hholds, hlookup, rfl⟩ |
    ⟨key, limit, next, -, hholds, hlookup, hnext, rfl⟩ | ⟨phase, hholds, hphase, hpending, -, rfl⟩ |
    ⟨resume, hthread, hfree, rfl⟩ | ⟨shard, rest, removed, resume, hthread, rfl⟩ |
    ⟨removed, resume, hthread, rfl⟩ | ⟨resume, phase, hthread, hphase, hpending, -, rfl⟩
  · exact h.acquireFrom hlookup hholds
  · exact (h.create hlookup hnext).goto hholds rfl (by simp [AcquirePhase.acquiring])
  · exact h.goto hholds hphase fun key limit hacquiring => h.limit_pos thread key limit (hpending _ hacquiring)
  · exact h.lock hthread hfree
  · exact h.sweep hthread
  · exact h.subtract hthread
  · exact h.unlock hthread hphase fun key limit hacquiring => hpending ▸ hacquiring

lemma Sound.step {event : ActiveEvent} {t : ActiveRequestLimiter} (h : Sound s)
    (hstep : s.step shardOf shards event = some t) : Sound t := by
  cases event with
  | acquire thread key limit =>
    simp only [ActiveRequestLimiter.step] at hstep
    cases hthread : s.threads thread with
    | idle result =>
      simp only [hthread] at hstep
      split_ifs at hstep with hlimit
      obtain rfl := Option.some.inj hstep
      refine h.goto (by rw [hthread]; rfl) rfl fun key' limit' hacquiring => ?_
      obtain ⟨rfl, rfl⟩ := Prod.mk.inj (Option.some.inj hacquiring)
      exact hlimit
    | _ => simp [hthread] at hstep
  | cleanupInactive thread =>
    simp only [ActiveRequestLimiter.step] at hstep
    cases hthread : s.threads thread with
    | idle result =>
      simp only [hthread, Option.some.injEq] at hstep
      exact hstep ▸ h.goto (by rw [hthread]; rfl) rfl (by simp [AcquirePhase.acquiring])
    | _ => simp [hthread] at hstep
  | advance thread => exact h.advance hstep
  | drop permit => exact h.dropPermit hstep

/-! ### Permits that are granted -/

lemma Sound.live_acquireFrom {limit : UInt64} {counter : ℕ} {permit : ActiveRequestPermit} (h : Sound s)
    (hlookup : s.counters.lookup key = some counter) (hholds : (s.threads thread).holds = false)
    (hgranted : (s.acquireFrom thread key limit counter).threads thread = .idle (some permit)) :
    (s.acquireFrom thread key limit counter).live key ≤ limit.toNat ∧
      (key, permit) ∈ (s.acquireFrom thread key limit counter).permits := by
  have hsound : Sound (s.acquireFrom thread key limit counter) := h.acquireFrom hlookup hholds
  rw [ActiveRequestLimiter.acquireFrom] at hsound hgranted ⊢
  cases hnext : fetchUpdate limit (s.values counter) with
  | none => simp [hnext, ActiveRequestLimiter.goto] at hgranted
  | some next =>
    simp only [hnext] at hsound hgranted ⊢
    simp only [ActiveRequestLimiter.goto, Function.update_self, AcquirePhase.idle.injEq,
      Option.some.injEq] at hgranted
    obtain rfl := hgranted
    refine ⟨?_, List.mem_cons_self⟩
    rw [← hsound.value_eq key counter hlookup]
    change (Function.update s.values counter next counter).toNat ≤ _
    rw [Function.update_self]
    exact (fetchUpdate_eq_some hnext).2.2

lemma Sound.live_le_of_granted {t : ActiveRequestLimiter} {limit : UInt64} {permit : ActiveRequestPermit}
    (h : Sound s) (hacquiring : (s.threads thread).acquiring = some (key, limit))
    (hadvance : s.advance shardOf shards thread = some t) (hgranted : t.threads thread = .idle (some permit)) :
    t.live key ≤ limit.toNat ∧ (key, permit) ∈ t.permits := by
  have hpos := h.limit_pos thread key limit hacquiring
  rcases advance_cases hadvance with ⟨key', limit', counter, hpending, hholds, hlookup, rfl⟩ |
    ⟨key', limit', next, hpending, hholds, hlookup, hnext, rfl⟩ | ⟨phase, -, -, -, hphase, rfl⟩ |
    ⟨resume, -, -, rfl⟩ | ⟨shard, rest, removed, resume, -, rfl⟩ | ⟨removed, resume, -, rfl⟩ |
    ⟨resume, phase, -, -, -, hphase, rfl⟩
  · rw [hpending] at hacquiring
    obtain ⟨rfl, rfl⟩ := Prod.mk.inj (Option.some.inj hacquiring)
    exact h.live_acquireFrom hlookup hholds hgranted
  · rw [hpending] at hacquiring
    obtain ⟨rfl, rfl⟩ := Prod.mk.inj (Option.some.inj hacquiring)
    simp only [ActiveRequestLimiter.goto, Function.update_self, AcquirePhase.idle.injEq,
      Option.some.injEq] at hgranted
    obtain rfl := hgranted
    refine ⟨?_, List.mem_cons_self⟩
    have hone := (h.create hlookup hnext).value_eq key' s.allocated (AList.lookup_insert _)
    change (Function.update s.values s.allocated 1 s.allocated).toNat = _ at hone
    rw [Function.update_self] at hone
    change (s.create key' next).live key' ≤ _
    rw [← hone]
    exact UInt64.lt_iff_toNat_lt.mp hpos
  · simp [ActiveRequestLimiter.goto, hphase] at hgranted
  · simp [ActiveRequestLimiter.goto] at hgranted
  · simp [ActiveRequestLimiter.goto] at hgranted
  · simp [ActiveRequestLimiter.goto] at hgranted
  · simp [ActiveRequestLimiter.goto, hphase] at hgranted

lemma step_maxCounters {event : ActiveEvent} {t : ActiveRequestLimiter}
    (hstep : s.step shardOf shards event = some t) : t.maxCounters = s.maxCounters := by
  cases event with
  | acquire thread key limit =>
    simp only [ActiveRequestLimiter.step] at hstep
    split at hstep
    · split_ifs at hstep
      exact Option.some.inj hstep ▸ rfl
    · cases hstep
  | cleanupInactive thread =>
    simp only [ActiveRequestLimiter.step] at hstep
    split at hstep
    · exact Option.some.inj hstep ▸ rfl
    · cases hstep
  | advance thread =>
    rcases advance_cases hstep with ⟨key, limit, counter, -, -, -, rfl⟩ | ⟨key, limit, next, -, -, -, -, rfl⟩ |
      ⟨phase, -, -, -, -, rfl⟩ | ⟨resume, -, -, rfl⟩ | ⟨shard, rest, removed, resume, -, rfl⟩ |
      ⟨removed, resume, -, rfl⟩ | ⟨resume, phase, -, -, -, -, rfl⟩
    · rw [ActiveRequestLimiter.acquireFrom]
      cases fetchUpdate limit (s.values counter) <;> rfl
    all_goals rfl
  | drop permit =>
    obtain ⟨p, -, rfl⟩ := Option.map_eq_some_iff.mp hstep
    rfl

/-- Along every interleaving each key has one counter, which counts its live permits, a permit is
granted below its limit only, and the map keeps to its capacity. -/
theorem permits_counted {shardOf : ClientKey → ℕ} {shards : ℕ} {maxCounters : UInt64}
    {events : List ActiveEvent} {s : ActiveRequestLimiter}
    (hrun : Runs.Run (fun s event t => step shardOf shards s event = some t) (withMaxCounters maxCounters)
      events s) :
    (∀ key, s.live key = (s.value key).toNat) ∧
      (∀ p ∈ s.permits, s.counters.lookup p.1 = some p.2.counter) ∧
      (∀ thread key limit permit t, (s.threads thread).acquiring = some (key, limit) →
        s.step shardOf shards (.advance thread) = some t → t.threads thread = .idle (some permit) →
        t.live key ≤ limit.toNat ∧ (key, permit) ∈ t.permits) ∧
      s.counters.entries.length ≤ maxCounters.toNat ∧ s.counters.entries.length ≤ s.counterCount.toNat := by
  obtain ⟨h, hmax⟩ : Sound s ∧ s.maxCounters = maxCounters := by
    refine hrun.invariant (fun _ s => Sound s ∧ s.maxCounters = maxCounters) ?_ ⟨sound_new maxCounters, rfl⟩
    intro past s event t hstep hs
    exact ⟨hs.1.step hstep, (step_maxCounters hstep).trans hs.2⟩
  have hcount := h.count_eq
  have hle := UInt64.le_iff_toNat_le.mp h.count_le
  refine ⟨fun key => ?_, h.permit_counter, fun thread key limit permit t hacquiring hstep hgranted => ?_, ?_, ?_⟩
  · rw [value]
    cases hlookup : s.counters.lookup key with
    | none => exact h.live_eq_zero hlookup
    | some counter => exact (h.value_eq key counter hlookup).symm
  · exact h.live_le_of_granted hacquiring hstep hgranted
  · rw [← hmax]
    omega
  · omega

/-- Two clients and one counter: the cleanup makes room for the second client after the first one
has dropped its permit. -/
def handOver : List ActiveEvent :=
  [.acquire 0 ⟨.doh, .v4 1⟩ 1, .advance 0, .advance 0, .acquire 1 ⟨.doh, .v4 2⟩ 2, .advance 1, .advance 1,
    .drop 0, .advance 1, .advance 1, .advance 1, .advance 1, .advance 1, .acquire 0 ⟨.doh, .v4 2⟩ 2, .advance 0]

theorem permits_counted_hand_over :
    ∃ s : ActiveRequestLimiter,
      Runs.exec (step (fun _ => 0) 1) (withMaxCounters 1) handOver = some s ∧
        s.live ⟨.doh, .v4 2⟩ = 2 ∧ (s.value ⟨.doh, .v4 2⟩).toNat = 2 := by
  have hsome : (Runs.exec (step (fun _ => 0) 1) (withMaxCounters 1) handOver).isSome = true := by
    decide +kernel
  obtain ⟨s, hs⟩ := Option.isSome_iff_exists.mp hsome
  have hlive : (Runs.exec (step (fun _ => 0) 1) (withMaxCounters 1) handOver).map
      (fun s => s.live ⟨.doh, .v4 2⟩) = some 2 := by decide +kernel
  rw [hs, Option.map_some, Option.some.injEq] at hlive
  refine ⟨s, hs, hlive, ?_⟩
  rw [← (permits_counted (Runs.run_of_exec hs)).1, hlive]

end ActiveRequestLimiter

end Pingola
