import Pingola.Limits.ActiveRequests
import Mathlib.Algebra.BigOperators.Pi
import Mathlib.Data.Fintype.BigOperators

/-!
# The capacity of the rate limiter

`RateLimiter` of `limits.rs` under threads that take turns. A turn is what a thread does under the
guard of a shard up to an update of an atomic, such an update, or an operation of the mutex around
`last_cleanup`. The entry of `allow` keeps the guard of its shard from the lookup that finds it vacant
until it is filled or given up, and `retain` goes from shard to shard.
-/

namespace Pingola

/-- How a call of `allow` ended: with the answer of its bucket, or because the map is full. -/
inductive AllowOutcome where
  | bucket (allowed : Bool)
  | full

/-- Who called `cleanup_idle`: nobody who waits for it, the sampled front of `allow`, or `allow` with
a full map. -/
inductive CleanupCaller where
  | sweep (now : ℕ)
  | sampled (call : AllowCall)
  | full (call : AllowCall)

/-- Where a thread stands. It holds the guard of its shard while its entry is `vacant` or `reserved`,
and the mutex from `locked` to `unlock`. -/
inductive AllowPhase where
  | idle (last : Option (AllowCall × AllowOutcome))
  | entry (call : AllowCall) (retriedAfterCleanup : Bool)
  | vacant (call : AllowCall) (retriedAfterCleanup : Bool)
  | reserved (call : AllowCall)
  | tryLock (caller : CleanupCaller)
  | locked (caller : CleanupCaller)
  | retain (shards : List ℕ) (removed : UInt64) (caller : CleanupCaller)
  | unlock (cleaned : Bool) (caller : CleanupCaller)

structure SharedRateLimiter (T : Type) where
  buckets : Table ClientKey Bucket
  bucketCount : UInt64
  maxBuckets : UInt64
  lastCleanup : ℕ
  mutex : Option T
  guards : ℕ → Option T
  threads : T → AllowPhase

/-- `tick` is what the counter of the thread yields for the call. -/
inductive RateEvent (T : Type) where
  | allow (thread : T) (call : AllowCall) (tick : UInt32)
  | cleanupIdle (thread : T) (now : ℕ)
  | advance (thread : T)

namespace CleanupCaller

def now : CleanupCaller → ℕ
  | .sweep now => now
  | .sampled call => call.now
  | .full call => call.now

/-- What the caller does with the result of `cleanup_idle`. -/
def resume (cleaned : Bool) : CleanupCaller → AllowPhase
  | .sweep _ => .idle none
  | .sampled call => .entry call false
  | .full call => if cleaned then .entry call true else .idle (some (call, .full))

end CleanupCaller

namespace SharedRateLimiter

variable {T : Type}

def withMaxBuckets (now : ℕ) (maxBuckets : UInt64) : SharedRateLimiter T :=
  ⟨∅, 0, maxBuckets, if rateCleanupInterval ≤ now then now - rateCleanupInterval else now, none,
    fun _ => none, fun _ => .idle none⟩

section

variable [DecidableEq T] (shardOf : ClientKey → ℕ) (shards : ℕ) (s : SharedRateLimiter T) (thread : T)

def goto (phase : AllowPhase) : SharedRateLimiter T :=
  { s with threads := Function.update s.threads thread phase }

def setGuard (shard : ℕ) (holder : Option T) : SharedRateLimiter T :=
  { s with guards := Function.update s.guards shard holder }

/-- The end of `allow`, with the bucket of its entry. -/
def take (call : AllowCall) (bucket : Bucket) : SharedRateLimiter T :=
  ({ s with buckets := s.buckets.insert call.key (bucket.take call).1 } : SharedRateLimiter T).goto thread
    (.idle (some (call, .bucket (bucket.take call).2)))

/-- The entry is filled, and its guard is free once the call is through. -/
def fill (call : AllowCall) : SharedRateLimiter T :=
  (s.take thread call ⟨call.burst + 1, call.now⟩).setGuard (shardOf call.key) none

def keeps (shard now : ℕ) (key : ClientKey) (bucket : Bucket) : Bool :=
  decide (shardOf key ≠ shard) || decide (now - bucket.updatedAt < rateBucketIdle)

/-- The part of `retain` under the guard of one shard. -/
def sweep (shard now : ℕ) : SharedRateLimiter T :=
  { s with buckets := s.buckets.retain (keeps shardOf shard now) }

/-- How many buckets that part removes. -/
def idle (shard now : ℕ) : ℕ := (s.buckets.entries.filter fun e => !keeps shardOf shard now e.1 e.2).length

/-- The next turn of a thread inside `allow` or `cleanup_idle`; `none` while another thread has the
guard that it needs. -/
def advance : Option (SharedRateLimiter T) :=
  match s.threads thread with
  | .idle _ => none
  | .entry call retriedAfterCleanup =>
    match s.guards (shardOf call.key) with
    | some _ => none
    | none =>
      match s.buckets.lookup call.key with
      | some bucket => some (s.take thread call bucket)
      | none =>
        some ((s.setGuard (shardOf call.key) (some thread)).goto thread (.vacant call retriedAfterCleanup))
  | .vacant call retriedAfterCleanup =>
    match fetchUpdate s.maxBuckets s.bucketCount with
    | some next => some (({ s with bucketCount := next } : SharedRateLimiter T).goto thread (.reserved call))
    | none =>
      some ((s.setGuard (shardOf call.key) none).goto thread
        (if retriedAfterCleanup then .idle (some (call, .full)) else .tryLock (.full call)))
  | .reserved call => some (s.fill shardOf thread call)
  | .tryLock caller =>
    match s.mutex with
    | some _ => some (s.goto thread (caller.resume false))
    | none => some (({ s with mutex := some thread } : SharedRateLimiter T).goto thread (.locked caller))
  | .locked caller =>
    if caller.now - s.lastCleanup < rateCleanupInterval then some (s.goto thread (.unlock false caller))
    else
      some (({ s with lastCleanup := caller.now } : SharedRateLimiter T).goto thread
        (.retain (List.range shards) 0 caller))
  | .retain (shard :: rest) removed caller =>
    match s.guards shard with
    | some _ => none
    | none =>
      some ((s.sweep shardOf shard caller.now).goto thread
        (.retain rest (removed + UInt64.ofNat (s.idle shardOf shard caller.now)) caller))
  | .retain [] removed caller =>
    some (({ s with bucketCount := s.bucketCount - removed } : SharedRateLimiter T).goto thread
      (.unlock true caller))
  | .unlock cleaned caller =>
    some (({ s with mutex := none } : SharedRateLimiter T).goto thread (caller.resume cleaned))

def step : RateEvent T → Option (SharedRateLimiter T)
  | .allow thread call tick =>
    match s.threads thread with
    | .idle _ =>
      some (s.goto thread (if tick &&& 0x3fff = 0x3fff then .tryLock (.sampled call) else .entry call false))
    | _ => none
  | .cleanupIdle thread now =>
    match s.threads thread with
    | .idle _ => some (s.goto thread (.tryLock (.sweep now)))
    | _ => none
  | .advance thread => s.advance shardOf shards thread

end

end SharedRateLimiter

/-! ### What a turn can do -/

namespace AllowPhase

/-- The slots that the thread has counted without a bucket: the one that it reserved, or those of the
buckets that it removed. -/
def slots : AllowPhase → UInt64
  | .reserved _ => 1
  | .retain _ removed _ => removed
  | _ => 0

/-- The key whose vacant entry the thread holds. -/
def held : AllowPhase → Option ClientKey
  | .vacant call _ => some call.key
  | .reserved call => some call.key
  | _ => none

/-- The key whose entry the thread found vacant and did not fill. -/
def unfilled : AllowPhase → Option ClientKey
  | .idle (some (call, .full)) => some call.key
  | .vacant call _ => some call.key
  | .tryLock (.full call) => some call.key
  | .locked (.full call) => some call.key
  | .retain _ _ (.full call) => some call.key
  | .unlock _ (.full call) => some call.key
  | _ => none

def isIdle : AllowPhase → Bool
  | .idle _ => true
  | _ => false

/-- A phase from which and to which a thread goes without the map or its count. -/
structure Outside (phase : AllowPhase) : Prop where
  slots : phase.slots = 0
  held : phase.held = none

end AllowPhase

lemma CleanupCaller.unfilled_resume {caller : CleanupCaller} {cleaned : Bool} {key : ClientKey}
    (h : (caller.resume cleaned).unfilled = some key) : (AllowPhase.tryLock caller).unfilled = some key := by
  cases caller with
  | sweep now => cases h
  | sampled call => cases h
  | full call =>
    cases cleaned with
    | true => cases h
    | false => exact h

lemma CleanupCaller.outside_resume (caller : CleanupCaller) (cleaned : Bool) : (caller.resume cleaned).Outside := by
  cases caller with
  | sweep now => exact ⟨rfl, rfl⟩
  | sampled call => exact ⟨rfl, rfl⟩
  | full call => cases cleaned <;> exact ⟨rfl, rfl⟩

namespace SharedRateLimiter

section

variable {T : Type} [DecidableEq T] {shardOf : ClientKey → ℕ} {shards : ℕ} {s t : SharedRateLimiter T}
  {thread : T}

/-- What a turn of a thread does: `allow` takes from its bucket, holds its vacant entry, reserves a slot,
fills the entry or gives it up, `cleanup_idle` sweeps a shard or subtracts what it removed, and all else
is outside the map. -/
lemma advance_cases (h : s.advance shardOf shards thread = some t) :
    (∃ call retried bucket, s.threads thread = .entry call retried ∧ s.guards (shardOf call.key) = none ∧
      s.buckets.lookup call.key = some bucket ∧ t = s.take thread call bucket) ∨
    (∃ call retried, s.threads thread = .entry call retried ∧ s.guards (shardOf call.key) = none ∧
      s.buckets.lookup call.key = none ∧
      t = (s.setGuard (shardOf call.key) (some thread)).goto thread (.vacant call retried)) ∨
    (∃ call retried next, s.threads thread = .vacant call retried ∧
      fetchUpdate s.maxBuckets s.bucketCount = some next ∧
      t = ({ s with bucketCount := next } : SharedRateLimiter T).goto thread (.reserved call)) ∨
    (∃ call retried phase, s.threads thread = .vacant call retried ∧ phase.Outside ∧
      (∀ key, phase.unfilled = some key → call.key = key) ∧
      t = (s.setGuard (shardOf call.key) none).goto thread phase) ∨
    (∃ call, s.threads thread = .reserved call ∧ t = s.fill shardOf thread call) ∨
    (∃ shard rest removed caller, s.threads thread = .retain (shard :: rest) removed caller ∧
      t = (s.sweep shardOf shard caller.now).goto thread
        (.retain rest (removed + UInt64.ofNat (s.idle shardOf shard caller.now)) caller)) ∨
    (∃ removed caller, s.threads thread = .retain [] removed caller ∧
      t = ({ s with bucketCount := s.bucketCount - removed } : SharedRateLimiter T).goto thread
        (.unlock true caller)) ∨
    (∃ mutex lastCleanup phase, (s.threads thread).slots = 0 ∧ phase.Outside ∧
      (∀ key, phase.unfilled = some key → (s.threads thread).unfilled = some key) ∧
      t = ({ s with mutex := mutex, lastCleanup := lastCleanup } : SharedRateLimiter T).goto thread phase) := by
  rw [advance] at h
  cases hthread : s.threads thread with
  | idle last => simp [hthread] at h
  | entry call retried =>
    simp only [hthread] at h
    cases hguard : s.guards (shardOf call.key) with
    | some holder => simp [hguard] at h
    | none =>
      cases hlookup : s.buckets.lookup call.key with
      | some bucket =>
        simp only [hguard, hlookup, Option.some.injEq] at h
        exact .inl ⟨call, retried, bucket, rfl, hguard, hlookup, h.symm⟩
      | none =>
        simp only [hguard, hlookup, Option.some.injEq] at h
        exact .inr (.inl ⟨call, retried, rfl, hguard, hlookup, h.symm⟩)
  | vacant call retried =>
    simp only [hthread] at h
    cases hnext : fetchUpdate s.maxBuckets s.bucketCount with
    | some next =>
      simp only [hnext, Option.some.injEq] at h
      exact .inr (.inr (.inl ⟨call, retried, next, rfl, rfl, h.symm⟩))
    | none =>
      simp only [hnext, Option.some.injEq] at h
      refine .inr (.inr (.inr (.inl ⟨call, retried, _, rfl, ?_, ?_, h.symm⟩)))
      · cases retried <;> exact ⟨rfl, rfl⟩
      · cases retried <;> exact fun key hkey => Option.some.inj hkey
  | reserved call =>
    simp only [hthread, Option.some.injEq] at h
    exact .inr (.inr (.inr (.inr (.inl ⟨call, rfl, h.symm⟩))))
  | tryLock caller =>
    simp only [hthread] at h
    cases hmutex : s.mutex with
    | some holder =>
      simp only [hmutex, Option.some.injEq] at h
      refine .inr (.inr (.inr (.inr (.inr (.inr (.inr ⟨s.mutex, s.lastCleanup, _, rfl, ?_, ?_, h.symm⟩))))))
      · exact caller.outside_resume false
      · exact fun key hkey => CleanupCaller.unfilled_resume hkey
    | none =>
      simp only [hmutex, Option.some.injEq] at h
      exact .inr (.inr (.inr (.inr (.inr (.inr (.inr
        ⟨some thread, s.lastCleanup, .locked caller, rfl, ⟨rfl, rfl⟩, fun key hkey => by
          cases caller <;> exact hkey, h.symm⟩))))))
  | locked caller =>
    simp only [hthread] at h
    split_ifs at h with hinterval
    · refine .inr (.inr (.inr (.inr (.inr (.inr (.inr ⟨s.mutex, s.lastCleanup, .unlock false caller, rfl,
        ⟨rfl, rfl⟩, fun key hkey => ?_, (Option.some.inj h).symm⟩))))))
      cases caller <;> exact hkey
    · refine .inr (.inr (.inr (.inr (.inr (.inr (.inr ⟨s.mutex, caller.now, .retain _ 0 caller, rfl,
        ⟨rfl, rfl⟩, fun key hkey => ?_, (Option.some.inj h).symm⟩))))))
      cases caller <;> exact hkey
  | retain remaining removed caller =>
    cases remaining with
    | nil =>
      simp only [hthread, Option.some.injEq] at h
      exact .inr (.inr (.inr (.inr (.inr (.inr (.inl ⟨removed, caller, rfl, h.symm⟩))))))
    | cons shard rest =>
      simp only [hthread] at h
      cases hguard : s.guards shard with
      | some holder => simp [hguard] at h
      | none =>
        simp only [hguard, Option.some.injEq] at h
        exact .inr (.inr (.inr (.inr (.inr (.inl ⟨shard, rest, removed, caller, rfl, h.symm⟩)))))
  | unlock cleaned caller =>
    simp only [hthread, Option.some.injEq] at h
    refine .inr (.inr (.inr (.inr (.inr (.inr (.inr ⟨none, s.lastCleanup, _, rfl, ?_, ?_, h.symm⟩))))))
    · exact caller.outside_resume cleaned
    · intro key hkey
      have hcaller := CleanupCaller.unfilled_resume hkey
      cases caller <;> exact hcaller

/-- A thread that starts a call, or goes on with one. -/
lemma step_cases {event : RateEvent T} (h : s.step shardOf shards event = some t) :
    (∃ thread phase, (s.threads thread).isIdle = true ∧ phase.Outside ∧ phase.unfilled = none ∧
      t = s.goto thread phase) ∨ ∃ thread, event = .advance thread ∧ s.advance shardOf shards thread = some t := by
  cases event with
  | allow thread call tick =>
    rw [step] at h
    cases hthread : s.threads thread with
    | idle last =>
      simp only [hthread, Option.some.injEq] at h
      refine .inl ⟨thread, _, by rw [hthread]; rfl, ?_, ?_, h.symm⟩
      · split <;> exact ⟨rfl, rfl⟩
      · split <;> rfl
    | _ => simp [hthread] at h
  | cleanupIdle thread now =>
    rw [step] at h
    cases hthread : s.threads thread with
    | idle last =>
      simp only [hthread, Option.some.injEq] at h
      exact .inl ⟨thread, _, by rw [hthread]; rfl, ⟨rfl, rfl⟩, rfl, h.symm⟩
    | _ => simp [hthread] at h
  | advance thread => exact .inr ⟨thread, rfl, h⟩

lemma step_maxBuckets {event : RateEvent T} (hstep : s.step shardOf shards event = some t) :
    t.maxBuckets = s.maxBuckets := by
  rcases step_cases hstep with ⟨thread, phase, -, -, -, rfl⟩ | ⟨thread, -, hadvance⟩
  · rfl
  · rcases advance_cases hadvance with ⟨call, retried, bucket, -, -, -, rfl⟩ | ⟨call, retried, -, -, -, rfl⟩ |
      ⟨call, retried, next, -, -, rfl⟩ | ⟨call, retried, phase, -, -, -, rfl⟩ | ⟨call, -, rfl⟩ |
      ⟨shard, rest, removed, caller, -, rfl⟩ | ⟨removed, caller, -, rfl⟩ |
      ⟨mutex, lastCleanup, phase, -, -, -, rfl⟩
    all_goals rfl

/-- A thread comes to an entry that it does not fill only where the entry is vacant. -/
lemma unfilled_advance (h : s.advance shardOf shards thread = some t) (key : ClientKey) :
    ∃ phase, t.threads = Function.update s.threads thread phase ∧
      (phase.unfilled = some key → (s.threads thread).unfilled = some key ∨ s.buckets.lookup key = none) := by
  rcases advance_cases h with ⟨call, retried, bucket, hthread, hguard, hlookup, rfl⟩ |
    ⟨call, retried, hthread, hguard, hlookup, rfl⟩ | ⟨call, retried, next, hthread, hnext, rfl⟩ |
    ⟨call, retried, phase, hthread, hto, hkey, rfl⟩ | ⟨call, hthread, rfl⟩ |
    ⟨shard, rest, removed, caller, hthread, rfl⟩ | ⟨removed, caller, hthread, rfl⟩ |
    ⟨mutex, lastCleanup, phase, hfrom, hto, hkey, rfl⟩
  · exact ⟨_, rfl, fun hunfilled => by cases hunfilled⟩
  · refine ⟨_, rfl, fun hunfilled => .inr ?_⟩
    obtain rfl : call.key = key := Option.some.inj hunfilled
    exact hlookup
  · exact ⟨_, rfl, fun hunfilled => by cases hunfilled⟩
  · refine ⟨_, rfl, fun hunfilled => .inl ?_⟩
    rw [hthread, ← hkey key hunfilled]
    rfl
  · exact ⟨_, rfl, fun hunfilled => by cases hunfilled⟩
  · refine ⟨_, rfl, fun hunfilled => .inl ?_⟩
    rw [hthread]
    cases caller <;> exact hunfilled
  · refine ⟨_, rfl, fun hunfilled => .inl ?_⟩
    rw [hthread]
    cases caller <;> exact hunfilled
  · exact ⟨_, rfl, fun hunfilled => .inl (hkey key hunfilled)⟩

lemma unfilled_step {event : RateEvent T} {key : ClientKey} (hstep : s.step shardOf shards event = some t)
    (hpresent : (s.buckets.lookup key).isSome = true) (hunfilled : (s.threads thread).unfilled ≠ some key) :
    (t.threads thread).unfilled ≠ some key := by
  obtain ⟨mover, phase, hthreads, hphase⟩ : ∃ mover phase, t.threads = Function.update s.threads mover phase ∧
      (phase.unfilled = some key → (s.threads mover).unfilled = some key) := by
    rcases step_cases hstep with ⟨mover, phase, -, -, hnone, rfl⟩ | ⟨mover, -, hadvance⟩
    · exact ⟨mover, phase, rfl, fun h => by rw [hnone] at h; cases h⟩
    · obtain ⟨phase, hthreads, hphase⟩ := unfilled_advance hadvance key
      refine ⟨mover, phase, hthreads, fun h => (hphase h).resolve_right fun hnone => ?_⟩
      rw [hnone] at hpresent
      cases hpresent
  rw [hthreads]
  by_cases hmover : thread = mover
  · subst hmover
    rw [Function.update_self]
    exact fun h => hunfilled (hphase h)
  · rw [Function.update_of_ne hmover]
    exact hunfilled

end

/-! ### The invariant -/

section

variable {T : Type} [Fintype T]

/-- The slots that are counted and have no bucket. -/
def slots (s : SharedRateLimiter T) : ℕ := ∑ thread, (s.threads thread).slots.toNat

structure Sound (shardOf : ClientKey → ℕ) (s : SharedRateLimiter T) : Prop where
  count_eq : s.bucketCount.toNat = s.buckets.entries.length + s.slots
  count_le : s.bucketCount ≤ s.maxBuckets
  held : ∀ thread key, (s.threads thread).held = some key →
    s.guards (shardOf key) = some thread ∧ s.buckets.lookup key = none

lemma sound_new (shardOf : ClientKey → ℕ) (now : ℕ) (maxBuckets : UInt64) :
    Sound shardOf (withMaxBuckets now maxBuckets : SharedRateLimiter T) where
  count_eq := by simp [withMaxBuckets, slots, AllowPhase.slots]
  count_le := UInt64.le_iff_toNat_le.mpr (Nat.zero_le _)
  held := fun thread key h => by cases h

lemma slots_le (s : SharedRateLimiter T) (thread : T) : (s.threads thread).slots.toNat ≤ s.slots :=
  Finset.single_le_sum (f := fun i => (s.threads i).slots.toNat) (fun _ _ => Nat.zero_le _)
    (Finset.mem_univ thread)

/-- A thread holds no entry in a shard whose guard it does not have. -/
lemma Sound.shard_ne {shardOf : ClientKey → ℕ} {s : SharedRateLimiter T} {thread : T} {key : ClientKey}
    {shard : ℕ} (h : Sound shardOf s) (hheld : (s.threads thread).held = some key)
    (hguard : s.guards shard ≠ some thread) : shardOf key ≠ shard := by
  intro heq
  apply hguard
  rw [← heq]
  exact (h.held thread key hheld).1

end

variable {T : Type} [Fintype T] [DecidableEq T] {shardOf : ClientKey → ℕ} {shards : ℕ}
  {s t : SharedRateLimiter T} {thread : T}

lemma slots_goto (s : SharedRateLimiter T) (thread : T) (phase : AllowPhase) :
    (s.goto thread phase).slots + (s.threads thread).slots.toNat = s.slots + phase.slots.toNat := by
  have hupdate : (fun i => (Function.update s.threads thread phase i).slots.toNat) =
      Function.update (fun i => (s.threads i).slots.toNat) thread phase.slots.toNat := by
    funext i
    by_cases hi : i = thread
    · subst hi
      simp
    · simp [hi]
  have herase := Finset.sum_erase_add Finset.univ (fun i => (s.threads i).slots.toNat) (Finset.mem_univ thread)
  change ∑ i, (Function.update s.threads thread phase i).slots.toNat + _ = s.slots + _
  rw [hupdate, Finset.sum_update_of_mem (Finset.mem_univ thread), Finset.sdiff_singleton_eq_erase, slots,
    ← herase]
  omega

section

variable (h : Sound shardOf s)
include h

/-- A turn keeps the count if it pays for the buckets that it adds with slots of the thread, and
removes them for slots. -/
lemma Sound.turn {phase : AllowPhase} (hthreads : t.threads = s.threads)
    (hcount : t.bucketCount.toNat + s.buckets.entries.length + (s.threads thread).slots.toNat =
      s.bucketCount.toNat + t.buckets.entries.length + phase.slots.toNat)
    (hle : t.bucketCount ≤ t.maxBuckets)
    (hself : ∀ key, phase.held = some key →
      t.guards (shardOf key) = some thread ∧ t.buckets.lookup key = none)
    (hother : ∀ other key, other ≠ thread → (s.threads other).held = some key →
      t.guards (shardOf key) = some other ∧ t.buckets.lookup key = none) :
    Sound shardOf (t.goto thread phase) where
  count_eq := by
    have hslots := slots_goto t thread phase
    have hsame : t.slots = s.slots := by rw [slots, slots, hthreads]
    have hsound := h.count_eq
    rw [hsame, hthreads] at hslots
    change t.bucketCount.toNat = t.buckets.entries.length + (t.goto thread phase).slots
    omega
  count_le := hle
  held := by
    intro other key hheld
    change (Function.update t.threads thread phase other).held = some key at hheld
    by_cases heq : other = thread
    · subst heq
      rw [Function.update_self] at hheld
      exact hself key hheld
    · rw [Function.update_of_ne heq, hthreads] at hheld
      exact hother other key heq hheld

/-- A turn outside the map. -/
lemma Sound.outside {phase : AllowPhase} {mutex : Option T} {lastCleanup : ℕ} (hfrom : (s.threads thread).slots = 0)
    (hto : phase.Outside) :
    Sound shardOf (({ s with mutex := mutex, lastCleanup := lastCleanup } : SharedRateLimiter T).goto thread
      phase) := by
  refine h.turn rfl ?_ h.count_le ?_ fun other key _ => h.held other key
  · rw [hfrom, hto.slots]
  · intro key hheld
    rw [hto.held] at hheld
    cases hheld

lemma Sound.take {call : AllowCall} {retried : Bool} {bucket : Bucket}
    (hthread : s.threads thread = .entry call retried) (hguard : s.guards (shardOf call.key) = none)
    (hlookup : s.buckets.lookup call.key = some bucket) : Sound shardOf (s.take thread call bucket) := by
  refine h.turn rfl ?_ h.count_le (fun key hheld => by cases hheld) ?_
  · rw [hthread, Table.length_insert_of_some hlookup]
    rfl
  · intro other key _ hheld
    have hshard : shardOf key ≠ shardOf call.key := h.shard_ne hheld (by simp [hguard])
    refine ⟨(h.held other key hheld).1, ?_⟩
    rw [AList.lookup_insert_ne fun heq => hshard (by rw [heq])]
    exact (h.held other key hheld).2

lemma Sound.vacate {call : AllowCall} {retried : Bool} (hthread : s.threads thread = .entry call retried)
    (hguard : s.guards (shardOf call.key) = none) (hlookup : s.buckets.lookup call.key = none) :
    Sound shardOf ((s.setGuard (shardOf call.key) (some thread)).goto thread (.vacant call retried)) := by
  refine h.turn rfl (by rw [hthread]; rfl) h.count_le ?_ ?_
  · intro key hheld
    obtain rfl : call.key = key := Option.some.inj hheld
    exact ⟨Function.update_self .., hlookup⟩
  · intro other key _ hheld
    have hshard : shardOf key ≠ shardOf call.key := h.shard_ne hheld (by simp [hguard])
    refine ⟨?_, (h.held other key hheld).2⟩
    change Function.update s.guards _ _ _ = _
    rw [Function.update_of_ne hshard]
    exact (h.held other key hheld).1

lemma Sound.reserve {call : AllowCall} {retried : Bool} {next : UInt64}
    (hthread : s.threads thread = .vacant call retried) (hnext : fetchUpdate s.maxBuckets s.bucketCount = some next) :
    Sound shardOf (({ s with bucketCount := next } : SharedRateLimiter T).goto thread (.reserved call)) := by
  obtain ⟨-, hcount, hmax⟩ := ActiveRequestLimiter.fetchUpdate_eq_some hnext
  refine h.turn rfl ?_ (UInt64.le_iff_toNat_le.mpr hmax) ?_ fun other key _ => h.held other key
  · rw [hthread]
    change next.toNat + s.buckets.entries.length + 0 = s.bucketCount.toNat + s.buckets.entries.length + 1
    omega
  · intro key hheld
    apply h.held thread key
    rw [hthread]
    exact hheld

omit [DecidableEq T] in
/-- The other threads keep their entries when a thread gives up the guard of its own. -/
lemma Sound.held_release {key key' : ClientKey} {other : T} (hheld : (s.threads thread).held = some key)
    (hne : other ≠ thread) (hother : (s.threads other).held = some key') :
    Function.update s.guards (shardOf key) none (shardOf key') = some other ∧
      key' ≠ key ∧ s.buckets.lookup key' = none := by
  have hshard : shardOf key' ≠ shardOf key := by
    apply h.shard_ne hother
    rw [(h.held thread key hheld).1]
    intro heq
    exact hne (Option.some.inj heq).symm
  refine ⟨?_, fun heq => hshard (by rw [heq]), (h.held other key' hother).2⟩
  rw [Function.update_of_ne hshard]
  exact (h.held other key' hother).1

lemma Sound.giveUp {call : AllowCall} {retried : Bool} {phase : AllowPhase}
    (hthread : s.threads thread = .vacant call retried) (hto : phase.Outside) :
    Sound shardOf ((s.setGuard (shardOf call.key) none).goto thread phase) := by
  have hheld : (s.threads thread).held = some call.key := by rw [hthread]; rfl
  refine h.turn rfl (by rw [hthread, hto.slots]; rfl) h.count_le ?_ ?_
  · intro key hkey
    rw [hto.held] at hkey
    cases hkey
  · intro other key hne hother
    obtain ⟨hguard, -, hlookup⟩ := h.held_release hheld hne hother
    exact ⟨hguard, hlookup⟩

lemma Sound.fill {call : AllowCall} (hthread : s.threads thread = .reserved call) :
    Sound shardOf (s.fill shardOf thread call) := by
  have hheld : (s.threads thread).held = some call.key := by rw [hthread]; rfl
  refine h.turn (t := (⟨s.buckets.insert call.key _, s.bucketCount, s.maxBuckets, s.lastCleanup, s.mutex,
    Function.update s.guards (shardOf call.key) none, s.threads⟩ : SharedRateLimiter T)) rfl ?_ h.count_le
    (fun key hkey => by cases hkey) ?_
  · rw [hthread, Table.length_insert_of_none (h.held thread _ hheld).2]
    change s.bucketCount.toNat + s.buckets.entries.length + 1 =
      s.bucketCount.toNat + (s.buckets.entries.length + 1) + 0
    omega
  · intro other key hne hother
    obtain ⟨hguard, hkey, hlookup⟩ := h.held_release hheld hne hother
    exact ⟨hguard, by rw [AList.lookup_insert_ne hkey]; exact hlookup⟩

lemma Sound.sweep {shard : ℕ} {rest : List ℕ} {removed : UInt64} {caller : CleanupCaller}
    (hthread : s.threads thread = .retain (shard :: rest) removed caller) :
    Sound shardOf ((s.sweep shardOf shard caller.now).goto thread
      (.retain rest (removed + UInt64.ofNat (s.idle shardOf shard caller.now)) caller)) := by
  refine h.turn rfl ?_ h.count_le (fun key hkey => by cases hkey) ?_
  · have hlength := Table.length_retain (keeps shardOf shard caller.now) s.buckets
    have hidle : s.idle shardOf shard caller.now =
      (s.buckets.entries.filter fun e => !keeps shardOf shard caller.now e.1 e.2).length := rfl
    have hcount := h.count_eq
    have hslots := s.slots_le thread
    have hsize := s.bucketCount.toNat_lt
    rw [hthread] at hslots ⊢
    change removed.toNat ≤ s.slots at hslots
    change s.bucketCount.toNat + s.buckets.entries.length + removed.toNat = s.bucketCount.toNat +
      (s.buckets.retain (keeps shardOf shard caller.now)).entries.length +
        (removed + UInt64.ofNat (s.idle shardOf shard caller.now)).toNat
    rw [UInt64.toNat_add, UInt64.toNat_ofNat']
    omega
  · intro other key _ hheld
    refine ⟨(h.held other key hheld).1, ?_⟩
    change (s.buckets.retain _).lookup key = none
    rw [Table.lookup_retain, (h.held other key hheld).2]
    rfl

lemma Sound.subtract {removed : UInt64} {caller : CleanupCaller}
    (hthread : s.threads thread = .retain [] removed caller) :
    Sound shardOf (({ s with bucketCount := s.bucketCount - removed } : SharedRateLimiter T).goto thread
      (.unlock true caller)) := by
  have hcount := h.count_eq
  have hmax := UInt64.le_iff_toNat_le.mp h.count_le
  have hslots : removed.toNat ≤ s.slots := by
    have hle := s.slots_le thread
    rwa [hthread] at hle
  have hsub : (s.bucketCount - removed).toNat = s.bucketCount.toNat - removed.toNat :=
    UInt64.toNat_sub_of_le _ _ (UInt64.le_iff_toNat_le.mpr (by omega))
  refine h.turn rfl ?_ ?_ (fun key hkey => by cases hkey) fun other key _ => h.held other key
  · rw [hthread]
    change (s.bucketCount - removed).toNat + s.buckets.entries.length + removed.toNat =
      s.bucketCount.toNat + s.buckets.entries.length + 0
    omega
  · apply UInt64.le_iff_toNat_le.mpr
    change (s.bucketCount - removed).toNat ≤ s.maxBuckets.toNat
    omega

lemma Sound.advance (hadvance : s.advance shardOf shards thread = some t) : Sound shardOf t := by
  rcases advance_cases hadvance with ⟨call, retried, bucket, hthread, hguard, hlookup, rfl⟩ |
    ⟨call, retried, hthread, hguard, hlookup, rfl⟩ | ⟨call, retried, next, hthread, hnext, rfl⟩ |
    ⟨call, retried, phase, hthread, hto, -, rfl⟩ | ⟨call, hthread, rfl⟩ |
    ⟨shard, rest, removed, caller, hthread, rfl⟩ | ⟨removed, caller, hthread, rfl⟩ |
    ⟨mutex, lastCleanup, phase, hfrom, hto, -, rfl⟩
  · exact h.take hthread hguard hlookup
  · exact h.vacate hthread hguard hlookup
  · exact h.reserve hthread hnext
  · exact h.giveUp hthread hto
  · exact h.fill hthread
  · exact h.sweep hthread
  · exact h.subtract hthread
  · exact h.outside hfrom hto

lemma Sound.step {event : RateEvent T} (hstep : s.step shardOf shards event = some t) : Sound shardOf t := by
  rcases step_cases hstep with ⟨thread, phase, hidle, hto, -, rfl⟩ | ⟨thread, -, hadvance⟩
  · apply h.outside _ hto
    cases hthread : s.threads thread with
    | idle last => rfl
    | _ => simp [hthread, AllowPhase.isIdle] at hidle
  · exact h.advance hadvance

end

/-- Along every interleaving the limiter counts at least its buckets and at most its capacity, and
exactly its buckets when no call is under way. A call that finds its bucket gets the answer of the
bucket, and a call whose bucket is there from its start on does not end because the map is full. -/
theorem bucket_count_bounded {now : ℕ} {maxBuckets : UInt64} {events : List (RateEvent T)}
    (hrun : Runs.Run (fun s event t => step shardOf shards s event = some t) (withMaxBuckets now maxBuckets)
      events s) :
    s.buckets.entries.length ≤ s.bucketCount.toNat ∧ s.bucketCount ≤ maxBuckets ∧
      ((∀ thread, (s.threads thread).isIdle = true) → s.bucketCount.toNat = s.buckets.entries.length) ∧
      (∀ thread call retried t, s.threads thread = .entry call retried →
        (s.buckets.lookup call.key).isSome = true → s.step shardOf shards (.advance thread) = some t →
        ∃ allowed, t.threads thread = .idle (some (call, .bucket allowed))) ∧
      ∀ thread call tick t more u, s.step shardOf shards (.allow thread call tick) = some t →
        Runs.Run (fun s event t => step shardOf shards s event = some t ∧
          (s.buckets.lookup call.key).isSome = true) t more u →
        u.threads thread ≠ .idle (some (call, .full)) := by
  obtain ⟨h, hmax⟩ : Sound shardOf s ∧ s.maxBuckets = maxBuckets := by
    refine hrun.invariant (fun _ s => Sound shardOf s ∧ s.maxBuckets = maxBuckets) ?_
      ⟨sound_new shardOf now maxBuckets, rfl⟩
    intro past s event t hstep hs
    exact ⟨hs.1.step hstep, (step_maxBuckets hstep).trans hs.2⟩
  have hcount := h.count_eq
  refine ⟨by omega, hmax ▸ h.count_le, ?_, ?_, ?_⟩
  · intro hidle
    have hslots : s.slots = 0 := by
      apply Finset.sum_eq_zero
      intro thread _
      cases hthread : s.threads thread with
      | idle last => rfl
      | _ => simpa [hthread, AllowPhase.isIdle] using hidle thread
    omega
  · intro thread call retried t hthread hpresent hstep
    obtain ⟨bucket, hlookup⟩ := Option.isSome_iff_exists.mp hpresent
    rw [step, advance, hthread] at hstep
    cases hguard : s.guards (shardOf call.key) with
    | some holder => simp [hguard] at hstep
    | none =>
      simp only [hguard, hlookup, Option.some.injEq] at hstep
      exact ⟨(bucket.take call).2, by rw [← hstep]; exact Function.update_self ..⟩
  · intro thread call tick t more u hstart hmore hfull
    have hunfilled : (u.threads thread).unfilled ≠ some call.key := by
      refine hmore.invariant (fun _ s => (s.threads thread).unfilled ≠ some call.key) ?_ ?_
      · intro past s event t hstep hs
        exact unfilled_step hstep.1 hstep.2 hs
      · rw [step] at hstart
        cases hthread : s.threads thread with
        | idle last =>
          simp only [hthread, Option.some.injEq] at hstart
          rw [← hstart]
          change (Function.update s.threads thread _ thread).unfilled ≠ _
          rw [Function.update_self]
          split <;> exact fun h => by cases h
        | _ => simp [hthread] at hstart
    exact hunfilled (by rw [hfull]; rfl)

/-- The second client finds the map full; the bucket of the first one is idle by then and makes room. -/
def reclaim : List (RateEvent (Fin 2)) :=
  [.allow 0 ⟨⟨.navidromeApi, .v4 1⟩, fromSecs 1000, 1, 0, false, false⟩ 1, .advance 0, .advance 0, .advance 0,
    .allow 1 ⟨⟨.navidromeApi, .v4 2⟩, fromSecs 1601, 1, 0, false, false⟩ 1, .advance 1, .advance 1, .advance 1,
    .advance 1, .advance 1, .advance 1, .advance 1, .advance 1, .advance 1, .advance 1]

theorem bucket_count_bounded_reclaim :
    ∃ s : SharedRateLimiter (Fin 2),
      Runs.exec (step (fun _ => 0) 1) (withMaxBuckets (fromSecs 1000) 1) reclaim = some s ∧
        s.buckets.keys = [⟨.navidromeApi, .v4 2⟩] ∧ s.bucketCount.toNat = s.buckets.entries.length := by
  have hsome : (Runs.exec (step (fun _ => 0) 1) (withMaxBuckets (fromSecs 1000) 1) reclaim).isSome = true := by
    decide +kernel
  obtain ⟨s, hs⟩ := Option.isSome_iff_exists.mp hsome
  have hafter : (Runs.exec (step (fun _ => 0) 1) (withMaxBuckets (fromSecs 1000) 1) reclaim).map
      (fun s => (s.buckets.keys, decide (∀ thread, (s.threads thread).isIdle = true))) =
        some ([⟨.navidromeApi, .v4 2⟩], true) := by decide +kernel
  rw [hs, Option.map_some, Option.some.injEq, Prod.mk.injEq, decide_eq_true_eq] at hafter
  exact ⟨s, hs, hafter.1, (bucket_count_bounded (Runs.run_of_exec hs)).2.2.1 hafter.2⟩

end SharedRateLimiter

end Pingola
