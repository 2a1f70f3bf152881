import Pingola.Cache.Key
import Pingola.Config
import Pingola.Lib.Table
import Mathlib.Algebra.Order.Field.Rat
import Mathlib.Tactic.FieldSimp
import Mathlib.Tactic.Linarith
import Mathlib.Tactic.NormNum
import Mathlib.Tactic.Positivity

/-!
# Token buckets

`RateLimiter` of `limits.rs`, over exact rationals. A call of `allow` brings the instant that it
read before it reached the map; its bucket is refilled, charged and stamped in one section under the
guard of the entry. The bound on the calls that are allowed follows the instants in the order in
which they reach the bucket.
-/

namespace Pingola

inductive LimitZone where
  | static
  | http3Connection
  | navidromeStream
  | navidromeCover
  | navidromeApi
  | navidromeGrpc
  | vaultwardenAuth
  | vaultwardenHub
  | vaultwarden
  | couchdb
  | doh
  | adguardUi
  deriving DecidableEq

structure ClientKey where
  zone : LimitZone
  ip : IpAddr
  deriving DecidableEq

def maxRateBuckets : ℕ := 32768

def rateBucketIdle : ℕ := fromSecs 120

def rateCleanupInterval : ℕ := fromSecs 1

/-- `as_secs_f64` of a duration in nanoseconds. -/
def asSecs (duration : ℕ) : ℚ := duration / 1000000000

structure Bucket where
  tokens : ℚ
  updatedAt : ℕ
  deriving DecidableEq

structure RateLimiter where
  buckets : Table ClientKey Bucket
  bucketCount : ℕ
  maxBuckets : ℕ
  lastCleanup : ℕ

/-- A call of `allow` that read the instant `now`. `sampled` says that the tick of its thread asks
for a cleanup and finds the mutex free, `lockFree` that the mutex is free when the map is full. -/
structure AllowCall where
  key : ClientKey
  now : ℕ
  rate : ℚ
  burst : ℕ
  sampled : Bool := false
  lockFree : Bool := false

namespace Bucket

variable (bucket : Bucket) (call : AllowCall)

def refill : ℚ := min (bucket.tokens + asSecs (call.now - bucket.updatedAt) * call.rate) (call.burst + 1)

/-- The end of `allow`: refills the bucket and takes a token if there is one. -/
def take : Bucket × Bool :=
  if 1 ≤ bucket.refill call then (⟨bucket.refill call - 1, call.now⟩, true)
  else (⟨bucket.refill call, call.now⟩, false)

end Bucket

namespace RateLimiter

def withMaxBuckets (now maxBuckets : ℕ) : RateLimiter :=
  ⟨∅, 0, maxBuckets, if rateCleanupInterval ≤ now then now - rateCleanupInterval else now⟩

def new (now : ℕ) : RateLimiter := withMaxBuckets now maxRateBuckets

variable (limiter : RateLimiter) (call : AllowCall)

/-- `cleanup_idle` once it has the mutex. -/
def cleanupIdle (now : ℕ) : RateLimiter × Bool :=
  if now - limiter.lastCleanup < rateCleanupInterval then (limiter, false)
  else
    let keep := fun _ bucket => decide (now - bucket.updatedAt < rateBucketIdle)
    let removed := (limiter.buckets.entries.filter fun e => !keep e.1 e.2).length
    ({ limiter with
        buckets := limiter.buckets.retain keep
        bucketCount := limiter.bucketCount - removed
        lastCleanup := now }, true)

/-- The bucket of the key, which a vacant entry gets if there is room for one. -/
def reserve : Option (RateLimiter × Bucket) :=
  match limiter.buckets.lookup call.key with
  | some bucket => some (limiter, bucket)
  | none =>
    if limiter.bucketCount < limiter.maxBuckets then
      some ({ limiter with bucketCount := limiter.bucketCount + 1 }, ⟨call.burst + 1, call.now⟩)
    else none

/-- The section under the guard of the entry; `none` if the map is full. -/
def entry : Option (RateLimiter × Bool) :=
  (limiter.reserve call).map fun r =>
    ({ r.1 with buckets := r.1.buckets.insert call.key (r.2.take call).1 }, (r.2.take call).2)

/-- The section at the front of `allow` that cleans up now and then. -/
def sample : RateLimiter := if call.sampled then (limiter.cleanupIdle call.now).1 else limiter

def allow : RateLimiter × Bool :=
  let limiter := limiter.sample call
  match limiter.entry call with
  | some r => r
  | none =>
    if call.lockFree && (limiter.cleanupIdle call.now).2 then
      ((limiter.cleanupIdle call.now).1.entry call).getD ((limiter.cleanupIdle call.now).1, false)
    else (limiter, false)

/-- The answers of a sequence of calls, in the order in which they reach the limiter. -/
def answers : RateLimiter → List AllowCall → List Bool
  | _, [] => []
  | limiter, call :: calls => (limiter.allow call).2 :: answers (limiter.allow call).1 calls

/-- How many calls of a client are allowed. -/
def allowed (key : ClientKey) : RateLimiter → List AllowCall → ℕ
  | _, [] => 0
  | limiter, call :: calls =>
    (if call.key = key ∧ (limiter.allow call).2 = true then 1 else 0) + allowed key (limiter.allow call).1 calls

end RateLimiter

/-! ### Durations -/

lemma asSecs_nonneg (d : ℕ) : 0 ≤ asSecs d := by
  unfold asSecs
  positivity

lemma asSecs_add (d e : ℕ) : asSecs (d + e) = asSecs d + asSecs e := by
  simp only [asSecs, Nat.cast_add]
  ring

lemma asSecs_le {d e : ℕ} (h : d ≤ e) : asSecs d ≤ asSecs e := by
  have hcast : (d : ℚ) ≤ e := Nat.cast_le.mpr h
  unfold asSecs
  linarith

lemma asSecs_lt {d e : ℕ} (h : d < e) : asSecs d < asSecs e := by
  have hcast : (d : ℚ) < e := Nat.cast_lt.mpr h
  unfold asSecs
  linarith

/-- How far a sequence of instants moves forward, counted without the moves back. -/
def forward : List ℕ → ℕ
  | a :: b :: order => (b - a) + forward (b :: order)
  | _ => 0

lemma forward_le_cons (a : ℕ) (order : List ℕ) : forward order ≤ forward (a :: order) := by
  cases order with
  | nil => exact Nat.zero_le _
  | cons b order => exact Nat.le_add_left _ _

/-! ### One call -/

namespace Bucket

variable (bucket : Bucket) (call : AllowCall)

lemma refill_le_capacity : bucket.refill call ≤ call.burst + 1 := min_le_right _ _

lemma refill_le : bucket.refill call ≤
    bucket.tokens + asSecs (call.now - bucket.updatedAt) * call.rate := min_le_left _ _

lemma take_updatedAt : (bucket.take call).1.updatedAt = call.now := by
  unfold take
  split_ifs <;> rfl

variable {bucket call}

lemma take_of_le (h : 1 ≤ bucket.refill call) :
    bucket.take call = (⟨bucket.refill call - 1, call.now⟩, true) := if_pos h

lemma take_of_not_le (h : ¬1 ≤ bucket.refill call) :
    bucket.take call = (⟨bucket.refill call, call.now⟩, false) := if_neg h

variable (bucket call)

lemma refill_full {bucket : Bucket} {call : AllowCall}
    (h : (call.burst + 1 : ℚ) ≤ bucket.tokens + asSecs (call.now - bucket.updatedAt) * call.rate) :
    bucket.refill call = call.burst + 1 := min_eq_right h

lemma take_full {bucket : Bucket} {call : AllowCall} (h : bucket.refill call = call.burst + 1) :
    bucket.take call = (⟨call.burst, call.now⟩, true) := by
  rw [take_of_le (by rw [h]; simp), h, add_sub_cancel_right]

/-- A new bucket is full. -/
lemma take_new : Bucket.take ⟨call.burst + 1, call.now⟩ call = (⟨call.burst, call.now⟩, true) :=
  take_full (refill_full (by simp [asSecs]))

/-- A call that is allowed takes a token. -/
lemma take_tokens : (if (bucket.take call).2 = true then 1 else 0) + max (bucket.take call).1.tokens 0 =
    max (bucket.refill call) 0 := by
  by_cases hone : 1 ≤ bucket.refill call
  · rw [take_of_le hone, if_pos rfl, max_eq_left (sub_nonneg.mpr hone), max_eq_left (zero_le_one.trans hone)]
    ring
  · rw [take_of_not_le hone, if_neg Bool.false_ne_true, zero_add]

end Bucket

namespace RateLimiter

variable {limiter : RateLimiter} {call : AllowCall} {key : ClientKey}

lemma entry_of_lookup {bucket : Bucket} (h : limiter.buckets.lookup call.key = some bucket) :
    limiter.entry call =
      some ({ limiter with buckets := limiter.buckets.insert call.key (bucket.take call).1 },
        (bucket.take call).2) := by
  simp [entry, reserve, h]

lemma entry_of_vacant (h : limiter.buckets.lookup call.key = none)
    (hroom : limiter.bucketCount < limiter.maxBuckets) :
    limiter.entry call =
      some ({ limiter with
          bucketCount := limiter.bucketCount + 1
          buckets := limiter.buckets.insert call.key (Bucket.take ⟨call.burst + 1, call.now⟩ call).1 },
        (Bucket.take ⟨call.burst + 1, call.now⟩ call).2) := by
  simp [entry, reserve, h, hroom]

lemma entry_of_full (h : limiter.buckets.lookup call.key = none)
    (hfull : ¬limiter.bucketCount < limiter.maxBuckets) : limiter.entry call = none := by
  simp [entry, reserve, h, hfull]

lemma entry_lookup_ne {r : RateLimiter × Bool} (h : limiter.entry call = some r) (hne : key ≠ call.key) :
    r.1.buckets.lookup key = limiter.buckets.lookup key := by
  cases hlookup : limiter.buckets.lookup call.key with
  | some bucket =>
    rw [entry_of_lookup hlookup] at h
    obtain rfl := Option.some.inj h
    exact AList.lookup_insert_ne hne
  | none =>
    by_cases hroom : limiter.bucketCount < limiter.maxBuckets
    · rw [entry_of_vacant hlookup hroom] at h
      obtain rfl := Option.some.inj h
      exact AList.lookup_insert_ne hne
    · rw [entry_of_full hlookup hroom] at h
      cases h

/-- The answer is that of some bucket, which the key has from then on. -/
lemma entry_bucket {r : RateLimiter × Bool} (h : limiter.entry call = some r) :
    ∃ bucket : Bucket, r.2 = (bucket.take call).2 ∧
      r.1.buckets.lookup call.key = some (bucket.take call).1 := by
  obtain ⟨⟨reserved, bucket⟩, -, rfl⟩ := Option.map_eq_some_iff.mp h
  exact ⟨bucket, rfl, AList.lookup_insert _⟩

/-- No cleanup runs in the calls, and those of the client have one rate and one burst. -/
def Uninterrupted (key : ClientKey) (rate : ℚ) (burst : ℕ) (calls : List AllowCall) : Prop :=
  ∀ call ∈ calls, (call.sampled = false ∧ call.lockFree = false) ∧
    (call.key = key → call.rate = rate ∧ call.burst = burst)

/-- The instants of a client's calls, in the order in which they reach its bucket. -/
def instants (key : ClientKey) (calls : List AllowCall) : List ℕ :=
  (calls.filter fun call => call.key = key).map AllowCall.now

lemma allow_of_no_cleanup (h : call.sampled = false ∧ call.lockFree = false) :
    limiter.allow call = (limiter.entry call).getD (limiter, false) := by
  have hsample : limiter.sample call = limiter := by simp [sample, h.1]
  rw [allow, hsample]
  cases limiter.entry call with
  | none => simp [h.2]
  | some r => rfl

lemma allow_lookup_ne (h : call.sampled = false ∧ call.lockFree = false) (hne : call.key ≠ key) :
    (limiter.allow call).1.buckets.lookup key = limiter.buckets.lookup key := by
  rw [allow_of_no_cleanup h]
  cases hentry : limiter.entry call with
  | none => rfl
  | some r => exact entry_lookup_ne hentry hne.symm

lemma instants_cons_of_eq {calls : List AllowCall} (h : call.key = key) :
    instants key (call :: calls) = call.now :: instants key calls := by
  simp [instants, h]

lemma instants_cons_of_ne {calls : List AllowCall} (h : call.key ≠ key) :
    instants key (call :: calls) = instants key calls := by
  simp [instants, h]

section
variable {rate : ℚ} {burst : ℕ} {calls : List AllowCall}

/-- A client is paid out of the tokens of its bucket and of what they are refilled with. -/
lemma allowed_le_of_lookup {bucket : Bucket} (hrate : 0 ≤ rate) (hcalls : Uninterrupted key rate burst calls)
    (hbucket : limiter.buckets.lookup key = some bucket) :
    (limiter.allowed key calls : ℚ) ≤
      max bucket.tokens 0 + asSecs (forward (bucket.updatedAt :: instants key calls)) * rate := by
  induction calls generalizing limiter bucket with
  | nil => simp [allowed, instants, forward, asSecs]
  | cons call calls ih =>
    obtain ⟨hclean, hlimit⟩ := hcalls call List.mem_cons_self
    have hrest : Uninterrupted key rate burst calls := fun c hc => hcalls c (List.mem_cons_of_mem _ hc)
    by_cases hkey : call.key = key
    · obtain ⟨rfl, rfl⟩ := hlimit hkey
      subst hkey
      have hallow : limiter.allow call = _ := allow_of_no_cleanup hclean
      rw [entry_of_lookup hbucket, Option.getD_some] at hallow
      have hnext : (limiter.allow call).1.buckets.lookup call.key = some (bucket.take call).1 := by
        rw [hallow]
        exact AList.lookup_insert _
      have hafter := ih hrest hnext
      rw [Bucket.take_updatedAt] at hafter
      have hanswer : (limiter.allow call).2 = (bucket.take call).2 := by rw [hallow]
      have hpaid := bucket.take_tokens call
      have hrefill : max (bucket.refill call) 0 ≤
          max bucket.tokens 0 + asSecs (call.now - bucket.updatedAt) * call.rate := by
        have hcredit := mul_nonneg (asSecs_nonneg (call.now - bucket.updatedAt)) hrate
        refine max_le ((bucket.refill_le call).trans ?_) (add_nonneg (le_max_right _ _) hcredit)
        exact add_le_add_left (le_max_left _ _) _
      rw [instants_cons_of_eq rfl, forward, asSecs_add, allowed, hanswer]
      push_cast
      simp only [true_and]
      linarith
    · rw [allowed, instants_cons_of_ne hkey, if_neg (fun h => hkey h.1), Nat.zero_add]
      refine ih hrest ?_
      rw [allow_lookup_ne hclean hkey, hbucket]

/-- The first call starts from a full bucket at most. -/
lemma allowed_le (hrate : 0 ≤ rate) (hcalls : Uninterrupted key rate burst calls) :
    (limiter.allowed key calls : ℚ) ≤ burst + 1 + asSecs (forward (instants key calls)) * rate := by
  induction calls generalizing limiter with
  | nil =>
    simp only [allowed, instants, List.filter_nil, List.map_nil, forward, asSecs, Nat.cast_zero]
    positivity
  | cons call calls ih =>
    obtain ⟨hclean, hlimit⟩ := hcalls call List.mem_cons_self
    have hrest : Uninterrupted key rate burst calls := fun c hc => hcalls c (List.mem_cons_of_mem _ hc)
    have hallow : limiter.allow call = _ := allow_of_no_cleanup hclean
    by_cases hkey : call.key = key
    · obtain ⟨rfl, rfl⟩ := hlimit hkey
      subst hkey
      rw [instants_cons_of_eq rfl, allowed]
      cases hentry : limiter.entry call with
      | none =>
        -- the map is full and the bucket is still to come
        rw [hentry, Option.getD_none] at hallow
        have hgrow := mul_le_mul_of_nonneg_right
          (asSecs_le (forward_le_cons call.now (instants call.key calls))) hrate
        have hafter : (limiter.allowed call.key calls : ℚ) ≤ _ := ih hrest
        simp only [hallow, Bool.false_eq_true, and_false, if_false, Nat.zero_add]
        linarith
      | some r =>
        rw [hentry, Option.getD_some] at hallow
        obtain ⟨bucket, hanswer, hnext⟩ : ∃ bucket : Bucket, r.2 = (bucket.take call).2 ∧
            r.1.buckets.lookup call.key = some (bucket.take call).1 := entry_bucket hentry
        have hafter := allowed_le_of_lookup hrate hrest hnext
        have hpaid := bucket.take_tokens call
        have hcapacity : max (bucket.refill call) 0 ≤ call.burst + 1 :=
          max_le (bucket.refill_le_capacity call) (by positivity)
        rw [Bucket.take_updatedAt] at hafter
        rw [hallow, hanswer]
        push_cast
        simp only [true_and]
        linarith
    · rw [allowed, instants_cons_of_ne hkey, if_neg (fun h => hkey h.1), Nat.zero_add]
      exact ih hrest

end

/-- One call of the client at each instant. -/
def callsAt (key : ClientKey) (rate : ℚ) (burst : ℕ) (order : List ℕ) : List AllowCall :=
  order.map fun now => { key := key, now := now, rate := rate, burst := burst }

section
variable {rate : ℚ} {burst : ℕ} {order : List ℕ}

lemma uninterrupted_callsAt : Uninterrupted key rate burst (callsAt key rate burst order) := by
  intro call hcall
  obtain ⟨now, -, rfl⟩ := List.mem_map.mp hcall
  exact ⟨⟨rfl, rfl⟩, fun _ => ⟨rfl, rfl⟩⟩

lemma instants_callsAt : instants key (callsAt key rate burst order) = order := by
  simp [instants, callsAt, List.filter_map, Function.comp_def]

/-- A bucket that has a token for every call but the last, which the refills pay for, and that the
refills do not fill. -/
lemma allowed_eq_length {bucket : Bucket} (hrate : 0 ≤ rate)
    (hbucket : limiter.buckets.lookup key = some bucket) (hmost : (order.length : ℚ) - 1 ≤ bucket.tokens)
    (henough : (order.length : ℚ) ≤ bucket.tokens + asSecs (forward (bucket.updatedAt :: order)) * rate)
    (hfits : bucket.tokens + asSecs (forward (bucket.updatedAt :: order)) * rate ≤ burst + 1) :
    limiter.allowed key (callsAt key rate burst order) = order.length := by
  induction order generalizing limiter bucket with
  | nil => rfl
  | cons now order ih =>
    have hsum := asSecs_add (now - bucket.updatedAt) (forward (now :: order))
    rw [forward, hsum, add_mul] at henough hfits
    rw [List.length_cons, Nat.cast_add, Nat.cast_one] at henough hmost
    have hcredit := mul_nonneg (asSecs_nonneg (now - bucket.updatedAt)) hrate
    have hlater := mul_nonneg (asSecs_nonneg (forward (now :: order))) hrate
    set call : AllowCall := { key := key, now := now, rate := rate, burst := burst } with hcall
    have hrefill : bucket.refill call = bucket.tokens + asSecs (now - bucket.updatedAt) * rate :=
      min_eq_left (by simp only [hcall]; linarith)
    have hone : 1 ≤ bucket.refill call := by
      rw [hrefill]
      cases order with
      | nil =>
        simp only [forward, asSecs, Nat.cast_zero, zero_div, zero_mul, List.length_nil] at henough ⊢
        linarith
      | cons next order =>
        rw [List.length_cons, Nat.cast_add, Nat.cast_one] at hmost
        have hlength : (0 : ℚ) ≤ order.length := Nat.cast_nonneg _
        linarith
    have hallow : limiter.allow call =
        ({ limiter with buckets := limiter.buckets.insert key ⟨bucket.refill call - 1, now⟩ }, true) := by
      rw [allow_of_no_cleanup ⟨rfl, rfl⟩, entry_of_lookup hbucket, Bucket.take_of_le hone]
      rfl
    have hnext : (limiter.allow call).1.buckets.lookup key = some ⟨bucket.refill call - 1, now⟩ := by
      rw [hallow]
      exact AList.lookup_insert _
    have hrest := ih hnext (by rw [hrefill]; linarith) (by rw [hrefill]; linarith) (by rw [hrefill]; linarith)
    have hform : callsAt key rate burst (now :: order) = call :: callsAt key rate burst order := rfl
    rw [hform, allowed, hrest, hallow, if_pos ⟨rfl, rfl⟩, List.length_cons, Nat.add_comm]

lemma allowed_eq_length_of_vacant {first : ℕ} (hrate : 0 ≤ rate) (hvacant : limiter.buckets.lookup key = none)
    (hroom : limiter.bucketCount < limiter.maxBuckets) (hmost : order.length ≤ burst + 1)
    (henough : (order.length : ℚ) ≤ burst + asSecs (forward (first :: order)) * rate)
    (hfits : burst + asSecs (forward (first :: order)) * rate ≤ burst + 1) :
    limiter.allowed key (callsAt key rate burst (first :: order)) = (first :: order).length := by
  set call : AllowCall := { key := key, now := first, rate := rate, burst := burst } with hcall
  have hform : callsAt key rate burst (first :: order) = call :: callsAt key rate burst order := rfl
  have hallow : limiter.allow call =
      ({ limiter with
          bucketCount := limiter.bucketCount + 1
          buckets := limiter.buckets.insert key ⟨burst, first⟩ }, true) := by
    rw [allow_of_no_cleanup ⟨rfl, rfl⟩, entry_of_vacant hvacant hroom, Bucket.take_new]
    rfl
  have hnext : (limiter.allow call).1.buckets.lookup key = some ⟨burst, first⟩ := by
    rw [hallow]
    exact AList.lookup_insert _
  have hmost' : (order.length : ℚ) - 1 ≤ burst := by
    have hcast : (order.length : ℚ) ≤ (burst + 1 : ℕ) := Nat.cast_le.mpr hmost
    push_cast at hcast
    linarith
  rw [hform, allowed, allowed_eq_length hrate hnext hmost' henough hfits, hallow, if_pos ⟨rfl, rfl⟩,
    List.length_cons, Nat.add_comm]

end

/-- The calls of a client, in any order of their instants, keep to the rate exactly if the order
does not move forward further than the interval is long. -/
theorem allowed_le_iff (order : List ℕ) :
    (∀ (limiter : RateLimiter) (key : ClientKey) (rate : ℚ) (burst : ℕ) (calls : List AllowCall) (s t : ℕ),
      0 < rate → Uninterrupted key rate burst calls → instants key calls = order →
      (∀ now ∈ order, s ≤ now ∧ now ≤ t) →
      (limiter.allowed key calls : ℚ) ≤ burst + 1 + rate * asSecs (t - s)) ↔
    ∀ s t, (∀ now ∈ order, s ≤ now ∧ now ≤ t) → forward order ≤ t - s := by
  constructor
  · intro h s t hspan
    by_contra hlong
    rw [not_le] at hlong
    -- all calls are allowed if the burst lacks one token, which the refills add up to
    obtain ⟨first, second, rest, rfl⟩ : ∃ first second rest, order = first :: second :: rest := by
      rcases order with _ | ⟨first, _ | ⟨second, rest⟩⟩
      · simp [forward] at hlong
      · simp [forward] at hlong
      · exact ⟨first, second, rest, rfl⟩
    set order := first :: second :: rest with horder
    have hpos : 0 < asSecs (forward order) := (asSecs_nonneg _).trans_lt (asSecs_lt hlong)
    set rate : ℚ := 1 / asSecs (forward order) with hrate
    have hratePos : 0 < rate := one_div_pos.mpr hpos
    have hpaid : asSecs (forward order) * rate = 1 := mul_one_div_cancel hpos.ne'
    set key : ClientKey := ⟨.doh, .v4 0⟩
    have hcount : (RateLimiter.new 0).allowed key (callsAt key rate rest.length order) = order.length := by
      refine allowed_eq_length_of_vacant hratePos.le (AList.lookup_empty _) (by decide) ?_ ?_ ?_
      · rw [List.length_cons]
      · rw [← horder, hpaid, List.length_cons, Nat.cast_add, Nat.cast_one]
      · rw [← horder, hpaid]
    have hbound := h (.new 0) key rate rest.length _ s t hratePos uninterrupted_callsAt instants_callsAt hspan
    have hless : rate * asSecs (t - s) < 1 := by
      rw [← hpaid, mul_comm]
      exact mul_lt_mul_of_pos_right (asSecs_lt hlong) hratePos
    rw [hcount, horder, List.length_cons, List.length_cons] at hbound
    push_cast at hbound
    linarith
  · intro h limiter key rate burst calls s t hrate hcalls horder hspan
    have hle : (limiter.allowed key calls : ℚ) ≤ _ := allowed_le hrate.le hcalls
    have hforward := mul_le_mul_of_nonneg_right (asSecs_le (h s t hspan)) hrate.le
    rw [horder] at hle
    linarith

/-- Calls that reach the bucket in the order of their instants. -/
theorem allowed_le_iff_in_order :
    ((RateLimiter.new 0).allowed ⟨.doh, .v4 1⟩
        (callsAt ⟨.doh, .v4 1⟩ 1 1 [fromSecs 1, fromSecs 1, fromSecs 1, fromSecs 2]) : ℚ) ≤
      1 + 1 + 1 * asSecs (fromSecs 2 - fromSecs 1) := by
  have hforward : ∀ s t, (∀ now ∈ [fromSecs 1, fromSecs 1, fromSecs 1, fromSecs 2], s ≤ now ∧ now ≤ t) →
      forward [fromSecs 1, fromSecs 1, fromSecs 1, fromSecs 2] ≤ t - s := by
    intro s t hspan
    have hfirst := (hspan (fromSecs 1) (by simp)).1
    have hlast := (hspan (fromSecs 2) (by simp)).2
    simp only [forward, fromSecs] at hfirst hlast ⊢
    omega
  have hspan : ∀ now ∈ [fromSecs 1, fromSecs 1, fromSecs 1, fromSecs 2],
      fromSecs 1 ≤ now ∧ now ≤ fromSecs 2 := by
    decide
  have hbound := (allowed_le_iff _).mpr hforward (.new 0) ⟨.doh, .v4 1⟩ 1 1 _ (fromSecs 1) (fromSecs 2)
    one_pos uninterrupted_callsAt instants_callsAt hspan
  exact_mod_cast hbound

/-- Two clocks that are one second apart and take turns earn a token at every second call. -/
theorem allowed_exceeds_rate :
    (RateLimiter.new 0).allowed ⟨.doh, .v4 1⟩
        (callsAt ⟨.doh, .v4 1⟩ 1 0 [fromSecs 1, 0, fromSecs 1, 0, fromSecs 1]) = 3 ∧
      (0 + 1 + 1 * asSecs (fromSecs 1 - 0) : ℚ) = 2 := by
  constructor
  · decide +kernel
  · decide +kernel

end RateLimiter

end Pingola
