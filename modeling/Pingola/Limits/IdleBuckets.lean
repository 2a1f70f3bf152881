import Pingola.Gateway.Transparency
import Pingola.Limits.RateLimiter

/-!
# Removal of idle buckets

`cleanup_idle` forgets the buckets that were not used for two minutes, and a client whose bucket was
forgotten starts again with a full one. The limiter is compared with buckets that are never removed,
for the rates and bursts that the gateway takes from its configuration.
-/

namespace Pingola
open ByteText

def RouteClass.limitZone : RouteClass → LimitZone
  | .navidromeStream => .navidromeStream
  | .navidromeCover => .navidromeCover
  | .navidromeApi => .navidromeApi
  | .navidromeGrpc => .navidromeGrpc
  | .vaultwardenAuth => .vaultwardenAuth
  | .vaultwardenHub => .vaultwardenHub
  | .vaultwarden => .vaultwarden
  | .couchdb => .couchdb
  | .doh => .doh
  | .adguardUi => .adguardUi

/-- The rate and the burst of the calls in a zone: those of the plans of its route, or those of
`admit_http3_connection`. -/
def zoneLimit (config : Config) : LimitZone → Option (ℚ × ℕ)
  | .static => none
  | .http3Connection =>
    config.server.http3ConnectionRatePerSecond.map fun rate => (rate, config.server.http3ConnectionBurst)
  | .navidromeStream => effectiveRateLimit config .navidromeStream
  | .navidromeCover => effectiveRateLimit config .navidromeCover
  | .navidromeApi => effectiveRateLimit config .navidromeApi
  | .navidromeGrpc => effectiveRateLimit config .navidromeGrpc
  | .vaultwardenAuth => effectiveRateLimit config .vaultwardenAuth
  | .vaultwardenHub => effectiveRateLimit config .vaultwardenHub
  | .vaultwarden => effectiveRateLimit config .vaultwarden
  | .couchdb => effectiveRateLimit config .couchdb
  | .doh => effectiveRateLimit config .doh
  | .adguardUi => effectiveRateLimit config .adguardUi

lemma zoneLimit_limitZone (config : Config) (route : RouteClass) :
    zoneLimit config route.limitZone = effectiveRateLimit config route := by
  cases route <;> rfl

/-- Buckets that are never removed, one for every client that called. -/
abbrev LastingBuckets := ClientKey → Option Bucket

namespace LastingBuckets

def bucket (buckets : LastingBuckets) (call : AllowCall) : Bucket :=
  (buckets call.key).getD ⟨call.burst + 1, call.now⟩

def allow (buckets : LastingBuckets) (call : AllowCall) : LastingBuckets × Bool :=
  (Function.update buckets call.key (some ((buckets.bucket call).take call).1),
    ((buckets.bucket call).take call).2)

def answers : LastingBuckets → List AllowCall → List Bool
  | _, [] => []
  | buckets, call :: calls => (buckets.allow call).2 :: answers (buckets.allow call).1 calls

def after (buckets : LastingBuckets) (calls : List AllowCall) : LastingBuckets :=
  calls.foldl (fun buckets call => (buckets.allow call).1) buckets

lemma answers_append (buckets : LastingBuckets) (calls later : List AllowCall) :
    buckets.answers (calls ++ later) = buckets.answers calls ++ (buckets.after calls).answers later := by
  induction calls generalizing buckets with
  | nil => rfl
  | cons call calls ih => rw [List.cons_append, answers, answers, ih, List.cons_append]; rfl

lemma length_answers (buckets : LastingBuckets) (calls : List AllowCall) :
    (buckets.answers calls).length = calls.length := by
  induction calls generalizing buckets with
  | nil => rfl
  | cons call calls ih => rw [answers, List.length_cons, List.length_cons, ih]

end LastingBuckets

namespace RateLimiter

def after (limiter : RateLimiter) (calls : List AllowCall) : RateLimiter :=
  calls.foldl (fun limiter call => (limiter.allow call).1) limiter

lemma answers_append (limiter : RateLimiter) (calls later : List AllowCall) :
    limiter.answers (calls ++ later) = limiter.answers calls ++ (limiter.after calls).answers later := by
  induction calls generalizing limiter with
  | nil => rfl
  | cons call calls ih => rw [List.cons_append, answers, answers, ih, List.cons_append]; rfl

/-- A bucket for the client, or room for one. -/
def HasRoom (limiter : RateLimiter) (key : ClientKey) : Prop :=
  limiter.buckets.lookup key ≠ none ∨ limiter.bucketCount < limiter.maxBuckets

/-- Every call of a sequence finds a bucket or room for one. -/
def Roomy : RateLimiter → List AllowCall → Prop
  | _, [] => True
  | limiter, call :: calls => limiter.HasRoom call.key ∧ Roomy (limiter.allow call).1 calls

lemma roomy_append (limiter : RateLimiter) (calls later : List AllowCall) :
    Roomy limiter (calls ++ later) ↔ Roomy limiter calls ∧ Roomy (limiter.after calls) later := by
  induction calls generalizing limiter with
  | nil => simp [Roomy, after]
  | cons call calls ih => rw [List.cons_append, Roomy, Roomy, ih, and_assoc]; rfl

/-- The limiter has the lasting buckets apart from some that were idle for two minutes. -/
structure Mirrors (now : ℕ) (limiter : RateLimiter) (lasting : LastingBuckets) : Prop where
  counted : limiter.bucketCount = limiter.buckets.entries.length
  bounded : limiter.bucketCount ≤ limiter.maxBuckets
  kept : ∀ key bucket, limiter.buckets.lookup key = some bucket → lasting key = some bucket
  idle : ∀ key bucket, limiter.buckets.lookup key = none → lasting key = some bucket →
    rateBucketIdle ≤ now - bucket.updatedAt
  nonneg : ∀ key bucket, lasting key = some bucket → 0 ≤ bucket.tokens

variable {now : ℕ} {limiter : RateLimiter} {lasting : LastingBuckets} {call : AllowCall}

lemma Mirrors.new (created maxBuckets : ℕ) :
    Mirrors created (withMaxBuckets created maxBuckets) fun _ => none where
  counted := rfl
  bounded := Nat.zero_le _
  kept := fun key bucket h => by simp [withMaxBuckets] at h
  idle := fun key bucket _ h => by cases h
  nonneg := fun key bucket h => by cases h

lemma Mirrors.later {now' : ℕ} (h : Mirrors now limiter lasting) (hnow : now ≤ now') :
    Mirrors now' limiter lasting :=
  { h with idle := fun key bucket hnone hsome => (h.idle key bucket hnone hsome).trans (by omega) }

lemma Mirrors.cleanupIdle (h : Mirrors now limiter lasting) :
    Mirrors now (limiter.cleanupIdle now).1 lasting := by
  rw [RateLimiter.cleanupIdle]
  split_ifs with hinterval
  · exact h
  · have hlength := Table.length_retain
      (fun (_ : ClientKey) (bucket : Bucket) => decide (now - bucket.updatedAt < rateBucketIdle)) limiter.buckets
    have hcounted := h.counted
    have hbounded := h.bounded
    refine ⟨?_, ?_, fun key bucket hsome => ?_, fun key bucket hnone hsome => ?_, h.nonneg⟩
    · dsimp only
      omega
    · dsimp only
      omega
    · rw [Table.lookup_retain, Option.filter_eq_some_iff] at hsome
      exact h.kept key bucket hsome.1
    · cases hlookup : limiter.buckets.lookup key with
      | none => exact h.idle key bucket hlookup hsome
      | some found =>
        have hfound := h.kept key found hlookup
        rw [hsome] at hfound
        obtain rfl := Option.some.inj hfound
        rw [Table.lookup_retain, hlookup, Option.filter_some] at hnone
        by_contra hrecent
        simp [not_le.mp hrecent] at hnone

lemma HasRoom.cleanupIdle {key : ClientKey} (hroom : limiter.HasRoom key) (h : Mirrors now limiter lasting) :
    (limiter.cleanupIdle now).1.HasRoom key := by
  rw [RateLimiter.cleanupIdle]
  split_ifs with hinterval
  · exact hroom
  · have hbounded := h.bounded
    have hcounted := h.counted
    rw [HasRoom]
    dsimp only
    rcases hroom with hsome | hcount
    · obtain ⟨bucket, hlookup⟩ := Option.ne_none_iff_exists'.mp hsome
      by_cases hrecent : now - bucket.updatedAt < rateBucketIdle
      · left
        simp [Table.lookup_retain, hlookup, hrecent]
      · -- its bucket goes, which makes room
        right
        have hmem : Sigma.mk key bucket ∈ limiter.buckets.entries.filter
            fun e => !decide (now - e.2.updatedAt < rateBucketIdle) := by
          rw [List.mem_filter]
          exact ⟨AList.mem_lookup_iff.mp hlookup, by simp [not_lt.mp hrecent]⟩
        have hremoved := List.length_pos_of_mem hmem
        have hpresent := List.length_pos_of_mem (List.mem_filter.mp hmem).1
        omega
    · right
      omega

/-- A bucket that was idle for two minutes is full again. -/
lemma take_of_idle {bucket : Bucket} (hidle : rateBucketIdle ≤ call.now - bucket.updatedAt)
    (hnonneg : 0 ≤ bucket.tokens) (hlimit : (call.burst + 1 : ℚ) ≤ 120 * call.rate) :
    bucket.take call = (⟨call.burst, call.now⟩, true) := by
  have hidleSecs : 120 ≤ asSecs (call.now - bucket.updatedAt) := by
    have hsecs : asSecs rateBucketIdle = 120 := by norm_num [asSecs, rateBucketIdle, fromSecs]
    exact hsecs ▸ asSecs_le hidle
  have hburst : (0 : ℚ) ≤ call.burst := Nat.cast_nonneg _
  have hrate : 0 ≤ call.rate := by linarith
  have hcredit := mul_le_mul_of_nonneg_right hidleSecs hrate
  exact Bucket.take_full (Bucket.refill_full (by linarith))

lemma take_nonneg {bucket : Bucket} (hnonneg : 0 ≤ bucket.tokens)
    (hlimit : (call.burst + 1 : ℚ) ≤ 120 * call.rate) : 0 ≤ (bucket.take call).1.tokens := by
  have hburst : (0 : ℚ) ≤ call.burst := Nat.cast_nonneg _
  have hcredit := mul_nonneg (asSecs_nonneg (call.now - bucket.updatedAt)) (by linarith : 0 ≤ call.rate)
  by_cases hone : 1 ≤ bucket.refill call
  · rw [Bucket.take_of_le hone]
    exact sub_nonneg.mpr hone
  · rw [Bucket.take_of_not_le hone]
    exact le_min (add_nonneg hnonneg hcredit) (by linarith)

lemma Mirrors.insert {key : ClientKey} {bucket : Bucket} {count : ℕ} (h : Mirrors now limiter lasting)
    (hnonneg : 0 ≤ bucket.tokens) (hcount : count = (limiter.buckets.insert key bucket).entries.length)
    (hbounded : count ≤ limiter.maxBuckets) :
    Mirrors now { limiter with buckets := limiter.buckets.insert key bucket, bucketCount := count }
      (Function.update lasting key (some bucket)) := by
  refine ⟨hcount, hbounded, fun k b hb => ?_, fun k b hnone hb => ?_, fun k b hb => ?_⟩
  · by_cases hk : k = key
    · subst hk
      rwa [AList.lookup_insert, ← Function.update_self k (some bucket) lasting] at hb
    · rw [AList.lookup_insert_ne hk] at hb
      rw [Function.update_of_ne hk]
      exact h.kept k b hb
  · by_cases hk : k = key
    · subst hk
      rw [AList.lookup_insert] at hnone
      cases hnone
    · rw [AList.lookup_insert_ne hk] at hnone
      rw [Function.update_of_ne hk] at hb
      exact h.idle k b hnone hb
  · by_cases hk : k = key
    · subst hk
      rw [Function.update_self] at hb
      exact Option.some.inj hb ▸ hnonneg
    · rw [Function.update_of_ne hk] at hb
      exact h.nonneg k b hb

lemma Mirrors.entry (h : Mirrors call.now limiter lasting) (hroom : limiter.HasRoom call.key)
    (hlimit : (call.burst + 1 : ℚ) ≤ 120 * call.rate) :
    ∃ r, limiter.entry call = some r ∧ r.2 = (lasting.allow call).2 ∧
      Mirrors call.now r.1 (lasting.allow call).1 := by
  have hcounted := h.counted
  cases hlookup : limiter.buckets.lookup call.key with
  | some bucket =>
    have hbucket : lasting.bucket call = bucket := by
      rw [LastingBuckets.bucket, h.kept _ _ hlookup, Option.getD_some]
    refine ⟨_, entry_of_lookup hlookup, by rw [LastingBuckets.allow, hbucket], ?_⟩
    rw [LastingBuckets.allow, hbucket]
    exact h.insert (take_nonneg (h.nonneg _ _ (h.kept _ _ hlookup)) hlimit)
      (by rw [Table.length_insert_of_some hlookup, hcounted]) h.bounded
  | none =>
    have hcount : limiter.bucketCount < limiter.maxBuckets := hroom.resolve_left fun hne => hne hlookup
    have htake : (lasting.bucket call).take call = (⟨call.burst, call.now⟩, true) := by
      rw [LastingBuckets.bucket]
      cases hlasting : lasting call.key with
      | none => exact Bucket.take_new call
      | some bucket => exact take_of_idle (h.idle _ _ hlookup hlasting) (h.nonneg _ _ hlasting) hlimit
    refine ⟨_, entry_of_vacant hlookup hcount, by rw [LastingBuckets.allow, htake, Bucket.take_new], ?_⟩
    rw [LastingBuckets.allow, htake, Bucket.take_new]
    exact h.insert (Nat.cast_nonneg _) (by rw [Table.length_insert_of_none hlookup, hcounted]) hcount

/-- Under the condition on rate and burst a call cannot tell the limiter from lasting buckets. -/
lemma Mirrors.allow (h : Mirrors now limiter lasting) (hnow : now ≤ call.now)
    (hroom : limiter.HasRoom call.key) (hlimit : (call.burst + 1 : ℚ) ≤ 120 * call.rate) :
    (limiter.allow call).2 = (lasting.allow call).2 ∧
      Mirrors call.now (limiter.allow call).1 (lasting.allow call).1 := by
  have hlater := h.later hnow
  have hsample : Mirrors call.now (limiter.sample call) lasting ∧ (limiter.sample call).HasRoom call.key := by
    rw [sample]
    split_ifs
    · exact ⟨hlater.cleanupIdle, hroom.cleanupIdle hlater⟩
    · exact ⟨hlater, hroom⟩
  obtain ⟨r, hentry, hanswer, hmirrors⟩ := hsample.1.entry hsample.2 hlimit
  have hallow : limiter.allow call = r := by
    rw [RateLimiter.allow]
    simp only [hentry]
  rw [hallow]
  exact ⟨hanswer, hmirrors⟩

lemma Mirrors.answers_eq {calls : List AllowCall} (h : Mirrors now limiter lasting)
    (hordered : (now :: calls.map AllowCall.now).Pairwise (· ≤ ·)) (hroomy : Roomy limiter calls)
    (hlimit : ∀ call ∈ calls, (call.burst + 1 : ℚ) ≤ 120 * call.rate) :
    limiter.answers calls = lasting.answers calls := by
  induction calls generalizing now limiter lasting with
  | nil => rfl
  | cons call calls ih =>
    rw [List.map_cons, List.pairwise_cons] at hordered
    obtain ⟨hanswer, hnext⟩ := h.allow (hordered.1 call.now List.mem_cons_self) hroomy.1
      (hlimit call List.mem_cons_self)
    rw [RateLimiter.answers, LastingBuckets.answers, hanswer,
      ih hnext hordered.2 hroomy.2 fun c hc => hlimit c (List.mem_cons_of_mem _ hc)]

/-! ### Calls at one instant -/

lemma take_at_once {k : ℕ} (hk : k ≤ call.burst) :
    Bucket.take ⟨(k + 1 : ℕ), call.now⟩ call = (⟨k, call.now⟩, true) := by
  have hcast : ((k + 1 : ℕ) : ℚ) ≤ call.burst + 1 := by exact_mod_cast Nat.add_le_add_right hk 1
  have hrefill : Bucket.refill ⟨(k + 1 : ℕ), call.now⟩ call = (k + 1 : ℕ) := by
    simpa [Bucket.refill, asSecs] using hcast
  have hone : 1 ≤ Bucket.refill ⟨(k + 1 : ℕ), call.now⟩ call := by
    rw [hrefill]
    push_cast
    linarith [Nat.cast_nonneg (α := ℚ) k]
  rw [Bucket.take_of_le hone, hrefill]
  push_cast
  rw [add_sub_cancel_right]

lemma sample_eq_self (h : call.sampled = true → call.now - limiter.lastCleanup < rateCleanupInterval) :
    limiter.sample call = limiter := by
  rw [sample]
  split_ifs with hsampled
  · rw [RateLimiter.cleanupIdle, if_pos (h hsampled)]
  · rfl

/-- A bucket with as many tokens as there are calls at its instant allows them all. -/
lemma answers_replicate {k : ℕ} (hk : k ≤ call.burst + 1)
    (hquiet : call.sampled = true → call.now - limiter.lastCleanup < rateCleanupInterval)
    (hbucket : limiter.buckets.lookup call.key = some ⟨k, call.now⟩) :
    limiter.answers (List.replicate k call) = List.replicate k true ∧
      Roomy limiter (List.replicate k call) ∧
      ∃ buckets : Table ClientKey Bucket, buckets.lookup call.key = some ⟨0, call.now⟩ ∧
        limiter.after (List.replicate k call) = { limiter with buckets := buckets } := by
  induction k generalizing limiter with
  | zero => exact ⟨rfl, trivial, limiter.buckets, by simpa using hbucket, rfl⟩
  | succ k ih =>
    have hallow : limiter.allow call =
        ({ limiter with buckets := limiter.buckets.insert call.key ⟨k, call.now⟩ }, true) := by
      rw [RateLimiter.allow, sample_eq_self hquiet]
      simp only [entry_of_lookup hbucket, take_at_once (Nat.le_of_succ_le_succ hk)]
    have hnext : (limiter.allow call).1.buckets.lookup call.key = some ⟨k, call.now⟩ := by
      rw [hallow]
      exact AList.lookup_insert _
    have hquiet' : call.sampled = true → call.now - (limiter.allow call).1.lastCleanup < rateCleanupInterval := by
      rw [hallow]
      exact hquiet
    obtain ⟨hanswers, hroomy, buckets, hlookup, hafter⟩ := ih (by omega) hquiet' hnext
    rw [List.replicate_succ]
    refine ⟨?_, ⟨.inl (by simp [hbucket]), hroomy⟩, buckets, hlookup, ?_⟩
    · rw [RateLimiter.answers, hanswers, hallow, ← List.replicate_succ]
    · have hstep : limiter.after (call :: List.replicate k call) =
          (limiter.allow call).1.after (List.replicate k call) := rfl
      rw [hstep, hafter, hallow]

/-- A client without a bucket can call as often as the capacity says. -/
lemma answers_replicate_of_vacant (limiter : RateLimiter) (call : AllowCall)
    (hvacant : (limiter.sample call).buckets.lookup call.key = none) (hroom : limiter.HasRoom call.key)
    (hcount : (limiter.sample call).bucketCount < (limiter.sample call).maxBuckets)
    (hquiet : call.sampled = true → call.now - (limiter.sample call).lastCleanup < rateCleanupInterval) :
    limiter.answers (List.replicate (call.burst + 1) call) = List.replicate (call.burst + 1) true ∧
      Roomy limiter (List.replicate (call.burst + 1) call) ∧
      ∃ buckets : Table ClientKey Bucket, buckets.lookup call.key = some ⟨0, call.now⟩ ∧
        limiter.after (List.replicate (call.burst + 1) call) =
          { limiter.sample call with
            bucketCount := (limiter.sample call).bucketCount + 1
            buckets := buckets } := by
  have hallow : limiter.allow call =
      ({ limiter.sample call with
          bucketCount := (limiter.sample call).bucketCount + 1
          buckets := (limiter.sample call).buckets.insert call.key ⟨call.burst, call.now⟩ }, true) := by
    rw [RateLimiter.allow]
    simp only [entry_of_vacant hvacant hcount, Bucket.take_new]
  have hnext : (limiter.allow call).1.buckets.lookup call.key = some ⟨call.burst, call.now⟩ := by
    rw [hallow]
    exact AList.lookup_insert _
  have hquiet' : call.sampled = true → call.now - (limiter.allow call).1.lastCleanup < rateCleanupInterval := by
    rw [hallow]
    exact hquiet
  obtain ⟨hanswers, hroomy, buckets, hlookup, hafter⟩ := answers_replicate (Nat.le_succ _) hquiet' hnext
  rw [List.replicate_succ]
  refine ⟨?_, ⟨hroom, hroomy⟩, buckets, hlookup, ?_⟩
  · rw [RateLimiter.answers, hanswers, hallow, ← List.replicate_succ]
  · have hstep : limiter.after (call :: List.replicate call.burst call) =
        (limiter.allow call).1.after (List.replicate call.burst call) := rfl
    rw [hstep, hafter, hallow]

lemma paid_of_allow (h : (lasting.allow call).2 = true) :
    ∃ tokens : ℚ, (lasting.allow call).1 call.key = some ⟨tokens, call.now⟩ ∧ 0 ≤ tokens ∧
      tokens + 1 ≤ (lasting.bucket call).tokens +
        asSecs (call.now - (lasting.bucket call).updatedAt) * call.rate := by
  rw [LastingBuckets.allow] at h ⊢
  have hone : 1 ≤ (lasting.bucket call).refill call := by
    by_contra hless
    rw [Bucket.take_of_not_le hless] at h
    cases h
  refine ⟨(lasting.bucket call).refill call - 1, ?_, sub_nonneg.mpr hone, ?_⟩
  · rw [Bucket.take_of_le hone]
    exact Function.update_self _ _ _
  · rw [sub_add_cancel]
    exact (lasting.bucket call).refill_le call

/-- Lasting buckets pay for all calls at one instant. -/
lemma paid_of_answers {n : ℕ}
    (h : lasting.answers (List.replicate (n + 1) call) = List.replicate (n + 1) true) :
    ∃ tokens : ℚ, lasting.after (List.replicate (n + 1) call) call.key = some ⟨tokens, call.now⟩ ∧
      0 ≤ tokens ∧ tokens + (n + 1) ≤ (lasting.bucket call).tokens +
        asSecs (call.now - (lasting.bucket call).updatedAt) * call.rate := by
  induction n generalizing lasting with
  | zero =>
    obtain ⟨tokens, hlookup, hnonneg, hpaid⟩ := paid_of_allow (List.cons.inj h).1
    exact ⟨tokens, hlookup, hnonneg, by simpa using hpaid⟩
  | succ n ih =>
    obtain ⟨first, hfirst, -, hpaid⟩ := paid_of_allow (List.cons.inj h).1
    obtain ⟨tokens, hlookup, hnonneg, hrest⟩ := ih (List.cons.inj h).2
    have hbucket : (lasting.allow call).1.bucket call = ⟨first, call.now⟩ := by
      rw [LastingBuckets.bucket, hfirst, Option.getD_some]
    rw [hbucket] at hrest
    refine ⟨tokens, hlookup, hnonneg, ?_⟩
    simp only [Nat.sub_self, asSecs, Nat.cast_zero, zero_div, zero_mul, add_zero] at hrest
    push_cast
    linarith

lemma eq_of_forall₂ {answers lasting : List Bool} (hall : ∀ answer ∈ answers, answer = true)
    (h : List.Forall₂ (fun answer lasting => answer = true → lasting = true) answers lasting) :
    lasting = answers := by
  induction h with
  | nil => rfl
  | cons hhead _ ih =>
    have hfirst := hall _ List.mem_cons_self
    rw [hhead hfirst, hfirst, ih fun answer hmem => hall answer (List.mem_cons_of_mem _ hmem)]

/-- A client spends its burst, waits until its bucket is removed and spends the burst again. -/
lemma answers_spent_twice (first second : AllowCall) {created maxBuckets : ℕ} (hmax : 0 < maxBuckets)
    (hfirst : first.sampled = false) (hsecond : second.sampled = true) (hkey : second.key = first.key)
    (hcreated : created ≤ first.now) (hlater : second.now = first.now + rateBucketIdle) :
    (withMaxBuckets created maxBuckets).answers
        (List.replicate (first.burst + 1) first ++ List.replicate (second.burst + 1) second) =
      List.replicate (first.burst + 1) true ++ List.replicate (second.burst + 1) true ∧
    Roomy (withMaxBuckets created maxBuckets)
      (List.replicate (first.burst + 1) first ++ List.replicate (second.burst + 1) second) := by
  have hquiet : (withMaxBuckets created maxBuckets).sample first = withMaxBuckets created maxBuckets :=
    sample_eq_self (by simp [hfirst])
  obtain ⟨hanswers, hroomy, buckets, hlookup, hafter⟩ :=
    answers_replicate_of_vacant (withMaxBuckets created maxBuckets) first
      (by rw [hquiet]; exact AList.lookup_empty _) (.inr hmax) (by rw [hquiet]; exact hmax) (by simp [hfirst])
  rw [hquiet] at hafter
  set spent := (withMaxBuckets created maxBuckets).after (List.replicate (first.burst + 1) first) with hspent
  have hbucket : spent.buckets.lookup second.key = some ⟨0, first.now⟩ := by rw [hafter, hkey, hlookup]
  have hclean : spent.sample second =
      { spent with
        buckets := spent.buckets.retain fun _ bucket => decide (second.now - bucket.updatedAt < rateBucketIdle)
        bucketCount := spent.bucketCount - (spent.buckets.entries.filter fun e =>
          !decide (second.now - e.2.updatedAt < rateBucketIdle)).length
        lastCleanup := second.now } := by
    have hold : spent.lastCleanup ≤ created := by
      rw [hafter, withMaxBuckets]
      dsimp only
      split_ifs <;> omega
    have hinterval : ¬second.now - spent.lastCleanup < rateCleanupInterval := by
      rw [hlater, rateBucketIdle, rateCleanupInterval, fromSecs, fromSecs]
      omega
    rw [sample, if_pos hsecond, RateLimiter.cleanupIdle, if_neg hinterval]
  have hgone : (spent.sample second).buckets.lookup second.key = none := by
    rw [hclean, Table.lookup_retain, hbucket, Option.filter_some, hlater]
    simp
  have hcount : (spent.sample second).bucketCount < (spent.sample second).maxBuckets := by
    have hremoved : 0 < (spent.buckets.entries.filter fun e =>
        !decide (second.now - e.2.updatedAt < rateBucketIdle)).length := by
      refine List.length_pos_of_mem (a := Sigma.mk second.key ⟨0, first.now⟩) (List.mem_filter.mpr ?_)
      exact ⟨AList.mem_lookup_iff.mp hbucket, by simp [hlater]⟩
    have hone : spent.bucketCount = 1 := by rw [hafter]; rfl
    have hsame : spent.maxBuckets = maxBuckets := by rw [hafter]; rfl
    rw [hclean]
    dsimp only
    omega
  obtain ⟨hagain, hroomy', -⟩ := answers_replicate_of_vacant spent second hgone
    (.inl (by simp [hbucket])) hcount (fun _ => by
      rw [hclean, Nat.sub_self]
      exact Nat.mul_pos one_pos (by norm_num))
  rw [answers_append, hanswers, roomy_append, ← hspent, hagain]
  exact ⟨rfl, hroomy, hroomy'⟩

/-- The calls that the gateway makes for a client of a zone. -/
def Configured (config : Config) (call : AllowCall) : Prop :=
  zoneLimit config call.key.zone = some (call.rate, call.burst)

/-- The removal of idle buckets cannot be told from lasting buckets exactly if two minutes refill any
bucket of the configuration. -/
theorem idle_removal_invisible_iff {parseSocketAddr : Bytes → Option SocketAddr}
    (runtime : RuntimeConfig parseSocketAddr) (created : ℕ) {maxBuckets : ℕ} (hmax : 0 < maxBuckets) :
    (∀ calls : List AllowCall, (created :: calls.map AllowCall.now).Pairwise (· ≤ ·) →
      (∀ call ∈ calls, Configured runtime.config call) → Roomy (withMaxBuckets created maxBuckets) calls →
      List.Forall₂ (fun answer lasting => answer = true → lasting = true)
        ((withMaxBuckets created maxBuckets).answers calls) (LastingBuckets.answers (fun _ => none) calls)) ↔
    ∀ zone rate burst, zoneLimit runtime.config zone = some (rate, burst) → (burst + 1 : ℚ) ≤ 120 * rate := by
  constructor
  · intro h zone rate burst hzone
    set first : AllowCall := ⟨⟨zone, .v4 0⟩, created, rate, burst, false, false⟩
    set second : AllowCall := ⟨⟨zone, .v4 0⟩, created + rateBucketIdle, rate, burst, true, false⟩
    obtain ⟨hanswers, hroomy⟩ := answers_spent_twice first second hmax rfl rfl rfl (Nat.le_refl created) rfl
    have hordered : (created :: (List.replicate (burst + 1) first ++ List.replicate (burst + 1) second).map
        AllowCall.now).Pairwise (· ≤ ·) := by
      simp [List.pairwise_append, List.pairwise_replicate, first, second]
    have hconfigured : ∀ call ∈ List.replicate (burst + 1) first ++ List.replicate (burst + 1) second,
        Configured runtime.config call := by
      intro call hcall
      rcases List.mem_append.mp hcall with hcall | hcall
      · rw [List.eq_of_mem_replicate hcall]
        exact hzone
      · rw [List.eq_of_mem_replicate hcall]
        exact hzone
    have hcalls := h _ hordered hconfigured hroomy
    rw [hanswers] at hcalls
    have hall := eq_of_forall₂ (by simp) hcalls
    rw [LastingBuckets.answers_append] at hall
    obtain ⟨hspent, hagain⟩ := List.append_inj hall (by
      rw [LastingBuckets.length_answers, List.length_replicate, List.length_replicate])
    obtain ⟨left, hleft, -, hpaid⟩ := paid_of_answers hspent
    obtain ⟨rest, -, hrest, hpaidAgain⟩ := paid_of_answers hagain
    have hfull : LastingBuckets.bucket (fun _ => none) first = ⟨burst + 1, created⟩ := rfl
    have hbucket : (LastingBuckets.after (fun _ => none) (List.replicate (burst + 1) first)).bucket second =
        ⟨left, created⟩ := congrArg (Option.getD · _) hleft
    have hidle : asSecs (second.now - created) = 120 := by
      norm_num [second, asSecs, rateBucketIdle, fromSecs]
    have hinstant : asSecs (first.now - created) = 0 := by simp [first, asSecs]
    rw [hfull, hinstant, zero_mul, add_zero] at hpaid
    rw [hbucket, hidle] at hpaidAgain
    change rest + (burst + 1) ≤ left + 120 * rate at hpaidAgain
    change left + (burst + 1) ≤ (burst + 1 : ℚ) at hpaid
    linarith
  · intro h calls hordered hconfigured hroomy
    have hlimit : ∀ call ∈ calls, (call.burst + 1 : ℚ) ≤ 120 * call.rate :=
      fun call hcall => h _ _ _ (hconfigured call hcall)
    rw [(Mirrors.new created maxBuckets).answers_eq hordered hroomy hlimit, List.forall₂_same]
    exact fun _ _ => id

/-- The default rates and bursts, and a client that comes back after its bucket was removed. -/
theorem idle_removal_invisible_iff_defaults :
    List.Forall₂ (fun answer lasting => answer = true → lasting = true)
      ((RateLimiter.new 0).answers
        [⟨⟨.vaultwardenAuth, .v4 1⟩, fromSecs 1, 5 / 60, 3, false, false⟩,
          ⟨⟨.vaultwardenAuth, .v4 1⟩, fromSecs 121, 5 / 60, 3, true, false⟩])
      (LastingBuckets.answers (fun _ => none)
        [⟨⟨.vaultwardenAuth, .v4 1⟩, fromSecs 1, 5 / 60, 3, false, false⟩,
          ⟨⟨.vaultwardenAuth, .v4 1⟩, fromSecs 121, 5 / 60, 3, true, false⟩]) := by
  have hlimits : ∀ zone rate burst, zoneLimit (exampleRuntime true).config zone = some (rate, burst) →
      (burst + 1 : ℚ) ≤ 120 * rate := by
    intro zone rate burst hzone
    have hall : (zoneLimit (exampleRuntime true).config zone).all
        (fun limit => decide ((limit.2 + 1 : ℚ) ≤ 120 * limit.1)) = true := by
      cases zone <;> decide +kernel
    rw [hzone] at hall
    exact of_decide_eq_true hall
  refine (idle_removal_invisible_iff (exampleRuntime true) 0 (by decide)).mpr hlimits _ (by decide) ?_ ?_
  · have hdefault : zoneLimit (exampleRuntime true).config .vaultwardenAuth = some (5 / 60, 3) := by
      decide +kernel
    intro call hcall
    rcases List.mem_pair.mp hcall with rfl | rfl
    · exact hdefault
    · exact hdefault
  · exact ⟨.inr (by decide), .inl (by decide +kernel), trivial⟩

/-- The deployed hosts with a slow rate for DNS queries. -/
def slowConfig : Config :=
  { exampleConfig .adguardKorea with
    routeLimits := ⟨[(ascii "doh", { ratePerSecond := some (some (1 / 64)), burst := some 3 })], by simp⟩ }

def slowRuntime : RuntimeConfig exampleSurroundings.parseSocketAddr where
  config := slowConfig
  valid := by decide +kernel

/-- Four queries, two minutes of silence and four queries: lasting buckets have one token at the
second burst. With one bucket only, a query that the full map turned away is charged by lasting
buckets alone. -/
theorem idle_removal_visible :
    zoneLimit slowRuntime.config .doh = some (1 / 64, 3) ∧
      (RateLimiter.new 0).answers
          (callsAt ⟨.doh, .v4 1⟩ (1 / 64) 3 (List.replicate 4 (fromSecs 1)) ++
            List.replicate 4 ⟨⟨.doh, .v4 1⟩, fromSecs 121, 1 / 64, 3, true, false⟩) =
        [true, true, true, true, true, true, true, true] ∧
      LastingBuckets.answers (fun _ => none)
          (callsAt ⟨.doh, .v4 1⟩ (1 / 64) 3 (List.replicate 4 (fromSecs 1)) ++
            List.replicate 4 ⟨⟨.doh, .v4 1⟩, fromSecs 121, 1 / 64, 3, true, false⟩) =
        [true, true, true, true, true, false, false, false] ∧
      (withMaxBuckets 0 1).answers
          [⟨⟨.doh, .v4 1⟩, fromSecs 1, 1 / 64, 0, false, false⟩,
            ⟨⟨.doh, .v4 2⟩, fromSecs 120, 1 / 64, 0, false, true⟩,
            ⟨⟨.doh, .v4 2⟩, fromSecs 121, 1 / 64, 0, false, true⟩] = [true, false, true] ∧
      LastingBuckets.answers (fun _ => none)
          [⟨⟨.doh, .v4 1⟩, fromSecs 1, 1 / 64, 0, false, false⟩,
            ⟨⟨.doh, .v4 2⟩, fromSecs 120, 1 / 64, 0, false, true⟩,
            ⟨⟨.doh, .v4 2⟩, fromSecs 121, 1 / 64, 0, false, true⟩] = [true, true, false] := by
  refine ⟨?_, ?_, ?_, ?_, ?_⟩ <;> decide +kernel

end RateLimiter

end Pingola
