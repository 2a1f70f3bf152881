import Pingola.Cache.Interleaving

/-!
# Expiry among concurrent calls

A lookup that finds an expired entry releases it and then removes whatever the map holds under the key. An
insert that comes in between loses its entry. With no such removal pending when it writes, an entry stays
until it expires.
-/

namespace Pingola
open ByteText

/-- The event starts an insert or a lookup, or goes on with a call without any need to evict. -/
def CacheEvent.isTame (s : SharedCache) : CacheEvent → Bool
  | .start _ (.insert _ _) | .start _ (.lookup _ _) => true
  | .start _ (.remove _) | .start _ (.purge _) => false
  | .advance i _ =>
    match s.calls i with
    | some (.evictCheck _) => s.cache.order.within
    | _ => true

def TameStep (s : SharedCache) (ev : CacheEvent) (t : SharedCache) : Prop :=
  s.step ev = some t ∧ ev.isTame s = true

/-- The event writes no other entry under the key of an entry, and is no lookup of that key at a time at which
the entry has expired. -/
def CacheEvent.spares (k : UInt64) (v : CachedValue) (s : SharedCache) : CacheEvent → Bool
  | .start _ _ => true
  | .advance i _ =>
    match s.calls i with
    | some (.dataInsert l _) => l != k
    | some (.dataGet key now) => key.storageKey != k || v.isFresh now
    | _ => true

/-- The keys that a call is going to remove from the map. -/
def Phase.removes : Phase → List UInt64
  | .evictCheck keys | .evictPop keys | .evictData keys | .evictAccount _ keys => keys
  | .dataRemove keys | .removeAccount _ _ keys | .orderRemove _ keys => keys
  | _ => []

/-- A phase of an insert or a lookup without eviction. -/
def Phase.Tame : Phase → Prop
  | .evictPop _ | .evictAccount _ _ => False
  | .evictCheck keys | .evictData keys => keys = []
  | .removeAccount _ _ keys | .orderRemove _ keys => keys = []
  | .dataRemove keys => keys.length ≤ 1
  | _ => True

/-! ### One phase -/

section

variable {c : PingolaCache} {victim : Option UInt64} {p q : Phase} {k : UInt64} {e : StoredEntry}

lemma Phase.next_enabled (c : PingolaCache) (victim : Option UInt64) (p : Phase) :
    (p.next c victim).1.enabled = c.enabled := by
  cases p with
  | evictPop keys =>
    simp only [next]
    split
    · split_ifs <;> rfl
    · rfl
  | evictData keys =>
    cases keys with
    | nil => rfl
    | cons l keys => simp only [next]; split <;> rfl
  | dataGet key now =>
    simp only [next]
    split
    · rfl
    · split_ifs <;> rfl
  | dataRemove keys =>
    cases keys with
    | nil => rfl
    | cons l keys => simp only [next]; split <;> rfl
  | _ => simp [next]

lemma Phase.Tame.next (h : p.Tame) (hcheck : ∀ keys, p = .evictCheck keys → c.order.within = true)
    (hq : (p.next c victim).2 = some q) : q.Tame := by
  cases p with
  | dataInsert l e' =>
    simp only [Phase.next] at hq
    split at hq <;> obtain rfl := Option.some.inj hq <;> trivial
  | replaceAccount l e' old => obtain rfl := Option.some.inj hq; trivial
  | insertAccount l e' => obtain rfl := Option.some.inj hq; trivial
  | orderAdmit l e' => obtain rfl := Option.some.inj hq; rfl
  | evictCheck keys =>
    simp only [Phase.next, hcheck keys rfl, if_true, Option.some.injEq] at hq
    subst hq
    exact h
  | evictPop keys => exact h.elim
  | evictAccount e' keys => exact h.elim
  | evictData keys =>
    obtain rfl : keys = [] := h
    cases hq
  | dataGet key now =>
    simp only [Phase.next] at hq
    split at hq
    · cases hq
    · split_ifs at hq
      obtain rfl := Option.some.inj hq
      exact Nat.le_refl 1
  | dataRemove keys =>
    cases keys with
    | nil => cases hq
    | cons l keys =>
      obtain rfl : keys = [] := by simpa [Phase.Tame] using h
      simp only [Phase.next] at hq
      split at hq <;> obtain rfl := Option.some.inj hq
      · rfl
      · exact Nat.zero_le 1
  | removeAccount l e' keys => obtain rfl := Option.some.inj hq; exact h
  | orderRemove l keys =>
    obtain rfl := Option.some.inj hq
    obtain rfl : keys = [] := h
    exact Nat.zero_le 1

/-- A phase that is not to remove a key, and does not write or expire there, leaves its entry. -/
lemma Phase.next_spares (victim : Option UInt64) (htame : p.Tame) (hk : c.data.lookup k = some e)
    (hremoves : k ∉ p.removes)
    (hwrite : ∀ l e', p = .dataInsert l e' → l ≠ k)
    (hread : ∀ key now, p = .dataGet key now → key.storageKey = k → e.value.isFresh now = true) :
    (p.next c victim).1.data.lookup k = some e ∧ ∀ q, (p.next c victim).2 = some q → k ∉ q.removes := by
  cases p with
  | dataInsert l e' =>
    refine ⟨(AList.lookup_insert_ne (hwrite l e' rfl).symm).trans hk, fun q hq => ?_⟩
    simp only [Phase.next] at hq
    split at hq <;> obtain rfl := Option.some.inj hq <;> exact List.not_mem_nil
  | replaceAccount l e' old =>
    refine ⟨by simpa [Phase.next] using hk, fun q hq => ?_⟩
    obtain rfl := Option.some.inj hq
    exact List.not_mem_nil
  | insertAccount l e' =>
    refine ⟨by simpa [Phase.next] using hk, fun q hq => ?_⟩
    obtain rfl := Option.some.inj hq
    exact List.not_mem_nil
  | orderAdmit l e' =>
    refine ⟨hk, fun q hq => ?_⟩
    obtain rfl := Option.some.inj hq
    exact List.not_mem_nil
  | evictCheck keys =>
    refine ⟨hk, fun q hq => ?_⟩
    obtain rfl := Option.some.inj hq
    split_ifs <;> exact hremoves
  | evictPop keys => exact htame.elim
  | evictAccount e' keys => exact htame.elim
  | evictData keys =>
    obtain rfl : keys = [] := htame
    exact ⟨hk, fun q hq => by cases hq⟩
  | dataGet key now =>
    by_cases hkey : key.storageKey = k
    · -- the lookup finds the entry, and finds it fresh
      subst hkey
      have hfresh := hread key now rfl rfl
      have hnext : next c victim (.dataGet key now) = (c, none) := by
        simp only [Phase.next, hk, hfresh, if_true, ite_self]
      rw [hnext]
      exact ⟨hk, fun q hq => by cases hq⟩
    · simp only [Phase.next]
      split
      · exact ⟨hk, fun q hq => by cases hq⟩
      · split_ifs
        · exact ⟨hk, fun q hq => by cases hq⟩
        · exact ⟨hk, fun q hq => by cases hq⟩
        · refine ⟨hk, fun q hq => ?_⟩
          obtain rfl := Option.some.inj hq
          exact fun hmem => hkey (List.mem_singleton.mp hmem).symm
  | dataRemove keys =>
    cases keys with
    | nil => exact ⟨hk, fun q hq => by cases hq⟩
    | cons l keys =>
      obtain ⟨hl, hkeys⟩ : k ≠ l ∧ k ∉ keys := by simpa [removes] using hremoves
      simp only [Phase.next]
      split
      · refine ⟨(AList.lookup_erase_ne hl).trans hk, fun q hq => ?_⟩
        obtain rfl := Option.some.inj hq
        exact hkeys
      · refine ⟨hk, fun q hq => ?_⟩
        obtain rfl := Option.some.inj hq
        exact hkeys
  | removeAccount l e' keys =>
    refine ⟨by simpa [Phase.next] using hk, fun q hq => ?_⟩
    obtain rfl := Option.some.inj hq
    exact hremoves
  | orderRemove l keys =>
    refine ⟨hk, fun q hq => ?_⟩
    obtain rfl := Option.some.inj hq
    exact hremoves

end

namespace SharedCache

/-! ### Runs of inserts and lookups -/

/-- Calls are in progress on an enabled cache only, and none evicts. -/
structure Tame (s : SharedCache) : Prop where
  enabled : ∀ i p, s.calls i = some p → s.cache.enabled = true
  calls : ∀ i p, s.calls i = some p → p.Tame

/-- How a step of a call goes, and that it starts or goes on tamely. -/
lemma step_cases {s t : SharedCache} {ev : CacheEvent} (h : TameStep s ev t) :
    (∃ i call, ev = .start i call ∧ s.calls i = none ∧ t = s.proceed i s.cache (call.start s.cache) ∧
      ∀ p, call.start s.cache = some p → s.cache.enabled = true ∧ p.Tame ∧ p.removes = []) ∨
    ∃ i victim p, ev = .advance i victim ∧ s.calls i = some p ∧
      t = s.proceed i (p.next s.cache victim).1 (p.next s.cache victim).2 ∧
      ∀ keys, p = .evictCheck keys → s.cache.order.within = true := by
  obtain ⟨h, htame⟩ := h
  cases ev with
  | start i call =>
    simp only [step] at h
    split at h
    · rename_i hi
      obtain rfl := Option.some.inj h
      refine .inl ⟨i, call, rfl, hi, rfl, fun p hp => ?_⟩
      cases call with
      | insert key value =>
        simp only [CacheCall.start] at hp
        split_ifs at hp with hguard
        obtain rfl := Option.some.inj hp
        simp only [Bool.or_eq_true, Bool.not_eq_true', not_or, Bool.not_eq_false] at hguard
        exact ⟨hguard.1, trivial, rfl⟩
      | lookup key now =>
        simp only [CacheCall.start] at hp
        split_ifs at hp with hguard
        obtain rfl := Option.some.inj hp
        exact ⟨by simpa using hguard, trivial, rfl⟩
      | remove key => cases htame
      | purge keys => cases htame
    · cases h
  | advance i victim =>
    simp only [step] at h
    split at h
    · cases h
    · rename_i p hi
      obtain rfl := Option.some.inj h
      refine .inr ⟨i, victim, p, rfl, hi, rfl, ?_⟩
      rintro keys rfl
      simpa [CacheEvent.isTame, hi] using htame

lemma calls_proceed {s : SharedCache} {i j : ℕ} {c : PingolaCache} {next : Option Phase} {p : Phase}
    (h : (s.proceed i c next).calls j = some p) : j = i ∧ next = some p ∨ s.calls j = some p := by
  by_cases hj : j = i
  · subst hj
    rw [proceed_calls_self] at h
    exact .inl ⟨rfl, h⟩
  · rw [proceed_calls_of_ne _ hj] at h
    exact .inr h

lemma tame_init (c : PingolaCache) : (init c).Tame where
  enabled i p hi := by cases hi
  calls i p hi := by cases hi

lemma Tame.step {s t : SharedCache} {ev : CacheEvent} (hs : s.Tame) (h : TameStep s ev t) : t.Tame := by
  rcases step_cases h with ⟨i, call, -, -, rfl, hstart⟩ | ⟨i, victim, p, -, hi, rfl, hcheck⟩
  · refine ⟨fun j q hq => ?_, fun j q hq => ?_⟩
    · rcases calls_proceed hq with ⟨-, hnext⟩ | hq
      · exact (hstart q hnext).1
      · exact hs.enabled j q hq
    · rcases calls_proceed hq with ⟨-, hnext⟩ | hq
      · exact (hstart q hnext).2.1
      · exact hs.calls j q hq
  · refine ⟨fun j q hq => ?_, fun j q hq => ?_⟩
    · rw [proceed_cache, Phase.next_enabled]
      exact hs.enabled i p hi
    · rcases calls_proceed hq with ⟨-, hnext⟩ | hq
      · exact (hs.calls i p hi).next hcheck hnext
      · exact hs.calls j q hq

/-- The entry is in the map, and no call is about to remove it. -/
structure Holds (s : SharedCache) (k : UInt64) (e : StoredEntry) : Prop where
  tame : s.Tame
  enabled : s.cache.enabled = true
  entry : s.cache.data.lookup k = some e
  removes : ∀ i p, s.calls i = some p → k ∉ p.removes

lemma Holds.step {s t : SharedCache} {ev : CacheEvent} {k : UInt64} {e : StoredEntry} (hs : s.Holds k e)
    (h : TameStep s ev t) (hspares : ev.spares k e.value s = true) : t.Holds k e := by
  have htame := hs.tame.step h
  rcases step_cases h with ⟨i, call, -, -, rfl, hstart⟩ | ⟨i, victim, p, rfl, hi, rfl, hcheck⟩
  · refine ⟨htame, hs.enabled, hs.entry, fun j q hq => ?_⟩
    rcases calls_proceed hq with ⟨-, hnext⟩ | hq
    · rw [(hstart q hnext).2.2]
      exact List.not_mem_nil
    · exact hs.removes j q hq
  · obtain ⟨hentry, hnext⟩ := Phase.next_spares victim (hs.tame.calls i p hi) hs.entry (hs.removes i p hi)
      (by rintro l e' rfl; simpa [CacheEvent.spares, hi] using hspares)
      (by rintro key now rfl hkey; simpa [CacheEvent.spares, hi, hkey] using hspares)
    refine ⟨htame, ?_, hentry, fun j q hq => ?_⟩
    · rw [proceed_cache, Phase.next_enabled]
      exact hs.enabled
    · rcases calls_proceed hq with ⟨-, hq⟩ | hq
      · exact hnext q hq
      · exact hs.removes j q hq

/-- A tame call that is to remove a key has found it expired and not removed it yet. -/
lemma Tame.not_mem_removes {s : SharedCache} {k : UInt64} (hs : s.Tame)
    (h : ∀ i keys, s.calls i = some (.dataRemove keys) → k ∉ keys) {i : ℕ} {p : Phase} (hi : s.calls i = some p) :
    k ∉ p.removes := by
  have htame := hs.calls i p hi
  cases p with
  | dataRemove keys => exact h i keys hi
  | evictCheck keys => simp_all [Phase.Tame, Phase.removes]
  | evictData keys => simp_all [Phase.Tame, Phase.removes]
  | removeAccount l e keys => simp_all [Phase.Tame, Phase.removes]
  | orderRemove l keys => simp_all [Phase.Tame, Phase.removes]
  | evictPop keys => exact htame.elim
  | evictAccount e keys => exact htame.elim
  | _ => exact List.not_mem_nil

/-- After a write with no removal pending the entry is held. -/
lemma Tame.holds_of_write {s t : SharedCache} {i : ℕ} {victim : Option UInt64} {k : UInt64} {e : StoredEntry}
    (hs : s.Tame) (hwrite : s.calls i = some (.dataInsert k e)) (hstep : s.step (.advance i victim) = some t)
    (hpending : ∀ j keys, s.calls j = some (.dataRemove keys) → k ∉ keys) : t.Holds k e := by
  have htame := hs.step ⟨hstep, by simp [CacheEvent.isTame, hwrite]⟩
  have henabled := hs.enabled i _ hwrite
  simp only [SharedCache.step, hwrite] at hstep
  obtain rfl := Option.some.inj hstep
  refine ⟨htame, henabled, AList.lookup_insert _, fun j q hq => ?_⟩
  rcases calls_proceed hq with ⟨-, hnext⟩ | hq
  · simp only [Phase.next] at hnext
    split at hnext <;> obtain rfl := Option.some.inj hnext <;> exact List.not_mem_nil
  · exact hs.not_mem_removes hpending hq

lemma Holds.lookup_eq_hit {s : SharedCache} {key : CacheKey UInt64} {value : CachedValue} {weight now : ℕ}
    (hs : s.Holds key.storageKey ⟨key.cacheNamespace, value, weight⟩) (hnow : now < value.freshUntil) :
    (s.cache.lookup key now).1 = .hit value := by
  simp [PingolaCache.lookup, hs.enabled, hs.entry, CachedValue.isFresh, hnow]

/-- A removal that is pending takes whatever entry is there. -/
lemma lookup_eq_miss_of_pending {s : SharedCache} {j : ℕ} {key : CacheKey UInt64} {keys : List UInt64}
    (h : s.calls j = some (.dataRemove (key.storageKey :: keys))) (now : ℕ) :
    ∃ t, TameStep s (.advance j none) t ∧ (t.cache.lookup key now).1 = .miss := by
  refine ⟨_, ⟨by rw [step, h], by simp [CacheEvent.isTame, h]⟩, ?_⟩
  simp only [proceed_cache, Phase.next]
  cases hentry : s.cache.data.lookup key.storageKey with
  | none => simp [PingolaCache.lookup, hentry]
  | some e => simp [PingolaCache.lookup]

end SharedCache

/-- In every run of inserts and lookups without eviction, an entry that was written while no removal of an
expired one was pending is found by every lookup at a time before it expires, until the next write under its
key and as long as no lookup at a later time has come. -/
theorem fresh_entry_kept {c : PingolaCache} {before after : List CacheEvent} {s t u : SharedCache} {i now : ℕ}
    {victim : Option UInt64} {key : CacheKey UInt64} {value : CachedValue}
    (hbefore : Runs.Run TameStep (.init c) before s)
    (hwrite : s.calls i = some (.dataInsert key.storageKey ⟨key.cacheNamespace, value, value.estimatedWeight⟩))
    (hstep : s.step (.advance i victim) = some t)
    (hpending : ∀ j keys, s.calls j = some (.dataRemove keys) → key.storageKey ∉ keys)
    (hafter : Runs.Run (fun s ev t => TameStep s ev t ∧ ev.spares key.storageKey value s = true) t after u)
    (hnow : now < value.freshUntil) : (u.cache.lookup key now).1 = .hit value := by
  have htame : s.Tame :=
    hbefore.invariant (fun _ s => s.Tame) (fun _ _ _ _ h hs => hs.step h) (SharedCache.tame_init c)
  have hholds := hafter.invariant
    (fun _ u => u.Holds key.storageKey ⟨key.cacheNamespace, value, value.estimatedWeight⟩)
    (fun _ _ _ _ h hs => hs.step h.1 h.2) (htame.holds_of_write hwrite hstep hpending)
  exact hholds.lookup_eq_hit hnow

def exampleKey : CacheKey UInt64 := ⟨.dns, 7⟩

def staleValue : CachedValue := ⟨[], 0, 5⟩

def freshValue : CachedValue := ⟨[1], 10, 100⟩

/-- A call goes on for some phases. -/
def advances (i n : ℕ) : List CacheEvent := List.replicate n (.advance i none)

/-- A lookup finds a stale entry and removes it, and an insert is about to write. -/
def expiredEvents : List CacheEvent :=
  .start 0 (.insert exampleKey staleValue) :: advances 0 5 ++
    .start 1 (.lookup exampleKey 10) :: advances 1 5 ++ [.start 2 (.insert exampleKey freshValue)]

def writingCache : SharedCache :=
  (Runs.exec SharedCache.step (.init (.new true 8192)) expiredEvents).getD (.init (.new true 8192))

/-- The entry is found at its last fresh moment, after its insert has returned and another lookup was made. -/
theorem fresh_entry_kept_example :
    ∃ t u : SharedCache, Runs.Run TameStep (.init (.new true 8192)) expiredEvents writingCache ∧
      writingCache.step (.advance 2 none) = some t ∧
      Runs.Run TameStep t (advances 2 4 ++ .start 1 (.lookup exampleKey 50) :: advances 1 1) u ∧
      u.calls 2 = none ∧ (u.cache.lookup exampleKey 99).1 = .hit freshValue := by
  have hrun : ((writingCache.step (.advance 2 none)).bind fun t =>
      (Runs.exec (fun s ev => if ev.isTame s && ev.spares exampleKey.storageKey freshValue s then s.step ev else none)
        t (advances 2 4 ++ .start 1 (.lookup exampleKey 50) :: advances 1 1)).map fun u => (u.calls 2).isNone) =
      some true := by
    decide +kernel
  obtain ⟨t, hstep, hrest⟩ := Option.bind_eq_some_iff.mp hrun
  obtain ⟨u, hexec, hreturned⟩ := Option.map_eq_some_iff.mp hrest
  have hafter : Runs.Run (fun s ev t => TameStep s ev t ∧ ev.spares exampleKey.storageKey freshValue s = true) t
      (advances 2 4 ++ .start 1 (.lookup exampleKey 50) :: advances 1 1) u := by
    refine (Runs.run_of_exec_guarded hexec).mono fun s ev t h => ?_
    obtain ⟨htame, hspares⟩ := Bool.and_eq_true_iff.mp h.2
    exact ⟨⟨h.1, htame⟩, hspares⟩
  have hexpired : Runs.exec (fun s ev => if ev.isTame s then s.step ev else none) (.init (.new true 8192))
      expiredEvents = some writingCache := rfl
  have hbefore : Runs.Run TameStep (.init (.new true 8192)) expiredEvents writingCache :=
    Runs.run_of_exec_guarded hexpired
  refine ⟨t, u, hbefore, hstep, hafter.mono fun _ _ _ h => h.1, Option.isNone_iff_eq_none.mp hreturned, ?_⟩
  have hwrite : writingCache.calls 2 = some (.dataInsert exampleKey.storageKey
      ⟨exampleKey.cacheNamespace, freshValue, freshValue.estimatedWeight⟩) := rfl
  have hreturned : ∀ j ≠ 2, writingCache.calls j = none := by
    intro j hj
    rcases j with _ | _ | _ | j
    · rfl
    · rfl
    · exact absurd rfl hj
    · rfl
  refine fresh_entry_kept hbefore hwrite hstep (fun j keys h => ?_) hafter (by decide)
  by_cases hj : j = 2
  · rw [hj, hwrite] at h
    cases h
  · rw [hreturned j hj] at h
    cases h

/-- The key that a call is about to remove. -/
def Phase.nextRemoval : Phase → Option UInt64
  | .dataRemove (k :: _) => some k
  | _ => none

lemma Phase.eq_dataRemove_of_nextRemoval {p : Phase} {k : UInt64} (h : p.nextRemoval = some k) :
    ∃ keys, p = .dataRemove (k :: keys) := by
  unfold nextRemoval at h
  split at h
  · obtain rfl := Option.some.inj h
    exact ⟨_, rfl⟩
  · cases h

/-- A stale entry, a lookup that finds it expired, and an insert that returns. -/
def raceEvents : List CacheEvent :=
  .start 0 (.insert exampleKey staleValue) :: advances 0 5 ++
    .start 1 (.lookup exampleKey 10) :: advances 1 1 ++ .start 2 (.insert exampleKey freshValue) :: advances 2 6

/-- The lookup goes on and removes the new entry, although its insert has returned. -/
theorem fresh_entry_removed :
    ∃ s t : SharedCache, Runs.Run TameStep (.init (.new true 8192)) raceEvents s ∧
      s.calls 2 = none ∧ (s.cache.lookup exampleKey 11).1 = .hit freshValue ∧
      TameStep s (.advance 1 none) t ∧ (t.cache.lookup exampleKey 11).1 = .miss := by
  have hrun : ((Runs.exec (fun s ev => if ev.isTame s then s.step ev else none)
      (.init (.new true 8192)) raceEvents).map fun s =>
        ((s.calls 2).isNone, (s.cache.lookup exampleKey 11).1, (s.calls 1).bind Phase.nextRemoval)) =
      some (true, .hit freshValue, some exampleKey.storageKey) := by
    decide +kernel
  obtain ⟨s, hs, hlookup⟩ := Option.map_eq_some_iff.mp hrun
  simp only [Prod.mk.injEq, Option.isNone_iff_eq_none, Option.bind_eq_some_iff] at hlookup
  obtain ⟨hreturned, hhit, p, hcall, hpending⟩ := hlookup
  obtain ⟨keys, rfl⟩ := Phase.eq_dataRemove_of_nextRemoval hpending
  obtain ⟨t, hstep, hmiss⟩ := SharedCache.lookup_eq_miss_of_pending hcall 11
  exact ⟨s, t, Runs.run_of_exec_guarded hs, hreturned, hhit, hstep, hmiss⟩

end Pingola
