import Pingola.Cache.DnsAging
import Pingola.Cache.Core

/-!
# Lifetimes of cached DNS answers

`dns_cacheable` gives a response a lifetime and `age_dns_response_for_query` decides whether it can still be
served. For positive answers both look at the least TTL of the message. For negative answers the lifetime comes
from the authority section or from the policy, and the TTLs of the message are not asked.
-/

namespace Pingola
open ByteText

/-- The TTL of a record, except for OPT. -/
def realTtl (wire : Bytes) (owner : ℕ) : Option ℕ :=
  if HasTtl wire owner then some (u32At wire (owner + 4)) else none

/-- The seconds a denial may be cached by an SOA record: the lesser of its last field and its TTL. -/
def soaTtl (wire : Bytes) (owner : ℕ) : Option ℕ :=
  if u16At wire owner = 6 ∧ 4 ≤ u16At wire (owner + 8) then
    some (min (u32At wire (recordEnd wire owner - 4)) (u32At wire (owner + 4)))
  else none

/-- Where the fixed parts of the authority records start. -/
def authorityOwners (wire : Bytes) : Option (List ℕ) := do
  let offset ← skipQuestions wire 12
  let offset ← skipRrs wire (u16At wire 6) offset
  recordOwners wire (u16At wire 8) offset

/-- What the SOA records of a readable authority section allow. -/
def soaTtls (wire : Bytes) : List ℕ := ((authorityOwners wire).getD []).filterMap (soaTtl wire)

/-- A negative answer is not cached for longer than `d`: the policy does not allow more, or an SOA record does
not, or there is none and the default of the policy is not more. -/
def LifetimeWithin (response : Bytes) (policy : DnsCachePolicy) (d : ℕ) : Prop :=
  policy.maxTtl ≤ d ∨ (∃ seconds ∈ soaTtls response, fromSecs (max seconds 1) ≤ d) ∨
    soaTtls response = [] ∧ policy.negativeTtl ≤ d

/-! ### The loops -/

section

variable {wire : Bytes}

lemma ite_recordEnd {α : Type} (owner : ℕ) (rest : Option α) :
    (if wire.length < owner + 10 then none
      else if wire.length < owner + (10 + u16At wire (owner + 8)) then none else rest) =
      if wire.length < recordEnd wire owner then none else rest := by
  unfold recordEnd
  by_cases hroom : wire.length < owner + 10
  · rw [if_pos hroom, if_pos (by omega)]
  · rw [if_neg hroom]

lemma map_recordOwners_succ {α : Type} (f : List ℕ → α) (count off : ℕ) :
    (recordOwners wire (count + 1) off).map f = (skipName wire off).bind fun owner =>
      if wire.length < recordEnd wire owner then none
      else (recordOwners wire count (recordEnd wire owner)).map fun rest => f (owner :: rest) := by
  simp only [recordOwners, Option.bind_eq_bind, Option.map_bind]
  congr 1
  funext owner
  rw [Function.comp_apply, apply_ite (Option.map f), Option.map_none, Option.map_map]
  rfl

/-- A round of a loop that keeps the least candidate. -/
lemma min?_least (least : Option ℕ) (candidate : ℕ) (rest : List ℕ) :
    ((some (least.elim candidate fun current => min current candidate)).toList ++ rest).min? =
      (least.toList ++ candidate :: rest).min? := by
  cases least with
  | none => rfl
  | some current =>
    change (min current candidate :: rest).min? = (current :: candidate :: rest).min?
    rw [List.min?_cons', List.min?_cons', List.foldl_cons]

/-- A loop over records that keeps the least candidate has the least of all candidates in the end. -/
lemma leastLoop_eq {loop : ℕ → ℕ → Option ℕ → Option (Option ℕ)} {candidate : ℕ → Option ℕ}
    (hzero : ∀ off least, loop 0 off least = some least)
    (hsucc : ∀ count off least, loop (count + 1) off least = (skipName wire off).bind fun owner =>
      if wire.length < recordEnd wire owner then none
      else loop count (recordEnd wire owner) ((candidate owner).elim least fun value =>
        some (least.elim value fun current => min current value)))
    (count off : ℕ) (least : Option ℕ) :
    loop count off least = (recordOwners wire count off).map fun owners =>
      (least.toList ++ owners.filterMap candidate).min? := by
  induction count generalizing off least with
  | zero =>
    rw [hzero]
    cases least <;> rfl
  | succ count ih =>
    rw [hsucc, map_recordOwners_succ]
    congr 1
    funext owner
    split
    · rfl
    · rw [ih]
      cases hcandidate : candidate owner with
      | none => simp only [List.filterMap_cons, hcandidate, Option.elim_none]
      | some value => simp only [List.filterMap_cons, hcandidate, Option.elim_some, min?_least]

lemma minRrTtlLoop_eq (count off : ℕ) (least : Option ℕ) :
    minRrTtlLoop wire count off least = (recordOwners wire count off).map fun owners =>
      (least.toList ++ owners.filterMap (realTtl wire)).min? := by
  refine leastLoop_eq (fun _ _ => rfl) (fun count off least => ?_) count off least
  simp only [minRrTtlLoop, Option.bind_eq_bind, ite_recordEnd]
  congr 1
  funext owner
  by_cases httl : HasTtl wire owner
  · have htype : (u16At wire owner != edns0Type) = true := bne_iff_ne.mpr httl
    rw [if_pos htype, realTtl, if_pos httl]
    rfl
  · have htype : ¬(u16At wire owner != edns0Type) = true := fun h => httl (bne_iff_ne.mp h)
    rw [if_neg htype, realTtl, if_neg httl]
    rfl

lemma negativeTtlLoop_eq (count off : ℕ) (least : Option ℕ) :
    negativeTtlLoop wire count off least = (recordOwners wire count off).map fun owners =>
      (least.toList ++ owners.filterMap (soaTtl wire)).min? := by
  refine leastLoop_eq (fun _ _ => rfl) (fun count off least => ?_) count off least
  simp only [negativeTtlLoop, Option.bind_eq_bind, ite_recordEnd]
  congr 1
  funext owner
  have hcheck : (u16At wire owner == 6 && decide (4 ≤ u16At wire (owner + 8))) = true ↔
      u16At wire owner = 6 ∧ 4 ≤ u16At wire (owner + 8) := by simp
  by_cases hsoa : u16At wire owner = 6 ∧ 4 ≤ u16At wire (owner + 8)
  · rw [if_pos (hcheck.mpr hsoa), soaTtl, if_pos hsoa]
    rfl
  · rw [if_neg (mt hcheck.mp hsoa), soaTtl, if_neg hsoa]
    rfl

lemma minRrTtl_eq : minRrTtl wire = (messageOwners wire).bind fun owners =>
    ((owners.filterMap (realTtl wire)).min?.filter fun ttl => 0 < ttl).map fromSecs := by
  simp only [minRrTtl, messageOwners, minRrTtlLoop_eq, Option.bind_eq_bind, Option.bind_map, Option.bind_assoc]
  rfl

lemma negativeTtl_eq : negativeTtl wire = (soaTtls wire).min?.map fun seconds => fromSecs (max seconds 1) := by
  have hread : negativeTtl wire = (authorityOwners wire).bind fun owners =>
      (owners.filterMap (soaTtl wire)).min?.map fun seconds => fromSecs (max seconds 1) := by
    simp only [negativeTtl, authorityOwners, negativeTtlLoop_eq, Option.bind_eq_bind, Option.bind_map,
      Option.bind_assoc]
    rfl
  rw [hread, soaTtls]
  cases authorityOwners wire <;> rfl

end

/-! ### When a response can be served -/

section

variable {response : Bytes} {storedAt now queryId : ℕ}

lemma mem_realTtls_iff {owners : List ℕ} {ttl : ℕ} :
    ttl ∈ owners.filterMap (realTtl response) ↔
      ∃ owner ∈ owners, HasTtl response owner ∧ u32At response (owner + 4) = ttl := by
  simp only [List.mem_filterMap, realTtl, Option.ite_none_right_eq_some, Option.some.injEq]

/-- The least TTL of a message is the value of `min_rr_ttl`, if it is not zero. -/
lemma minRrTtl_eq_some_iff {d : ℕ} :
    minRrTtl response = some d ↔ ∃ owners, messageOwners response = some owners ∧ ∃ ttl, 0 < ttl ∧ fromSecs ttl = d ∧
      (∃ owner ∈ owners, HasTtl response owner ∧ u32At response (owner + 4) = ttl) ∧
      ∀ owner ∈ owners, HasTtl response owner → ttl ≤ u32At response (owner + 4) := by
  simp only [minRrTtl_eq, Option.bind_eq_some_iff, Option.map_eq_some_iff, Option.filter_eq_some_iff,
    List.min?_eq_some_iff, mem_realTtls_iff, decide_eq_true_eq]
  refine exists_congr fun owners => and_congr_right fun _ => exists_congr fun ttl => ?_
  constructor
  · rintro ⟨⟨⟨hleast, hall⟩, hpos⟩, hd⟩
    exact ⟨hpos, hd, hleast, fun owner howner httl => hall _ ⟨owner, howner, httl, rfl⟩⟩
  · rintro ⟨hpos, hd, hleast, hall⟩
    refine ⟨⟨⟨hleast, ?_⟩, hpos⟩, hd⟩
    rintro _ ⟨owner, howner, httl, rfl⟩
    exact hall owner howner httl

/-- A response is served if it can be read, has a real TTL and none has run out. -/
lemma isSome_ageDnsResponseForQuery_iff (hid : queryId < 2 ^ 16) :
    (ageDnsResponseForQuery response storedAt now queryId).isSome = true ↔
      ∃ owners, messageOwners response = some owners ∧ (∃ owner ∈ owners, HasTtl response owner) ∧
        ∀ owner ∈ owners, HasTtl response owner → elapsedSecs storedAt now < u32At response (owner + 4) := by
  simp only [Option.isSome_iff_exists, ageDnsResponseForQuery_eq_some_iff hid]
  constructor
  · rintro ⟨out, owners, howners, hreal, haged⟩
    refine ⟨owners, howners, hreal, fun owner howner httl => ?_⟩
    have hleft := haged.ttl owner howner httl
    omega
  · rintro ⟨owners, howners, hreal, hleft⟩
    obtain ⟨-, -, -, out, -, -, haged, -⟩ := exists_loop_of_messageOwners hid howners hleft
    exact ⟨out, owners, howners, hreal, haged⟩

/-- Serving asks for the value of `min_rr_ttl` only. -/
lemma isSome_ageDnsResponseForQuery_iff_minRrTtl (hid : queryId < 2 ^ 16) :
    (ageDnsResponseForQuery response storedAt now queryId).isSome = true ↔
      ∃ ttl, minRrTtl response = some (fromSecs ttl) ∧ elapsedSecs storedAt now < ttl := by
  rw [isSome_ageDnsResponseForQuery_iff hid]
  constructor
  · rintro ⟨owners, howners, ⟨owner, howner, httl⟩, hleft⟩
    obtain ⟨least, hleast⟩ : ∃ least, (owners.filterMap (realTtl response)).min? = some least :=
      List.isSome_min?_of_mem (mem_realTtls_iff.mpr ⟨owner, howner, httl, rfl⟩) |> Option.isSome_iff_exists.mp
    obtain ⟨hmem, hall⟩ := List.min?_eq_some_iff.mp hleast
    obtain ⟨first, hfirst, hreal, rfl⟩ := mem_realTtls_iff.mp hmem
    have hpos := hleft first hfirst hreal
    refine ⟨_, minRrTtl_eq_some_iff.mpr ⟨owners, howners, _, by omega, rfl, ⟨first, hfirst, hreal, rfl⟩, ?_⟩, hpos⟩
    exact fun o ho hown => hall _ (mem_realTtls_iff.mpr ⟨o, ho, hown, rfl⟩)
  · rintro ⟨ttl, hmin, hleft⟩
    obtain ⟨owners, howners, least, -, hsame, ⟨owner, howner, hreal, -⟩, hall⟩ := minRrTtl_eq_some_iff.mp hmin
    have hleast : least = ttl := by
      unfold fromSecs at hsame
      omega
    refine ⟨owners, howners, ⟨owner, howner, hreal⟩, fun o ho hown => ?_⟩
    have hle := hall o ho hown
    omega

lemma elapsedSecs_lt {ttl : ℕ} (hpos : 0 < ttl) (h : now < storedAt + fromSecs ttl) :
    elapsedSecs storedAt now < ttl := by
  unfold elapsedSecs
  unfold fromSecs at h
  omega

lemma le_elapsedSecs {ttl : ℕ} (h : storedAt + fromSecs ttl ≤ now) : ttl ≤ elapsedSecs storedAt now := by
  unfold elapsedSecs
  unfold fromSecs at h
  omega

end

/-! ### What is cached -/

section

variable {response : Bytes} {policy : DnsCachePolicy} {ttl : ℕ}

/-- The lifetime of a positive answer. -/
lemma dnsCacheable_noerror (hrcode : u16At response 2 &&& 0x000F = 0)
    (h : dnsCacheable response policy = .cacheable ttl) :
    ∃ least, minRrTtl response = some least ∧ ttl = min least policy.maxTtl := by
  simp only [dnsCacheable, hrcode] at h
  split at h
  · cases h
  · split at h
    · cases h
    · split at h
      · cases h
      · rename_i least hmin
        split at h
        · cases h
        · exact ⟨least, hmin, (DnsCacheDecision.cacheable.inj h).symm⟩

/-- The lifetime of a negative answer. -/
lemma dnsCacheable_nxdomain (hrcode : u16At response 2 &&& 0x000F = 3)
    (h : dnsCacheable response policy = .cacheable ttl) :
    ttl = min ((negativeTtl response).getD policy.negativeTtl) policy.maxTtl := by
  simp only [dnsCacheable, hrcode] at h
  split at h
  · cases h
  · split at h
    · cases h
    · exact (DnsCacheDecision.cacheable.inj h).symm

/-- `LifetimeWithin` bounds the lifetime that `dns_cacheable` gives. -/
lemma lifetimeWithin_iff {d : ℕ} :
    LifetimeWithin response policy d ↔ min ((negativeTtl response).getD policy.negativeTtl) policy.maxTtl ≤ d := by
  rw [min_le_iff, or_comm, LifetimeWithin, negativeTtl_eq]
  refine or_congr_right ?_
  cases hleast : (soaTtls response).min? with
  | none =>
    have hnone : soaTtls response = [] := List.min?_eq_none_iff.mp hleast
    simp [hnone]
  | some least =>
    obtain ⟨hmem, hall⟩ := List.min?_eq_some_iff.mp hleast
    have hsome : soaTtls response ≠ [] := List.ne_nil_of_mem hmem
    simp only [hsome, false_and, or_false, Option.map_some, Option.getD_some]
    constructor
    · rintro ⟨seconds, hseconds, hle⟩
      exact (Nat.mul_le_mul_right _ (max_le_max (hall seconds hseconds) le_rfl)).trans hle
    · exact fun hle => ⟨least, hmem, hle⟩

end

/-- A response of any kind is served as long as fewer seconds have passed than `min_rr_ttl` says. So a positive
answer can be served until the end of its lifetime in the cache, and no response is served once one of its
TTLs has passed. -/
theorem dns_lifetimes_agree (response : Bytes) (queryId : UInt16) (storedAt : ℕ) :
    (∀ now, (ageDnsResponseForQuery response storedAt now queryId.toNat).isSome = true ↔
      ∃ ttl, minRrTtl response = some (fromSecs ttl) ∧ elapsedSecs storedAt now < ttl) ∧
    (∀ policy ttl, u16At response 2 &&& 0x000F = 0 → dnsCacheable response policy = .cacheable ttl →
      ∀ now < (buildCachedDns response ttl storedAt).freshUntil,
        (ageDnsResponseForQuery response storedAt now queryId.toNat).isSome = true) ∧
    ∀ owners, messageOwners response = some owners → ∀ owner ∈ owners, u16At response owner ≠ edns0Type →
      ∀ now, storedAt + fromSecs (u32At response (owner + 4)) ≤ now →
        ageDnsResponseForQuery response storedAt now queryId.toNat = none := by
  refine ⟨fun now => isSome_ageDnsResponseForQuery_iff_minRrTtl queryId.toNat_lt, ?_, ?_⟩
  · intro policy ttl hrcode hcached now hnow
    obtain ⟨_, hmin, rfl⟩ := dnsCacheable_noerror hrcode hcached
    obtain ⟨-, -, least, hpos, rfl, -, -⟩ := minRrTtl_eq_some_iff.mp hmin
    have hfresh : now < storedAt + min (fromSecs least) policy.maxTtl := hnow
    rw [isSome_ageDnsResponseForQuery_iff_minRrTtl queryId.toNat_lt]
    refine ⟨least, hmin, elapsedSecs_lt hpos ?_⟩
    exact hfresh.trans_le (Nat.add_le_add_left (min_le_left _ _) _)
  · intro owners howners owner howner hreal now hnow
    rw [← Option.not_isSome_iff_eq_none, isSome_ageDnsResponseForQuery_iff queryId.toNat_lt]
    rintro ⟨owners', howners', -, hleft⟩
    obtain rfl := Option.some.inj (howners.symm.trans howners')
    exact absurd (hleft owner howner hreal) (Nat.not_lt.mpr (le_elapsedSecs hnow))

theorem two_minute_answer_lifetime :
    dnsCacheable twoMinuteAnswer .default = .cacheable (fromSecs 120) ∧
      (ageDnsResponseForQuery twoMinuteAnswer 0 (fromSecs 120 - 1) (7 : UInt16).toNat).isSome = true ∧
      ageDnsResponseForQuery twoMinuteAnswer 0 (fromSecs 120) (7 : UInt16).toNat = none := by
  obtain ⟨-, hserved, hexpired⟩ := dns_lifetimes_agree twoMinuteAnswer 7 0
  have hcached : dnsCacheable twoMinuteAnswer .default = .cacheable (fromSecs 120) := by decide +kernel
  have howners : messageOwners twoMinuteAnswer = some [13, 28] := by decide +kernel
  exact ⟨hcached, hserved .default _ (by decide +kernel) hcached _ (by decide +kernel),
    hexpired _ howners 13 List.mem_cons_self (by decide +kernel) _ (by decide +kernel)⟩

/-- A cached negative answer can be served for its whole lifetime exactly if that is zero, or if the message can
be read and has a real TTL, and each of its real TTLs covers the lifetime. -/
theorem negative_answer_usable_iff (response : Bytes) (policy : DnsCachePolicy) (ttl storedAt : ℕ) (queryId : UInt16)
    (hrcode : u16At response 2 &&& 0x000F = 3) (hcached : dnsCacheable response policy = .cacheable ttl) :
    (∀ now, storedAt ≤ now → now < storedAt + ttl →
      (ageDnsResponseForQuery response storedAt now queryId.toNat).isSome = true) ↔
    LifetimeWithin response policy 0 ∨
      ∃ owners, messageOwners response = some owners ∧ (∃ owner ∈ owners, HasTtl response owner) ∧
        ∀ owner ∈ owners, HasTtl response owner →
          LifetimeWithin response policy (fromSecs (u32At response (owner + 4))) := by
  have hwithin : ∀ d, LifetimeWithin response policy d ↔ ttl ≤ d := by
    intro d
    rw [lifetimeWithin_iff, dnsCacheable_nxdomain hrcode hcached]
  simp only [hwithin, isSome_ageDnsResponseForQuery_iff queryId.toNat_lt]
  constructor
  · intro h
    by_cases hzero : ttl ≤ 0
    · exact .inl hzero
    · -- the last nanosecond of the lifetime decides
      obtain ⟨owners, howners, hreal, hleft⟩ := h (storedAt + (ttl - 1)) (by omega) (by omega)
      refine .inr ⟨owners, howners, hreal, fun owner howner httl => ?_⟩
      have hlast := hleft owner howner httl
      unfold elapsedSecs at hlast
      unfold fromSecs
      omega
  · rintro (hzero | ⟨owners, howners, hreal, hcovered⟩) now hfrom hnow
    · omega
    · refine ⟨owners, howners, hreal, fun owner howner httl => ?_⟩
      have hcover := hcovered owner howner httl
      have hless : now < storedAt + fromSecs (u32At response (owner + 4)) := by omega
      refine elapsedSecs_lt ?_ hless
      unfold fromSecs at hless
      omega

/-- The denial of a name with an SOA record whose TTL is 300 and whose last field is 60. -/
def exampleDenial : Bytes :=
  [0x12, 0x34, 0x80, 0x03, 0, 1, 0, 0, 0, 1, 0, 0] ++ [1, 0x61, 0, 0, 1, 0, 1] ++
    [0, 0, 6, 0, 1, 0, 0, 1, 44, 0, 22] ++
    [0, 0, 0, 0, 0, 1, 0, 0, 14, 16, 0, 0, 14, 16, 0, 0, 14, 16, 0, 0, 0, 60]

/-- The same denial without an authority section. -/
def bareDenial : Bytes := [0x12, 0x34, 0x80, 0x03, 0, 1, 0, 0, 0, 0, 0, 0, 1, 0x61, 0, 0, 1, 0, 1]

theorem denial_with_authority_is_usable :
    dnsCacheable exampleDenial .default = .cacheable (fromSecs 60) ∧
      ∀ now < fromSecs 60, (ageDnsResponseForQuery exampleDenial 0 now (7 : UInt16).toNat).isSome = true := by
  have hcached : dnsCacheable exampleDenial .default = .cacheable (fromSecs 60) := by decide +kernel
  have howners : messageOwners exampleDenial = some [20] := by decide +kernel
  have hreal : HasTtl exampleDenial 20 := by decide +kernel
  have hcovered : LifetimeWithin exampleDenial .default (fromSecs (u32At exampleDenial (20 + 4))) :=
    .inl (by decide +kernel)
  have husable := negative_answer_usable_iff exampleDenial .default _ 0 7 (by decide +kernel) hcached
  refine ⟨hcached, fun now hnow => ?_⟩
  refine husable.mpr (.inr ⟨[20], howners, ⟨20, List.mem_cons_self, hreal⟩, ?_⟩) now (by omega) (by omega)
  intro owner howner _
  obtain rfl := List.mem_singleton.mp howner
  exact hcovered

/-- A denial without records is stored for the default of the policy and can never be served. -/
theorem bare_denial_is_dead :
    u16At bareDenial 2 &&& 0x000F = 3 ∧ dnsCacheable bareDenial .default = .cacheable (fromSecs 60) ∧
      ageDnsResponseForQuery bareDenial 0 0 7 = none ∧
      ageDnsResponseForQuery bareDenial 0 (fromSecs 59) 7 = none := by
  decide +kernel

end Pingola
