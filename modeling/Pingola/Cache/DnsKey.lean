import Pingola.Cache.DnsMessage

/-!
# What a DNS cache key determines

A query that has a cache key asks one question, and the key is a function of that question.
Two queries with equal keys agree on everything the key hashes; the opcode is not hashed,
and the labels of the name are hashed as one dotted text.
-/

namespace Pingola
open ByteText

variable {D : Type} {H : AHasher D} {wire : Bytes}

structure DnsQuery where
  opcode : ℕ
  rd : Bool
  cd : Bool
  labels : List Bytes
  qtype : ℕ
  qclass : ℕ
  opts : List ResourceRecord

/-- The message is laid out as a query with one question, whose additional section holds OPT
records only. -/
structure Asks (wire : Bytes) (q : DnsQuery) : Prop where
  opcode : q.opcode = u16At wire 2 / 2 ^ 11 % 16
  rd : q.rd = (u16At wire 2 &&& 0x0100 != 0)
  cd : q.cd = (u16At wire 2 &&& 0x0010 != 0)
  isOpt : ∀ r ∈ q.opts, r.rtype = edns0Type
  sections : ∃ jumps owner mid last preceding, NameAt wire jumps 12 q.labels owner ∧
    q.qtype = u16At wire owner ∧ q.qclass = u16At wire (owner + 2) ∧
    RecordsAt wire (u16At wire 6 + u16At wire 8) (owner + 4) preceding mid ∧
    RecordsAt wire (u16At wire 10) mid q.opts last

lemma Asks.unique {q q' : DnsQuery} (h : Asks wire q) (h' : Asks wire q') : q = q' := by
  obtain ⟨_, owner, mid, _, _, hname, htype, hclass, hpre, hopts⟩ := h.sections
  obtain ⟨_, owner', mid', _, _, hname', htype', hclass', hpre', hopts'⟩ := h'.sections
  obtain ⟨hlabels, rfl⟩ := hname.unique hname'
  obtain ⟨-, rfl⟩ := hpre.unique hpre'
  obtain ⟨hopt, -⟩ := hopts.unique hopts'
  cases q
  cases q'
  simp only [DnsQuery.mk.injEq]
  exact ⟨h.opcode.trans h'.opcode.symm, h.rd.trans h'.rd.symm, h.cd.trans h'.cd.symm, hlabels,
    htype.trans htype'.symm, hclass.trans hclass'.symm, hopt⟩

def optWrites (r : ResourceRecord) : List HashWrite := [.u16 r.rclass, .u32 r.ttl, .bytes r.rdata]

/-- The labels in lower case, joined with dots. -/
def DnsQuery.dottedName (q : DnsQuery) : Bytes := [byte '.'].intercalate (q.labels.map toAsciiLowercase)

/-- The key of a query as a function of what it asks. -/
def DnsQuery.key (H : AHasher D) (q : DnsQuery) : DnsQueryKey where
  qname := q.dottedName
  qtype := q.qtype
  qclass := q.qclass
  rd := q.rd
  cd := q.cd
  doBit := q.opts.any fun r => r.ttl &&& 0x8000 != 0
  ednsFingerprint := if q.opts.isEmpty then 0 else H.value (H.finish (q.opts.flatMap optWrites))

lemma ednsLoop_eq_some {count off : ℕ} {doBit sawOpt : Bool} {calls : List HashWrite}
    {r : Bool × List HashWrite × Bool} (h : ednsLoop wire count off doBit calls sawOpt = some r) :
    ∃ rs next, RecordsAt wire count off rs next ∧ (∀ x ∈ rs, x.rtype = edns0Type) ∧
      r = (doBit || rs.any (fun x => x.ttl &&& 0x8000 != 0), calls ++ rs.flatMap optWrites,
        sawOpt || !rs.isEmpty) := by
  induction count generalizing off doBit calls sawOpt with
  | zero =>
    obtain rfl := Option.some.inj h
    exact ⟨[], off, .nil, by simp, by simp⟩
  | succ count ih =>
    simp only [ednsLoop, Option.bind_eq_bind, Option.bind_eq_some_iff] at h
    obtain ⟨owner, hown, h⟩ := h
    split_ifs at h with hhead hbad
    simp only [Bool.or_eq_true, decide_eq_true_eq, bne_iff_ne, ne_eq, not_or, not_not] at hbad
    have hend : owner + 10 + u16At wire (owner + 8) = recordEnd wire owner := by
      unfold recordEnd
      omega
    rw [hend] at h hbad
    obtain ⟨rs, next, hrs, hopt, rfl⟩ := ih h
    have hrdata : recordEnd wire owner - (owner + 10) = u16At wire (owner + 8) := by
      unfold recordEnd
      omega
    refine ⟨recordFrom wire owner :: rs, next,
      .cons (skipName_eq_some_iff.mp hown) (by omega) hrs, ?_, ?_⟩
    · simp only [List.mem_cons, forall_eq_or_imp]
      exact ⟨hbad.2, hopt⟩
    · simp [optWrites, recordFrom, hrdata, Bool.or_assoc]

/-- A message that has a cache key is a query, and the key is the key of that query. -/
lemma dnsQueryKey_eq_some {k : DnsQueryKey} (h : dnsQueryKey H wire = some k) :
    ∃ q, Asks wire q ∧ k = q.key H := by
  simp only [dnsQueryKey, Option.bind_eq_bind] at h
  split_ifs at h with hlen hqr hqd
  obtain ⟨⟨qname, owner⟩, hname, h⟩ := Option.bind_eq_some_iff.mp h
  simp only at h
  split_ifs at h with hfixed
  obtain ⟨⟨doBit, fingerprint⟩, hedns, h⟩ := Option.bind_eq_some_iff.mp h
  obtain rfl := Option.some.inj h
  obtain ⟨jumps, -, raw, hraw, -, rfl⟩ := readName_eq_some_iff.mp hname
  simp only [ednsState, Option.bind_eq_bind, Option.bind_eq_some_iff] at hedns
  obtain ⟨mid, hmid, ⟨d, calls, saw⟩, hloop, hres⟩ := hedns
  obtain ⟨preceding, hpre⟩ := skipRrs_eq_some_iff.mp hmid
  obtain ⟨rs, last, hrs, hopt, heq⟩ := ednsLoop_eq_some hloop
  simp only [Bool.false_or, List.nil_append, Prod.mk.injEq] at heq
  obtain ⟨rfl, rfl, rfl⟩ := heq
  obtain ⟨rfl, rfl⟩ := Prod.mk.inj (Option.some.inj hres)
  let q : DnsQuery := {
    opcode := u16At wire 2 / 2 ^ 11 % 16
    rd := u16At wire 2 &&& 0x0100 != 0
    cd := u16At wire 2 &&& 0x0010 != 0
    labels := raw
    qtype := u16At wire owner
    qclass := u16At wire (owner + 2)
    opts := rs }
  refine ⟨q, ⟨rfl, rfl, rfl, hopt, jumps, owner, mid, last, preceding, hraw, rfl, rfl, hpre, hrs⟩, ?_⟩
  cases rs <;> rfl

lemma flatMap_optWrites_inj {rs ss : List ResourceRecord} (hr : ∀ r ∈ rs, r.rtype = edns0Type)
    (hs : ∀ s ∈ ss, s.rtype = edns0Type) (h : rs.flatMap optWrites = ss.flatMap optWrites) :
    rs = ss := by
  induction rs generalizing ss with
  | nil => cases ss <;> simp_all [optWrites]
  | cons r rs ih =>
    cases ss with
    | nil => simp [optWrites] at h
    | cons s ss =>
      simp only [List.mem_cons, forall_eq_or_imp] at hr hs
      simp only [List.flatMap_cons, optWrites, List.cons_append, List.nil_append, List.cons.injEq,
        HashWrite.u16.injEq, HashWrite.u32.injEq, HashWrite.bytes.injEq] at h
      obtain ⟨hclass, httl, hrdata, hrest⟩ := h
      have hrs : r = s := by
        cases r
        cases s
        simp_all
      rw [hrs, ih hr.2 hs.2 hrest]

/-- The fingerprint determines the OPT records: the sentinel 0 stands for none of them. -/
lemma opts_eq_of_fingerprint (hH : H.CollisionFree) {q q' : DnsQuery}
    (hq : ∀ r ∈ q.opts, r.rtype = edns0Type) (hq' : ∀ r ∈ q'.opts, r.rtype = edns0Type)
    (h : (q.key H).ednsFingerprint = (q'.key H).ednsFingerprint) : q.opts = q'.opts := by
  have hne : ∀ o : List ResourceRecord, o ≠ [] → o.flatMap optWrites ≠ [] := by
    intro o ho
    cases o with
    | nil => exact absurd rfl ho
    | cons r o => simp [optWrites]
  simp only [DnsQuery.key, List.isEmpty_iff] at h
  split_ifs at h with he he'
  · rw [he, he']
  · exact absurd h.symm (hH.value_ne_zero _ (hne _ he'))
  · exact absurd h (hH.value_ne_zero _ (hne _ he))
  · exact flatMap_optWrites_inj hq hq' (hH.injective (H.value_injective h))

lemma asciiLower_eq_dot_iff (b : UInt8) : asciiLower b = byte '.' ↔ b = byte '.' := by
  have hdot : byte '.' = 46 := by decide
  rw [hdot]
  unfold asciiLower
  split_ifs with hup
  · simp only [isAsciiUppercase, decide_eq_true_eq, UInt8.le_iff_toNat_le] at hup
    simp only [← UInt8.toNat_inj, UInt8.toNat_add]
    have h1 := hup.1
    have h2 := hup.2
    simp only [UInt8.reduceToNat] at h1 h2 ⊢
    omega
  · rfl

lemma dot_mem_toAsciiLowercase (l : Bytes) : byte '.' ∈ toAsciiLowercase l ↔ byte '.' ∈ l := by
  simp [toAsciiLowercase, asciiLower_eq_dot_iff]

/-- Equal dotted texts of names without a dot inside a label have equal labels up to case. -/
lemma labels_eq_of_qname {ls ms : List Bytes} (hls : ∀ l ∈ ls, l ≠ []) (hms : ∀ l ∈ ms, l ≠ [])
    (hdot : ∀ l ∈ ls ++ ms, byte '.' ∉ l)
    (h : [byte '.'].intercalate (ls.map toAsciiLowercase) =
      [byte '.'].intercalate (ms.map toAsciiLowercase)) :
    ls.map toAsciiLowercase = ms.map toAsciiLowercase := by
  have hpart : ∀ ks : List Bytes, (∀ l ∈ ks, l ≠ []) → (∀ l ∈ ks, byte '.' ∉ l) →
      ∀ l ∈ ks.map toAsciiLowercase, l ≠ [] ∧ byte '.' ∉ l := by
    intro ks hne hd l hl
    obtain ⟨k, hk, rfl⟩ := List.mem_map.mp hl
    exact ⟨by simpa [toAsciiLowercase] using hne k hk, by rw [dot_mem_toAsciiLowercase]; exact hd k hk⟩
  exact intercalate_injOn (hpart ls hls fun l hl => hdot l (by simp [hl]))
    (hpart ms hms fun l hl => hdot l (by simp [hl])) h

/-- Two queries with equal cache keys ask for the same type and class with the same RD and CD
bits and the same OPT records, and their names have the same dotted text up to case. So they have
the same labels up to case whenever no label of either name has a dot in it. -/
theorem dns_key_determines_question (hH : H.CollisionFree) {w₁ w₂ : Bytes} {k₁ k₂ : DnsQueryKey}
    (h₁ : dnsQueryKey H w₁ = some k₁) (h₂ : dnsQueryKey H w₂ = some k₂)
    (hkey : cacheKeyForQuery H k₁ = cacheKeyForQuery H k₂) :
    ∃ q₁ q₂ : DnsQuery, (∀ q, Asks w₁ q ↔ q = q₁) ∧ (∀ q, Asks w₂ q ↔ q = q₂) ∧
      q₁.rd = q₂.rd ∧ q₁.cd = q₂.cd ∧ q₁.qtype = q₂.qtype ∧ q₁.qclass = q₂.qclass ∧
      q₁.opts = q₂.opts ∧ q₁.dottedName = q₂.dottedName ∧
      ((∀ l ∈ q₁.labels ++ q₂.labels, byte '.' ∉ l) →
        q₁.labels.map toAsciiLowercase = q₂.labels.map toAsciiLowercase) := by
  obtain ⟨q₁, hq₁, rfl⟩ := dnsQueryKey_eq_some h₁
  obtain ⟨q₂, hq₂, rfl⟩ := dnsQueryKey_eq_some h₂
  have hwrites := hH.injective (congrArg CacheKey.hash hkey)
  simp only [queryWrites, List.cons.injEq, HashWrite.bytes.injEq, HashWrite.u16.injEq,
    HashWrite.u8.injEq, HashWrite.u64.injEq, and_true] at hwrites
  obtain ⟨hname, htype, hclass, hrd, hcd, -, hopts⟩ := hwrites
  have hbit : ∀ a b : Bool, a.toNat = b.toNat → a = b := by decide
  refine ⟨q₁, q₂, fun q => ⟨fun h => h.unique hq₁, fun h => h ▸ hq₁⟩,
    fun q => ⟨fun h => h.unique hq₂, fun h => h ▸ hq₂⟩, hbit _ _ hrd, hbit _ _ hcd,
    htype, hclass, opts_eq_of_fingerprint hH hq₁.isOpt hq₂.isOpt hopts, hname, fun hdot => ?_⟩
  obtain ⟨_, _, _, _, _, hn₁, -⟩ := hq₁.sections
  obtain ⟨_, _, _, _, _, hn₂, -⟩ := hq₂.sections
  exact labels_eq_of_qname hn₁.ne_nil hn₂.ne_nil hdot hname

/-- A query of type A and class IN with the given flags word and encoded name. -/
def buildQuery (id flags : ℕ) (name : Bytes) : Bytes :=
  u16Bytes id ++ u16Bytes flags ++ u16Bytes 1 ++ u16Bytes 0 ++ u16Bytes 0 ++ u16Bytes 0 ++
    name ++ u16Bytes 1 ++ u16Bytes 1

theorem dns_key_determines_question_case :
    ∃ q₁ q₂ : DnsQuery,
      (∀ q, Asks (buildQuery 0xAABB 0x0100 (3 :: ascii "WwW" ++ [0])) q ↔ q = q₁) ∧
      (∀ q, Asks (buildQuery 0 0x0100 (3 :: ascii "www" ++ [0])) q ↔ q = q₂) ∧
      q₁.rd = q₂.rd ∧ q₁.cd = q₂.cd ∧ q₁.qtype = q₂.qtype ∧ q₁.qclass = q₂.qclass ∧
      q₁.opts = q₂.opts ∧ q₁.dottedName = q₂.dottedName ∧
      ((∀ l ∈ q₁.labels ++ q₂.labels, byte '.' ∉ l) →
        q₁.labels.map toAsciiLowercase = q₂.labels.map toAsciiLowercase) := by
  let k : DnsQueryKey := ⟨ascii "www", 1, 1, true, false, false, 0⟩
  have h₁ : dnsQueryKey sequenceHasher (buildQuery 0xAABB 0x0100 (3 :: ascii "WwW" ++ [0])) = some k := by
    decide +kernel
  have h₂ : dnsQueryKey sequenceHasher (buildQuery 0 0x0100 (3 :: ascii "www" ++ [0])) = some k := by
    decide +kernel
  exact dns_key_determines_question sequenceHasher_collisionFree h₁ h₂ rfl

/-- The key tells apart neither two opcodes nor the one label `a.b` from the two labels `a` and
`b`. -/
theorem dns_key_forgets :
    (∃ k q₁ q₂, dnsQueryKey sequenceHasher (buildQuery 0 0x0100 [1, 97, 0]) = some k ∧
      dnsQueryKey sequenceHasher (buildQuery 0 0x1100 [1, 97, 0]) = some k ∧
      Asks (buildQuery 0 0x0100 [1, 97, 0]) q₁ ∧
      Asks (buildQuery 0 0x1100 [1, 97, 0]) q₂ ∧ q₁.opcode ≠ q₂.opcode) ∧
    (∃ k q₁ q₂, dnsQueryKey sequenceHasher (buildQuery 0 0x0100 (3 :: ascii "a.b" ++ [0])) = some k ∧
      dnsQueryKey sequenceHasher (buildQuery 0 0x0100 [1, 97, 1, 98, 0]) = some k ∧
      Asks (buildQuery 0 0x0100 (3 :: ascii "a.b" ++ [0])) q₁ ∧
      Asks (buildQuery 0 0x0100 [1, 97, 1, 98, 0]) q₂ ∧
      q₁.labels.map toAsciiLowercase ≠ q₂.labels.map toAsciiLowercase) := by
  constructor
  · have h₁ : dnsQueryKey sequenceHasher (buildQuery 0 0x0100 [1, 97, 0]) =
        some ⟨ascii "a", 1, 1, true, false, false, 0⟩ := by decide +kernel
    have h₂ : dnsQueryKey sequenceHasher (buildQuery 0 0x1100 [1, 97, 0]) =
        some ⟨ascii "a", 1, 1, true, false, false, 0⟩ := by decide +kernel
    obtain ⟨q₁, hq₁, -⟩ := dnsQueryKey_eq_some h₁
    obtain ⟨q₂, hq₂, -⟩ := dnsQueryKey_eq_some h₂
    refine ⟨_, q₁, q₂, h₁, h₂, hq₁, hq₂, ?_⟩
    rw [hq₁.opcode, hq₂.opcode]
    decide
  · have h₁ : dnsQueryKey sequenceHasher (buildQuery 0 0x0100 (3 :: ascii "a.b" ++ [0])) =
        some ⟨ascii "a.b", 1, 1, true, false, false, 0⟩ := by decide +kernel
    have h₂ : dnsQueryKey sequenceHasher (buildQuery 0 0x0100 [1, 97, 1, 98, 0]) =
        some ⟨ascii "a.b", 1, 1, true, false, false, 0⟩ := by decide +kernel
    obtain ⟨q₁, hq₁, -⟩ := dnsQueryKey_eq_some h₁
    obtain ⟨q₂, hq₂, -⟩ := dnsQueryKey_eq_some h₂
    refine ⟨_, q₁, q₂, h₁, h₂, hq₁, hq₂, ?_⟩
    obtain ⟨_, _, _, _, _, hn₁, -⟩ := hq₁.sections
    obtain ⟨_, _, _, _, _, hn₂, -⟩ := hq₂.sections
    have hl₁ : NameAt (buildQuery 0 0x0100 (3 :: ascii "a.b" ++ [0])) 0 12 [ascii "a.b"] 17 :=
      .label ⟨by decide, by decide, by decide, by decide⟩ (.root ⟨by decide, by decide⟩)
    have hl₂ : NameAt (buildQuery 0 0x0100 [1, 97, 1, 98, 0]) 0 12 [ascii "a", ascii "b"] 17 :=
      .label ⟨by decide, by decide, by decide, by decide⟩
        (.label ⟨by decide, by decide, by decide, by decide⟩ (.root ⟨by decide, by decide⟩))
    rw [(hn₁.unique hl₁).1, (hn₂.unique hl₂).1]
    decide

end Pingola
