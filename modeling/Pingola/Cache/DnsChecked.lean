import Pingola.Cache.DnsAging
import Pingola.Lib.Checked

/-!
# The DNS functions with their checks

The functions of `cache/dns.rs` once more, with every index, slice and sum that the source computes written as
an operation that may panic, and with every loop on a number of rounds whose end is a panic as well. They compute
what the plain functions say. `read_name` also counts the bytes that it visits.
-/

namespace Pingola
open ByteText Checked

/-- The bytes of a slice. No slice has more than `isize::MAX` bytes. -/
structure Slice where
  bytes : Bytes
  length_lt : bytes.length < 2 ^ 63

namespace CheckedDns

/-- `u16::from_be_bytes([wire[i], wire[i + 1]])`. -/
def u16From (wire : Bytes) (i : ℕ) : Checked ℕ := do
  let high ← index wire i
  let low ← index wire (← add 64 i 1)
  pure (high.toNat * 256 + low.toNat)

/-- `u32::from_be_bytes` of the four bytes from `i` on. -/
def u32From (wire : Bytes) (i : ℕ) : Checked ℕ := do
  let b0 ← index wire i
  let b1 ← index wire (← add 64 i 1)
  let b2 ← index wire (← add 64 i 2)
  let b3 ← index wire (← add 64 i 3)
  pure ((b0.toNat * 256 + b1.toNat) * 65536 + (b2.toNat * 256 + b3.toNat))

def skipNameLoop (wire : Bytes) : ℕ → ℕ → Checked ℕ
  | 0, _ => fault .unfinished
  | fuel + 1, offset =>
    if wire.length ≤ offset then absent
    else do
      let len ← index wire offset
      if len = 0 then add 64 offset 1
      else if len &&& 0xC0 = 0xC0 then do
        let second ← add 64 offset 1
        if wire.length ≤ second then absent else add 64 offset 2
      else do
        let offset ← add 64 offset 1
        let offset ← ofOption (checkedAdd 64 offset len.toNat)
        if wire.length < offset then absent else skipNameLoop wire fuel offset

def skipName (wire : Bytes) (offset : ℕ) : Checked ℕ := skipNameLoop wire (wire.length + 1) offset

/-- The loop of `read_name_labels`. A visit is made for each byte that a round comes to; the first byte of a
pointer is read twice in its round and is visited once. -/
def readNameLoop (wire : Bytes) (jump : ℕ → List Bytes → Checked (List Bytes)) :
    ℕ → ℕ → List Bytes → Checked (List Bytes × ℕ)
  | 0, _, _ => fault .unfinished
  | fuel + 1, offset, labels =>
    if wire.length ≤ offset then absent
    else do
      visit 1
      let len ← index wire offset
      if len = 0 then do
        let offset ← add 64 offset 1
        pure (labels, offset)
      else if len &&& 0xC0 = 0xC0 then do
        let second ← add 64 offset 1
        if wire.length ≤ second then absent
        else do
          visit 1
          let high ← index wire offset
          let low ← index wire (← add 64 offset 1)
          let offset ← add 64 offset 2
          let pointerLabels ← jump ((high &&& 0x3F).toNat * 256 + low.toNat) labels
          pure (pointerLabels, offset)
      else do
        let offset ← add 64 offset 1
        let next ← ofOption (checkedAdd 64 offset len.toNat)
        if wire.length < next then absent
        else do
          visit len.toNat
          let label ← slice wire offset next
          if !isUtf8 label then absent
          else readNameLoop wire jump fuel next (labels ++ [toAsciiLowercase label])

/-- `read_name_labels`; the depth has eight bits. -/
def readNameLabels (wire : Bytes) : ℕ → ℕ → ℕ → List Bytes → Checked (List Bytes × ℕ)
  | 0, _, _, _ => fault .unfinished
  | calls + 1, depth, offset, labels =>
    if 8 < depth then absent
    else
      readNameLoop wire (fun pointer pointerLabels => do
          let depth ← add 8 depth 1
          let r ← readNameLabels wire calls depth pointer pointerLabels
          pure r.1)
        (wire.length + 1) offset labels

def readName (wire : Bytes) (offset : ℕ) : Checked (Bytes × ℕ) := do
  let r ← readNameLabels wire 10 0 offset []
  pure ([byte '.'].intercalate r.1, r.2)

def skipRrs (wire : Bytes) : ℕ → ℕ → Checked ℕ
  | 0, offset => pure offset
  | count + 1, offset => do
    let offset ← skipName wire offset
    let room ← add 64 offset 10
    if wire.length < room then absent
    else do
      let rdlength ← u16From wire (← add 64 offset 8)
      let offset ← ofOption (checkedAdd 64 offset (← add 64 10 rdlength))
      if wire.length < offset then absent else skipRrs wire count offset

def ednsLoop (wire : Bytes) : ℕ → ℕ → Bool → List HashWrite → Bool → Checked (Bool × List HashWrite × Bool)
  | 0, _, doBit, calls, sawOpt => pure (doBit, calls, sawOpt)
  | count + 1, offset, doBit, calls, _ => do
    let offset ← skipName wire offset
    let room ← add 64 offset 10
    if wire.length < room then absent
    else do
      let rtype ← u16From wire offset
      let rclass ← u16From wire (← add 64 offset 2)
      let pseudoTtl ← u32From wire (← add 64 offset 4)
      let rdlength ← u16From wire (← add 64 offset 8)
      let rdataStart ← add 64 offset 10
      let next ← ofOption (checkedAdd 64 rdataStart rdlength)
      if wire.length < next || rtype != edns0Type then absent
      else do
        let rdata ← slice wire rdataStart next
        ednsLoop wire count next (doBit || pseudoTtl &&& 0x8000 != 0)
          (calls ++ [.u16 rclass, .u32 pseudoTtl, .bytes rdata]) true

def ednsState {D : Type} (H : AHasher D) (wire : Bytes) (offset : ℕ) : Checked (Bool × ℕ) := do
  let ancount ← u16From wire 6
  let nscount ← u16From wire 8
  let offset ← skipRrs wire (← add 64 ancount nscount) offset
  let arcount ← u16From wire 10
  let r ← ednsLoop wire arcount offset false [] false
  pure (r.1, if r.2.2 then H.value (H.finish r.2.1) else 0)

def dnsQueryKey {D : Type} (H : AHasher D) (wire : Bytes) : Checked DnsQueryKey :=
  if wire.length < 12 then absent
  else do
    let flags ← u16From wire 2
    if flags &&& 0x8000 != 0 then absent
    else do
      let qdcount ← u16From wire 4
      if qdcount != 1 then absent
      else do
        let name ← readName wire 12
        let room ← add 64 name.2 4
        if wire.length < room then absent
        else do
          let qtype ← u16From wire name.2
          let qclass ← u16From wire (← add 64 name.2 2)
          let edns ← ednsState H wire (← add 64 name.2 4)
          pure {
            qname := name.1
            qtype := qtype
            qclass := qclass
            rd := flags &&& 0x0100 != 0
            cd := flags &&& 0x0010 != 0
            doBit := edns.1
            ednsFingerprint := edns.2 }

def skipQuestionsLoop (wire : Bytes) : ℕ → ℕ → Checked ℕ
  | 0, offset => pure offset
  | count + 1, offset => do
    let offset ← skipName wire offset
    let offset ← ofOption (checkedAdd 64 offset 4)
    if wire.length < offset then absent else skipQuestionsLoop wire count offset

def skipQuestions (wire : Bytes) (offset : ℕ) : Checked ℕ :=
  if wire.length < 12 then absent
  else do
    let qdcount ← u16From wire 4
    skipQuestionsLoop wire qdcount offset

/-- `ancount + nscount + arcount`. -/
def recordCount (wire : Bytes) : Checked ℕ := do
  let ancount ← u16From wire 6
  let nscount ← u16From wire 8
  let arcount ← u16From wire 10
  add 64 (← add 64 ancount nscount) arcount

def minRrTtlLoop (wire : Bytes) : ℕ → ℕ → Option ℕ → Checked (Option ℕ)
  | 0, _, least => pure least
  | count + 1, offset, least => do
    let offset ← skipName wire offset
    let room ← add 64 offset 10
    if wire.length < room then absent
    else do
      let rtype ← u16From wire offset
      let rdlength ← u16From wire (← add 64 offset 8)
      let next ← ofOption (checkedAdd 64 offset (← add 64 10 rdlength))
      if wire.length < next then absent
      else if rtype != edns0Type then do
        let ttl ← u32From wire (← add 64 offset 4)
        minRrTtlLoop wire count next (some (least.elim ttl fun current => min current ttl))
      else minRrTtlLoop wire count next least

def minRrTtl (wire : Bytes) : Checked ℕ := do
  let offset ← skipQuestions wire 12
  let least ← minRrTtlLoop wire (← recordCount wire) offset none
  ofOption ((least.filter fun ttl => 0 < ttl).map fromSecs)

def negativeTtlLoop (wire : Bytes) : ℕ → ℕ → Option ℕ → Checked (Option ℕ)
  | 0, _, least => pure least
  | count + 1, offset, least => do
    let offset ← skipName wire offset
    let room ← add 64 offset 10
    if wire.length < room then absent
    else do
      let rtype ← u16From wire offset
      let rdlength ← u16From wire (← add 64 offset 8)
      let next ← ofOption (checkedAdd 64 offset (← add 64 10 rdlength))
      if wire.length < next then absent
      else if rtype == 6 && 4 ≤ rdlength then do
        let ttl ← u32From wire (← add 64 offset 4)
        let m0 ← index wire (← sub next 4)
        let m1 ← index wire (← sub next 3)
        let m2 ← index wire (← sub next 2)
        let m3 ← index wire (← sub next 1)
        let candidate := min ((m0.toNat * 256 + m1.toNat) * 65536 + (m2.toNat * 256 + m3.toNat)) ttl
        negativeTtlLoop wire count next (some (least.elim candidate fun current => min current candidate))
      else negativeTtlLoop wire count next least

def negativeTtl (wire : Bytes) : Checked ℕ := do
  let offset ← skipQuestions wire 12
  let ancount ← u16From wire 6
  let offset ← skipRrs wire ancount offset
  let nscount ← u16From wire 8
  let least ← negativeTtlLoop wire nscount offset none
  ofOption (least.map fun seconds => fromSecs (max seconds 1))

def dnsCacheable (response : Bytes) (policy : DnsCachePolicy) : Checked DnsCacheDecision :=
  if !policy.enabled || response.length < 12 || policy.maxResponseBytes < response.length then
    pure .notCacheable
  else do
    let flags ← u16From response 2
    if flags &&& 0x0200 != 0 then pure .notCacheable
    else
      match flags &&& 0x000F with
      | 0 => do
        match (← attempt (minRrTtl response)) with
        | none => pure .notCacheable
        | some minTtl => if minTtl = 0 then pure .notCacheable else pure (.cacheable (min minTtl policy.maxTtl))
      | 3 => do
        let ttl ← attempt (negativeTtl response)
        pure (.cacheable (min (ttl.getD policy.negativeTtl) policy.maxTtl))
      | _ => pure .notCacheable

def ageLoop (elapsedSecs : ℕ) : ℕ → Bytes → ℕ → Bool → Checked (Bytes × Bool)
  | 0, out, _, sawRealTtl => pure (out, sawRealTtl)
  | count + 1, out, offset, sawRealTtl => do
    let offset ← skipName out offset
    let room ← add 64 offset 10
    if out.length < room then absent
    else do
      let rtype ← u16From out offset
      let rdlength ← u16From out (← add 64 offset 8)
      let next ← ofOption (checkedAdd 64 offset (← add 64 10 rdlength))
      if out.length < next then absent
      else if rtype != edns0Type then do
        let ttlOffset ← add 64 offset 4
        let ttl ← u32From out ttlOffset
        if ttl - elapsedSecs = 0 then absent
        else do
          let out ← copyFromSlice out ttlOffset (← add 64 ttlOffset 4) (u32Bytes (ttl - elapsedSecs))
          ageLoop elapsedSecs count out next true
      else ageLoop elapsedSecs count out next sawRealTtl

def ageDnsResponseForQuery (response : Bytes) (storedAt now queryId : ℕ) : Checked Bytes :=
  if response.length < 12 then absent
  else do
    let elapsedSecs := min ((now - storedAt) / 1000000000) (2 ^ 32 - 1)
    let out ← copyFromSlice response 0 2 (u16Bytes queryId)
    let offset ← skipQuestions out 12
    let r ← ageLoop elapsedSecs (← recordCount out) out offset false
    if r.2 then pure r.1 else absent

/-! ### Names -/

section

variable {wire : Bytes}

lemma index_byte {i : ℕ} (h : i < wire.length) : index wire i = pure (wire.getD i 0) := index_of_lt 0 h

lemma copyFromSlice_eq_copyAt {data : Bytes} {i j : ℕ} (h : i + data.length = j) (hj : j ≤ wire.length) :
    copyFromSlice wire i j data = pure (copyAt wire i data) := copyFromSlice_of_le h hj

variable (hlen : wire.length < 2 ^ 63)
include hlen

lemma u16From_of_le {i : ℕ} (h : i + 2 ≤ wire.length) : u16From wire i = pure (u16At wire i) := by
  simp (disch := omega) only [u16From, index_byte, add_of_lt, Checked.pure_bind]
  rfl

lemma u32From_of_le {i : ℕ} (h : i + 4 ≤ wire.length) : u32From wire i = pure (u32At wire i) := by
  simp (disch := omega) only [u32From, index_byte, add_of_lt, Checked.pure_bind]
  rfl

/-- Each round gets at least one byte further, so the rounds suffice. -/
lemma skipNameLoop_computes {fuel offset : ℕ} (hfuel : wire.length - offset < fuel) :
    Computes (skipNameLoop wire fuel offset) (Pingola.skipNameLoop wire fuel offset) := by
  induction fuel generalizing offset with
  | zero => omega
  | succ fuel ih =>
    refine .ite (fun _ => .absent) fun hoff => ?_
    have hbyte := (wire.getD offset 0).toNat_lt
    simp (disch := omega) only [index_byte, add_of_lt, checkedAdd_of_lt, ofOption_some, Checked.pure_bind]
    refine .ite (fun _ => .pure _) fun _ => .ite (fun _ => ?_) fun _ => ?_
    · exact .ite (fun _ => .absent) fun _ => .pure _
    · exact .ite (fun _ => .absent) fun _ => ih (by omega)

lemma skipName_computes (offset : ℕ) : Computes (skipName wire offset) (Pingola.skipName wire offset) :=
  skipNameLoop_computes hlen (by omega)

/-- A call visits the bytes from its offset on, each of them once, and then follows one pointer at most. -/
lemma readNameLoop_within {bound : ℕ} {jump : ℕ → List Bytes → Checked (List Bytes)}
    {plain : ℕ → List Bytes → Option (List Bytes)}
    (hjump : ∀ pointer labels, Within bound (jump pointer labels) (plain pointer labels)) {fuel offset : ℕ}
    (labels : List Bytes) (hfuel : wire.length - offset < fuel) :
    Within (wire.length - offset + bound) (readNameLoop wire jump fuel offset labels)
      (Pingola.readNameLoop wire plain fuel offset labels) := by
  induction fuel generalizing offset labels with
  | zero => omega
  | succ fuel ih =>
    rw [readNameLoop, Pingola.readNameLoop]
    refine .ite (fun _ => .absent _) fun hoff => ?_
    have hbyte := (wire.getD offset 0).toNat_lt
    have hfirst : wire.length - offset + bound = 1 + (wire.length - (offset + 1) + bound) := by omega
    rw [hfirst]
    refine .visit_bind 1 ?_
    simp (disch := omega) only [index_byte, add_of_lt, checkedAdd_of_lt, ofOption_some, Checked.pure_bind]
    refine .ite (fun _ => .pure _ _) fun _ => .ite (fun _ => .ite (fun _ => .absent _) fun hsecond => ?_) fun _ =>
      .ite (fun _ => .absent _) fun hfits => ?_
    · refine (Within.visit_bind 1 (n := bound) ?_).mono (by omega)
      exact (hjump _ labels).map fun pointerLabels => (pointerLabels, offset + 2)
    · have hrest : wire.length - (offset + 1) + bound = (wire.getD offset 0).toNat +
          (wire.length - (offset + 1 + (wire.getD offset 0).toNat) + bound) := by omega
      rw [hrest]
      refine .visit_bind _ ?_
      rw [slice_of_le (by omega) (by omega), Checked.pure_bind, Nat.add_sub_cancel_left]
      exact .ite (fun _ => .absent _) fun _ => ih _ (by omega)

lemma readNameLabels_within {calls depth : ℕ} (hdepth : depth + calls = 9) (offset : ℕ) (labels : List Bytes) :
    Within (calls * wire.length) (readNameLabels wire (calls + 1) depth offset labels)
      (Pingola.readNameLabels wire calls offset labels) := by
  induction calls generalizing depth offset labels with
  | zero =>
    rw [readNameLabels, if_pos (by omega)]
    exact .absent _
  | succ calls ih =>
    rw [readNameLabels, if_neg (by omega), Pingola.readNameLabels]
    have hjump : ∀ pointer pointerLabels, Within (calls * wire.length)
        (do
          let depth ← add 8 depth 1
          let r ← readNameLabels wire (calls + 1) depth pointer pointerLabels
          pure r.1)
        ((Pingola.readNameLabels wire calls pointer pointerLabels).map Prod.fst) := by
      intro pointer pointerLabels
      rw [add_of_lt (by omega), Checked.pure_bind]
      exact (ih (by omega) pointer pointerLabels).map Prod.fst
    refine (readNameLoop_within hlen hjump labels (by omega)).mono ?_
    rw [Nat.succ_mul]
    omega

lemma readName_within (offset : ℕ) : Within (9 * wire.length) (readName wire offset) (Pingola.readName wire offset) :=
  (readNameLabels_within hlen rfl offset []).map fun r => ([byte '.'].intercalate r.1, r.2)

end

/-- `skip_name` ends where `read_name` ends: where a name ends does not depend on what its pointer leads to. -/
lemma skipName_of_readName {wire : Bytes} {offset : ℕ} {name : Bytes × ℕ}
    (h : Pingola.readName wire offset = some name) : Pingola.skipName wire offset = some name.2 := by
  obtain ⟨qname, next⟩ := name
  obtain ⟨jumps, -, raw, hname, -⟩ := readName_eq_some_iff.mp h
  rw [skipName_eq_some_iff]
  clear h
  induction hname with
  | root hr => exact .root hr
  | pointer hp _ _ => exact .pointer hp
  | label hl _ ih => exact .label hl ih

/-! ### Records -/

section

variable {wire : Bytes}

lemma le_of_skipName {offset next : ℕ} (h : Pingola.skipName wire offset = some next) : next ≤ wire.length := by
  have hends := skipName_eq_some_iff.mp h
  clear h
  induction hends with
  | root hr => exact hr.bound
  | pointer hp => exact hp.bound
  | label _ _ ih => exact ih

lemma le_of_skipQuestions {offset next : ℕ} (h : Pingola.skipQuestions wire offset = some next) :
    12 ≤ wire.length := by
  unfold Pingola.skipQuestions at h
  by_contra hroom
  rw [if_pos (by omega)] at h
  cases h

/-- The last four bytes before an offset. -/
lemma u32At_sub_four {next : ℕ} (h : 4 ≤ next) :
    u32At wire (next - 4) = (byteAt wire (next - 4) * 256 + byteAt wire (next - 3)) * 65536 +
      (byteAt wire (next - 2) * 256 + byteAt wire (next - 1)) := by
  obtain ⟨start, rfl⟩ := Nat.exists_eq_add_of_le' h
  rfl

variable (hlen : wire.length < 2 ^ 63)
include hlen

/-- The head of every loop over records: the owner name, and room for the fixed part. -/
lemma record_computes {α : Type} {f : ℕ → Checked α} {g : ℕ → Option α} (offset : ℕ)
    (h : ∀ owner, owner + 10 ≤ wire.length → Computes (f owner) (g owner)) :
    Computes
      (do
        let owner ← skipName wire offset
        let room ← add 64 owner 10
        if wire.length < room then absent else f owner)
      (do
        let owner ← Pingola.skipName wire offset
        if wire.length < owner + 10 then none else g owner) := by
  refine (skipName_computes hlen offset).bind fun owner howner => ?_
  have hle := le_of_skipName howner
  rw [add_of_lt (by omega), Checked.pure_bind]
  exact .ite (fun _ => .absent) fun hroom => h owner (by omega)

lemma skipRrs_computes (count offset : ℕ) :
    Computes (skipRrs wire count offset) (Pingola.skipRrs wire count offset) := by
  induction count generalizing offset with
  | zero => exact .pure _
  | succ count ih =>
    refine record_computes hlen offset fun owner hroom => ?_
    have hrdlength := u16At_lt wire (owner + 8)
    simp (disch := omega) only [add_of_lt, u16From_of_le hlen, checkedAdd_of_lt, ofOption_some, Checked.pure_bind]
    exact .ite (fun _ => .absent) fun _ => ih _

lemma skipQuestionsLoop_computes (count offset : ℕ) :
    Computes (skipQuestionsLoop wire count offset) (Pingola.skipQuestionsLoop wire count offset) := by
  induction count generalizing offset with
  | zero => exact .pure _
  | succ count ih =>
    refine (skipName_computes hlen offset).bind fun owner howner => ?_
    have hle := le_of_skipName howner
    rw [checkedAdd_of_lt (by omega), ofOption_some, Checked.pure_bind]
    exact .ite (fun _ => .absent) fun _ => ih _

lemma skipQuestions_computes (offset : ℕ) :
    Computes (skipQuestions wire offset) (Pingola.skipQuestions wire offset) := by
  refine .ite (fun _ => .absent) fun hroom => ?_
  rw [u16From_of_le hlen (by omega), Checked.pure_bind]
  exact skipQuestionsLoop_computes hlen _ _

lemma recordCount_of_le (h : 12 ≤ wire.length) :
    recordCount wire = pure (u16At wire 6 + u16At wire 8 + u16At wire 10) := by
  have han := u16At_lt wire 6
  have hns := u16At_lt wire 8
  have har := u16At_lt wire 10
  simp (disch := omega) only [recordCount, u16From_of_le hlen, add_of_lt, Checked.pure_bind]

lemma ednsLoop_computes (count offset : ℕ) (doBit : Bool) (calls : List HashWrite) (sawOpt : Bool) :
    Computes (ednsLoop wire count offset doBit calls sawOpt)
      (Pingola.ednsLoop wire count offset doBit calls sawOpt) := by
  induction count generalizing offset doBit calls sawOpt with
  | zero => exact .pure _
  | succ count ih =>
    refine record_computes hlen offset fun owner hroom => ?_
    have hrdlength := u16At_lt wire (owner + 8)
    simp (disch := omega) only [add_of_lt, u16From_of_le hlen, u32From_of_le hlen, checkedAdd_of_lt, ofOption_some,
      Checked.pure_bind]
    refine .ite (fun _ => .absent) fun hnext => ?_
    simp only [Bool.or_eq_true, decide_eq_true_eq, not_or] at hnext
    rw [slice_of_le (by omega) (by omega), Checked.pure_bind]
    exact ih _ _ _ _

lemma minRrTtlLoop_computes (count offset : ℕ) (least : Option ℕ) :
    Computes (minRrTtlLoop wire count offset least) (Pingola.minRrTtlLoop wire count offset least) := by
  induction count generalizing offset least with
  | zero => exact .pure _
  | succ count ih =>
    refine record_computes hlen offset fun owner hroom => ?_
    have hrdlength := u16At_lt wire (owner + 8)
    simp (disch := omega) only [add_of_lt, u16From_of_le hlen, u32From_of_le hlen, checkedAdd_of_lt, ofOption_some,
      Checked.pure_bind]
    exact .ite (fun _ => .absent) fun _ => .ite (fun _ => ih _ _) fun _ => ih _ _

lemma negativeTtlLoop_computes (count offset : ℕ) (least : Option ℕ) :
    Computes (negativeTtlLoop wire count offset least) (Pingola.negativeTtlLoop wire count offset least) := by
  induction count generalizing offset least with
  | zero => exact .pure _
  | succ count ih =>
    refine record_computes hlen offset fun owner hroom => ?_
    have hrdlength := u16At_lt wire (owner + 8)
    simp (disch := omega) only [add_of_lt, u16From_of_le hlen, u32From_of_le hlen, checkedAdd_of_lt, ofOption_some,
      Checked.pure_bind]
    refine .ite (fun _ => .absent) fun hnext => .ite (fun hsoa => ?_) fun _ => ih _ _
    simp (disch := omega) only [sub_of_le, index_byte, Checked.pure_bind]
    rw [u32At_sub_four (by omega)]
    exact ih _ _

lemma ageLoop_computes (elapsed count offset : ℕ) (saw : Bool) :
    Computes (ageLoop elapsed count wire offset saw) (Pingola.ageLoop elapsed count wire offset saw) := by
  induction count generalizing wire offset saw with
  | zero => exact .pure _
  | succ count ih =>
    refine record_computes hlen offset fun owner hroom => ?_
    have hrdlength := u16At_lt wire (owner + 8)
    simp (disch := omega) only [add_of_lt, u16From_of_le hlen, u32From_of_le hlen, checkedAdd_of_lt, ofOption_some,
      Checked.pure_bind]
    refine .ite (fun _ => .absent) fun hnext => .ite (fun _ => ?_) fun _ => ih hlen _ _
    refine .ite (fun _ => .absent) fun _ => ?_
    have hfits : recordEnd wire owner ≤ wire.length := Nat.le_of_not_lt hnext
    have hcopied := length_copyAt_ttl (u32At wire (owner + 4) - elapsed) hfits
    rw [copyFromSlice_eq_copyAt (by rfl) (by omega), Checked.pure_bind]
    exact ih (hcopied.trans_lt hlen) _ _

lemma ednsState_computes {D : Type} (H : AHasher D) (hroom : 12 ≤ wire.length) (offset : ℕ) :
    Computes (ednsState H wire offset) (Pingola.ednsState H wire offset) := by
  have han := u16At_lt wire 6
  have hns := u16At_lt wire 8
  simp (disch := omega) only [ednsState, u16From_of_le hlen, add_of_lt, Checked.pure_bind]
  refine (skipRrs_computes hlen _ _).bind fun next _ => ?_
  exact (ednsLoop_computes hlen _ _ _ _ _).bind fun r _ => .pure _

lemma dnsQueryKey_computes {D : Type} (H : AHasher D) :
    Computes (dnsQueryKey H wire) (Pingola.dnsQueryKey H wire) := by
  refine .ite (fun _ => .absent) fun hroom => ?_
  simp (disch := omega) only [u16From_of_le hlen, Checked.pure_bind]
  refine .ite (fun _ => .absent) fun _ => .ite (fun _ => .absent) fun _ => ?_
  refine (readName_within hlen 12).computes.bind fun name hname => ?_
  have hle := le_of_skipName (skipName_of_readName hname)
  rw [add_of_lt (by omega), Checked.pure_bind]
  refine .ite (fun _ => .absent) fun hquestion => ?_
  simp (disch := omega) only [u16From_of_le hlen, add_of_lt, Checked.pure_bind]
  exact (ednsState_computes hlen H (by omega) _).bind fun edns _ => .pure _

lemma minRrTtl_computes : Computes (minRrTtl wire) (Pingola.minRrTtl wire) := by
  refine (skipQuestions_computes hlen 12).bind fun offset hoffset => ?_
  rw [recordCount_of_le hlen (le_of_skipQuestions hoffset), Checked.pure_bind]
  exact (minRrTtlLoop_computes hlen _ _ _).bind fun least _ => .ofOption _

lemma negativeTtl_computes : Computes (negativeTtl wire) (Pingola.negativeTtl wire) := by
  refine (skipQuestions_computes hlen 12).bind fun offset hoffset => ?_
  have hroom := le_of_skipQuestions hoffset
  rw [u16From_of_le hlen (by omega), Checked.pure_bind]
  refine (skipRrs_computes hlen _ _).bind fun next _ => ?_
  rw [u16From_of_le hlen (by omega), Checked.pure_bind]
  exact (negativeTtlLoop_computes hlen _ _ _).bind fun least _ => .ofOption _

lemma dnsCacheable_computes (policy : DnsCachePolicy) :
    Computes (dnsCacheable wire policy) (some (Pingola.dnsCacheable wire policy)) := by
  simp only [dnsCacheable, Pingola.dnsCacheable, apply_ite some]
  refine .ite (fun _ => .pure _) fun hguard => ?_
  have hroom : ¬wire.length < 12 := by
    intro hshort
    simp [hshort] at hguard
  rw [u16From_of_le hlen (by omega), Checked.pure_bind]
  refine .ite (fun _ => .pure _) fun _ => ?_
  -- the response codes that the source tells apart are 0 and 3
  generalize u16At wire 2 &&& 0x000F = code
  rcases code with _ | _ | _ | _ | code
  · refine (minRrTtl_computes hlen).attempt.bind_some ?_
    cases Pingola.minRrTtl wire with
    | none => exact .pure _
    | some minTtl =>
      simp only [apply_ite some]
      exact .ite (fun _ => .pure _) fun _ => .pure _
  · exact .pure _
  · exact .pure _
  · exact (negativeTtl_computes hlen).attempt.bind_some (.pure _)
  · exact .pure _

lemma ageDnsResponseForQuery_computes (storedAt now queryId : ℕ) :
    Computes (ageDnsResponseForQuery wire storedAt now queryId)
      (Pingola.ageDnsResponseForQuery wire storedAt now queryId) := by
  refine .ite (fun _ => .absent) fun hroom => ?_
  rw [copyFromSlice_eq_copyAt (by rfl) (by omega), Checked.pure_bind]
  have hfits : (copyAt wire 0 (u16Bytes queryId)).length < 2 ^ 63 := by
    rw [length_copyAt_id queryId (by omega)]
    exact hlen
  refine (skipQuestions_computes hfits 12).bind fun offset hoffset => ?_
  rw [recordCount_of_le hfits (le_of_skipQuestions hoffset), Checked.pure_bind]
  refine (ageLoop_computes hfits _ _ _ _).bind fun r _ => ?_
  exact .ite (fun _ => .pure _) fun _ => .absent

end

end CheckedDns

/-- `read_name` ends after at most nine times as many visits as the message has bytes, also for pointers that lead
back, and `skip_name` ends where it ends. -/
theorem name_walks_bounded_and_agree (message : Slice) (offset : ℕ) :
    (∃ visits ≤ 9 * message.bytes.length,
      CheckedDns.readName message.bytes offset = ran (readName message.bytes offset) visits) ∧
    ∀ qname next visits, CheckedDns.readName message.bytes offset = ran (some (qname, next)) visits →
      ∃ skipped, CheckedDns.skipName message.bytes offset = ran (some next) skipped := by
  have hread := CheckedDns.readName_within message.length_lt offset
  refine ⟨hread, fun qname next visits h => ?_⟩
  obtain ⟨visits', -, hresult⟩ := hread
  obtain ⟨hname, -⟩ := Checked.ran.inj (h.symm.trans hresult)
  obtain ⟨n, skipped, -, hskip⟩ := CheckedDns.skipName_computes message.length_lt offset
  exact ⟨skipped, by rw [hskip, CheckedDns.skipName_of_readName hname.symm]⟩

/-- A label, a pointer to the last byte, and the root there. -/
def compressedName : Slice := ⟨[1, 0x61, 0xC0, 4, 0], by decide⟩

theorem compressed_name_walks :
    CheckedDns.readName compressedName.bytes 0 = ran (some ([0x61], 4)) 5 ∧
      ∃ skipped, CheckedDns.skipName compressedName.bytes 0 = ran (some 4) skipped := by
  have hread : CheckedDns.readName compressedName.bytes 0 = ran (some ([0x61], 4)) 5 := by decide +kernel
  exact ⟨hread, (name_walks_bounded_and_agree compressedName 0).2 _ _ _ hread⟩

-- a pointer to itself makes all the visits that the bound allows
example : CheckedDns.readName [0xC0, 0] 0 = ran none 18 := by decide +kernel

/-- No message makes the DNS functions of the cache index outside of it, leave the range of an integer or run on:
they return what the plain functions say. -/
theorem dns_parsing_never_panics {D : Type} (H : AHasher D) (message : Slice) (policy : DnsCachePolicy)
    (storedAt now : ℕ) (queryId : UInt16) :
    (∃ visits, CheckedDns.dnsQueryKey H message.bytes = ran (dnsQueryKey H message.bytes) visits) ∧
    (∃ visits, CheckedDns.dnsCacheable message.bytes policy =
      ran (some (dnsCacheable message.bytes policy)) visits) ∧
    ∃ visits, CheckedDns.ageDnsResponseForQuery message.bytes storedAt now queryId.toNat =
      ran (ageDnsResponseForQuery message.bytes storedAt now queryId.toNat) visits := by
  have hlen := message.length_lt
  refine ⟨?_, ?_, ?_⟩
  · exact (CheckedDns.dnsQueryKey_computes hlen H).exists_ran
  · exact (CheckedDns.dnsCacheable_computes hlen policy).exists_ran
  · exact (CheckedDns.ageDnsResponseForQuery_computes hlen storedAt now queryId.toNat).exists_ran

end Pingola
