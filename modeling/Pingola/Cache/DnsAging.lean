import Mathlib.Data.List.GetD
import Mathlib.Data.List.Pairwise
import Pingola.Cache.DnsMessage

/-!
# Aging of DNS answers

`age_dns_response_for_query` finds the TTL fields by a walk over the buffer that it rewrites. The walk
never reads a TTL field, so the rewriting moves no record, and aging twice is aging once by the sum.
-/

namespace Pingola
open ByteText

/-- Where the fixed parts of `count` records start, if the records are within the message. -/
def recordOwners (wire : Bytes) : ℕ → ℕ → Option (List ℕ)
  | 0, _ => some []
  | count + 1, offset => do
    let owner ← skipName wire offset
    if wire.length < recordEnd wire owner then none
    else (recordOwners wire count (recordEnd wire owner)).map (owner :: ·)

/-- Where the fixed parts of all records of a message start. -/
def messageOwners (wire : Bytes) : Option (List ℕ) := do
  let offset ← skipQuestions wire 12
  recordOwners wire (u16At wire 6 + u16At wire 8 + u16At wire 10) offset

/-- A record with a real TTL, which an OPT record does not have. -/
def HasTtl (wire : Bytes) (owner : ℕ) : Prop := u16At wire owner ≠ edns0Type

instance (wire : Bytes) : DecidablePred (HasTtl wire) := fun owner =>
  inferInstanceAs (Decidable (u16At wire owner ≠ edns0Type))

/-- A position in the TTL field of a record. -/
def InTtl (owner i : ℕ) : Prop := owner + 4 ≤ i ∧ i < owner + 8

/-- The whole seconds between two instants. -/
def elapsedSecs (storedAt now : ℕ) : ℕ := (now - storedAt) / 1000000000

/-- The records at `owners` are older by `e` seconds, and nothing else has changed. -/
structure Aged (e : ℕ) (owners : List ℕ) (wire out : Bytes) : Prop where
  length : out.length = wire.length
  ttl : ∀ owner ∈ owners, HasTtl wire owner →
    1 ≤ u32At out (owner + 4) ∧ u32At out (owner + 4) + e = u32At wire (owner + 4)
  frame : ∀ i, (∀ owner ∈ owners, HasTtl wire owner → ¬InTtl owner i) → out.getD i 0 = wire.getD i 0

/-! ### Fields -/

section

variable {a b : Bytes}

lemma u16At_congr {i : ℕ} (h : ∀ j, i ≤ j → j < i + 2 → b.getD j 0 = a.getD j 0) : u16At b i = u16At a i := by
  rw [u16At, u16At, byteAt, byteAt, byteAt, byteAt, h i (by omega) (by omega), h (i + 1) (by omega) (by omega)]

lemma u32At_congr {i : ℕ} (h : ∀ j, i ≤ j → j < i + 4 → b.getD j 0 = a.getD j 0) : u32At b i = u32At a i := by
  rw [u32At, u32At, u16At_congr fun j hj hj' => h j hj (by omega),
    u16At_congr fun j hj hj' => h j (by omega) (by omega)]

lemma recordEnd_congr {owner : ℕ} (h : ∀ j, owner + 8 ≤ j → j < owner + 10 → b.getD j 0 = a.getD j 0) :
    recordEnd b owner = recordEnd a owner := by
  rw [recordEnd, recordEnd, u16At_congr h]

lemma byteAt_lt (wire : Bytes) (i : ℕ) : byteAt wire i < 256 := UInt8.toNat_lt _

lemma u16At_lt (wire : Bytes) (i : ℕ) : u16At wire i < 2 ^ 16 := by
  have h1 := byteAt_lt wire i
  have h2 := byteAt_lt wire (i + 1)
  unfold u16At
  omega

lemma u32At_lt (wire : Bytes) (i : ℕ) : u32At wire i < 2 ^ 32 := by
  have h1 := u16At_lt wire i
  have h2 := u16At_lt wire (i + 2)
  unfold u32At
  omega

/-- Messages with the same value in a field have the same bytes there. -/
lemma getD_eq_of_u16At_eq {i j : ℕ} (h : u16At b i = u16At a i) (hj : i ≤ j) (hj' : j < i + 2) :
    b.getD j 0 = a.getD j 0 := by
  have hb := byteAt_lt b (i + 1)
  have ha := byteAt_lt a (i + 1)
  rw [← UInt8.toNat_inj]
  change byteAt b j = byteAt a j
  unfold u16At at h
  obtain rfl | rfl : j = i ∨ j = i + 1 := by omega
  all_goals omega

lemma getD_eq_of_u32At_eq {i j : ℕ} (h : u32At b i = u32At a i) (hj : i ≤ j) (hj' : j < i + 4) :
    b.getD j 0 = a.getD j 0 := by
  have hb := u16At_lt b (i + 2)
  have ha := u16At_lt a (i + 2)
  unfold u32At at h
  by_cases hhalf : j < i + 2
  · exact getD_eq_of_u16At_eq (i := i) (by omega) hj hhalf
  · exact getD_eq_of_u16At_eq (i := i + 2) (by omega) (by omega) (by omega)

end

section

variable {out : Bytes} {i : ℕ}

lemma length_copyAt {data : Bytes} (h : i + data.length ≤ out.length) :
    (copyAt out i data).length = out.length := by
  simp only [copyAt, List.length_append, List.length_take, List.length_drop]
  omega

lemma getD_copyAt_of_outside {data : Bytes} {j : ℕ} (h : i + data.length ≤ out.length)
    (hj : j < i ∨ i + data.length ≤ j) : (copyAt out i data).getD j 0 = out.getD j 0 := by
  simp only [copyAt, List.getD_eq_getElem?_getD, List.getElem?_append, List.length_append, List.length_take,
    List.getElem?_take, List.getElem?_drop]
  rcases hj with hj | hj
  · rw [if_pos (by omega), if_pos (by omega), if_pos hj]
  · rw [if_neg (by omega)]
    congr 2
    omega

lemma getD_copyAt_of_inside {data : Bytes} {j : ℕ} (h : i + data.length ≤ out.length) (hj : j < data.length) :
    (copyAt out i data).getD (i + j) 0 = data.getD j 0 := by
  simp only [copyAt, List.getD_eq_getElem?_getD, List.getElem?_append, List.length_append, List.length_take,
    List.getElem?_take]
  rw [if_pos (by omega), if_neg (by omega)]
  congr 2
  omega

lemma u16At_copyAt {n : ℕ} (h : i + 2 ≤ out.length) (hn : n < 2 ^ 16) : u16At (copyAt out i (u16Bytes n)) i = n := by
  have hbyte : ∀ j < 2, (copyAt out i (u16Bytes n)).getD (i + j) 0 = (u16Bytes n).getD j 0 :=
    fun j hj => getD_copyAt_of_inside h hj
  have h0 := hbyte 0 (by omega)
  rw [Nat.add_zero] at h0
  rw [u16At, byteAt, byteAt, h0, hbyte 1 (by omega)]
  simp only [u16Bytes, List.getD_cons_zero, List.getD_cons_succ, Nat.toUInt8_eq, UInt8.toNat_ofNat']
  omega

lemma u32At_copyAt {n : ℕ} (h : i + 4 ≤ out.length) (hn : n < 2 ^ 32) : u32At (copyAt out i (u32Bytes n)) i = n := by
  have hbyte : ∀ j < 4, (copyAt out i (u32Bytes n)).getD (i + j) 0 = (u32Bytes n).getD j 0 :=
    fun j hj => getD_copyAt_of_inside h hj
  have h0 := hbyte 0 (by omega)
  rw [Nat.add_zero] at h0
  simp only [u32At, u16At, byteAt, Nat.add_assoc, Nat.reduceAdd, h0, hbyte 1 (by omega), hbyte 2 (by omega),
    hbyte 3 (by omega)]
  simp only [u32Bytes, u16Bytes, List.cons_append, List.nil_append, List.getD_cons_zero, List.getD_cons_succ,
    Nat.toUInt8_eq, UInt8.toNat_ofNat']
  omega

end

/-! ### The walk does not read TTL fields -/

section

variable {a b : Bytes}

lemma NameEnds.lt {off next : ℕ} (h : NameEnds a off next) : off < next := by
  induction h with
  | root => omega
  | pointer => omega
  | label _ _ ih => unfold labelEnd at ih; omega

/-- The end of a name depends on its own bytes only. -/
lemma NameEnds.congr {off next : ℕ} (h : NameEnds a off next) (hlen : b.length = a.length)
    (hsame : ∀ i, off ≤ i → i < next → b.getD i 0 = a.getD i 0) : NameEnds b off next := by
  induction h with
  | @root off hr => exact .root ⟨hlen ▸ hr.bound, (hsame off (by omega) (by omega)).trans hr.zero⟩
  | @pointer off hp =>
    refine .pointer ⟨hlen ▸ hp.bound, ?_⟩
    rw [hsame off (by omega) (by omega)]
    exact hp.marked
  | @label off next hl hn ih =>
    have hlt := hn.lt
    have hend : off < labelEnd a off := by unfold labelEnd; omega
    have hbyte : b.getD off 0 = a.getD off 0 := hsame off (by omega) (by omega)
    have hlabel : labelEnd b off = labelEnd a off := by rw [labelEnd, labelEnd, byteAt, byteAt, hbyte]
    refine .label ⟨hlen ▸ hl.bound, hbyte ▸ hl.nonzero, hbyte ▸ hl.unmarked, ?_⟩ ?_
    · rw [hlabel, hlen]
      exact hl.fits
    · rw [hlabel]
      exact ih fun i hi hi' => hsame i (by omega) hi'

/-- The layout of records: the first one and the records after it. -/
lemma recordOwners_cons_iff {count off : ℕ} {owners : List ℕ} :
    recordOwners a (count + 1) off = some owners ↔
      ∃ owner rest, owners = owner :: rest ∧ NameEnds a off owner ∧ recordEnd a owner ≤ a.length ∧
        recordOwners a count (recordEnd a owner) = some rest := by
  simp only [recordOwners, Option.bind_eq_bind, Option.bind_eq_some_iff, skipName_eq_some_iff]
  constructor
  · rintro ⟨owner, hname, h⟩
    split_ifs at h with hfits
    obtain ⟨rest, hrest, rfl⟩ := Option.map_eq_some_iff.mp h
    exact ⟨owner, rest, rfl, hname, by omega, hrest⟩
  · rintro ⟨owner, rest, rfl, hname, hfits, hrest⟩
    refine ⟨owner, hname, ?_⟩
    rw [if_neg (by omega), hrest, Option.map_some]

lemma lt_of_mem_recordOwners {count off : ℕ} {owners : List ℕ} (h : recordOwners a count off = some owners) :
    ∀ owner ∈ owners, off < owner := by
  induction count generalizing off owners with
  | zero =>
    obtain rfl := Option.some.inj h
    simp
  | succ count ih =>
    obtain ⟨owner, rest, rfl, hname, -, hrest⟩ := recordOwners_cons_iff.mp h
    have hlt := hname.lt
    intro o ho
    rcases List.mem_cons.mp ho with rfl | ho
    · exact hlt
    · have hnext := ih hrest o ho
      unfold recordEnd at hnext
      omega

/-- Messages that differ in TTL fields only have the same records. -/
lemma recordOwners_congr {count off : ℕ} {owners : List ℕ} (h : recordOwners a count off = some owners)
    (hlen : b.length = a.length)
    (hsame : ∀ i, off ≤ i → (∀ owner ∈ owners, ¬InTtl owner i) → b.getD i 0 = a.getD i 0) :
    recordOwners b count off = some owners ∧ ∀ owner ∈ owners, recordEnd b owner = recordEnd a owner := by
  induction count generalizing off owners with
  | zero =>
    obtain rfl := Option.some.inj h
    exact ⟨rfl, by simp⟩
  | succ count ih =>
    obtain ⟨owner, rest, rfl, hname, hfits, hrest⟩ := recordOwners_cons_iff.mp h
    have hlt := hname.lt
    have hlater := lt_of_mem_recordOwners hrest
    have hroom : owner + 10 ≤ recordEnd a owner := by unfold recordEnd; omega
    -- later records start behind this one, so only its own TTL field is exempt up to its end
    have hhere : ∀ i, off ≤ i → i ≤ recordEnd a owner → ¬InTtl owner i → b.getD i 0 = a.getD i 0 := by
      intro i hi hi' httl
      refine hsame i hi fun o ho => ?_
      rcases List.mem_cons.mp ho with rfl | ho
      · exact httl
      · have hbehind := hlater o ho
        unfold InTtl
        omega
    have hend : recordEnd b owner = recordEnd a owner := by
      apply recordEnd_congr
      intro j hj hj'
      exact hhere j (by omega) (by omega) (by unfold InTtl; omega)
    obtain ⟨hrest', hends⟩ := ih hrest fun i hi httl => by
      refine hsame i (by omega) fun o ho => ?_
      rcases List.mem_cons.mp ho with rfl | ho
      · unfold InTtl
        omega
      · exact httl o ho
    refine ⟨recordOwners_cons_iff.mpr ⟨owner, rest, rfl, ?_, ?_, ?_⟩, ?_⟩
    · exact hname.congr hlen fun i hi hi' => hhere i hi (by omega) (by unfold InTtl; omega)
    · rw [hend, hlen]
      exact hfits
    · rw [hend]
      exact hrest'
    · intro o ho
      rcases List.mem_cons.mp ho with rfl | ho
      · exact hend
      · exact hends o ho

end

/-! ### The loop -/

/-- The bytes from the end of a record on are not touched when its TTL is rewritten. -/
lemma getD_copyAt_ttl {owner i : ℕ} {out : Bytes} (n : ℕ) (hfits : recordEnd out owner ≤ out.length)
    (hi : ¬InTtl owner i) : (copyAt out (owner + 4) (u32Bytes n)).getD i 0 = out.getD i 0 := by
  unfold recordEnd at hfits
  unfold InTtl at hi
  have hlen : (u32Bytes n).length = 4 := rfl
  exact getD_copyAt_of_outside (by omega) (by omega)

lemma length_copyAt_ttl {owner : ℕ} {out : Bytes} (n : ℕ) (hfits : recordEnd out owner ≤ out.length) :
    (copyAt out (owner + 4) (u32Bytes n)).length = out.length := by
  have hlen : (u32Bytes n).length = 4 := rfl
  unfold recordEnd at hfits
  exact length_copyAt (by omega)

/-- A round of the loop, given the layout of the record. -/
lemma ageLoop_succ {e count off owner : ℕ} {out : Bytes} {saw : Bool} (hname : NameEnds out off owner)
    (hfits : recordEnd out owner ≤ out.length) :
    ageLoop e (count + 1) out off saw =
      if HasTtl out owner then
        if u32At out (owner + 4) ≤ e then none
        else ageLoop e count (copyAt out (owner + 4) (u32Bytes (u32At out (owner + 4) - e))) (recordEnd out owner) true
      else ageLoop e count out (recordEnd out owner) saw := by
  have hroom : owner + 10 ≤ recordEnd out owner := by unfold recordEnd; omega
  simp only [ageLoop, skipName_eq_some_iff.mpr hname, Option.bind_eq_bind, Option.bind_some]
  rw [if_neg (by omega), if_neg (by unfold recordEnd at hfits; omega)]
  by_cases httl : HasTtl out owner
  · rw [if_pos httl, if_pos (by simpa [HasTtl] using httl)]
    simp only [Nat.sub_eq_zero_iff_le]
    rfl
  · rw [if_neg httl, if_neg (by simpa [HasTtl] using httl)]
    rfl

/-- The loop only gets past a record that lies within the message. -/
lemma exists_layout_of_ageLoop {e count off : ℕ} {out : Bytes} {saw : Bool} {result : Bytes × Bool}
    (h : ageLoop e (count + 1) out off saw = some result) :
    ∃ owner, NameEnds out off owner ∧ recordEnd out owner ≤ out.length := by
  simp only [ageLoop, Option.bind_eq_bind, Option.bind_eq_some_iff, skipName_eq_some_iff] at h
  obtain ⟨owner, hname, h⟩ := h
  refine ⟨owner, hname, ?_⟩
  split at h
  · cases h
  · split at h
    · cases h
    · unfold recordEnd
      omega

/-- One record is rewritten, and the records behind it age after that. -/
lemma Aged.cons {e owner : ℕ} {rest : List ℕ} {out out' : Bytes} (hreal : HasTtl out owner)
    (hfits : recordEnd out owner ≤ out.length)
    (hleft : e < u32At out (owner + 4)) (hlater : ∀ o ∈ rest, recordEnd out owner < o)
    (h : Aged e rest (copyAt out (owner + 4) (u32Bytes (u32At out (owner + 4) - e))) out') :
    Aged e (owner :: rest) out out' := by
  have hsame := fun {i : ℕ} => getD_copyAt_ttl (i := i) (u32At out (owner + 4) - e) hfits
  have hlen := length_copyAt_ttl (u32At out (owner + 4) - e) hfits
  have hroom : owner + 10 ≤ recordEnd out owner := by unfold recordEnd; omega
  have hlt := u32At_lt out (owner + 4)
  have hnew : u32At (copyAt out (owner + 4) (u32Bytes (u32At out (owner + 4) - e))) (owner + 4) =
      u32At out (owner + 4) - e := u32At_copyAt (by omega) (by omega)
  generalize copyAt out (owner + 4) (u32Bytes (u32At out (owner + 4) - e)) = mid at h hsame hlen hnew
  -- a record behind this one has the same type in both
  have htype : ∀ o ∈ rest, u16At mid o = u16At out o := by
    intro o ho
    have hbehind := hlater o ho
    exact u16At_congr fun j hj hj' => hsame (by unfold InTtl; omega)
  refine ⟨h.length.trans hlen, ?_, ?_⟩
  · intro o ho httl
    rcases List.mem_cons.mp ho with rfl | ho
    · have hkept : u32At out' (o + 4) = u32At mid (o + 4) := by
        refine u32At_congr fun j hj hj' => h.frame j fun o' ho' _ => ?_
        have hbehind := hlater o' ho'
        unfold InTtl
        omega
      rw [hkept, hnew]
      omega
    · have hbehind := hlater o ho
      have hold : u32At mid (o + 4) = u32At out (o + 4) :=
        u32At_congr fun j hj hj' => hsame (by unfold InTtl; omega)
      rw [← hold]
      exact h.ttl o ho (by rw [HasTtl, htype o ho]; exact httl)
  · intro i hi
    rw [h.frame i fun o ho httl => hi o (List.mem_cons_of_mem _ ho) (by rw [HasTtl, ← htype o ho]; exact httl)]
    exact hsame (hi owner List.mem_cons_self hreal)

/-- A record without a TTL stays as it is. -/
lemma Aged.cons_of_not_hasTtl {e owner : ℕ} {rest : List ℕ} {out out' : Bytes} (hopt : ¬HasTtl out owner)
    (h : Aged e rest out out') : Aged e (owner :: rest) out out' := by
  refine ⟨h.length, ?_, ?_⟩
  · intro o ho httl
    rcases List.mem_cons.mp ho with rfl | ho
    · exact absurd httl hopt
    · exact h.ttl o ho httl
  · intro i hi
    exact h.frame i fun o ho => hi o (List.mem_cons_of_mem _ ho)

/-- Rewriting the TTL of a record does not move the records behind it. -/
lemma recordOwners_copyAt_ttl {count owner : ℕ} {out : Bytes} {rest : List ℕ} (n : ℕ)
    (hfits : recordEnd out owner ≤ out.length) :
    recordOwners (copyAt out (owner + 4) (u32Bytes n)) count (recordEnd out owner) = some rest ↔
      recordOwners out count (recordEnd out owner) = some rest := by
  have hsame : ∀ i, recordEnd out owner ≤ i → (copyAt out (owner + 4) (u32Bytes n)).getD i 0 = out.getD i 0 := by
    intro i hi
    refine getD_copyAt_ttl n hfits ?_
    unfold recordEnd at hi
    unfold InTtl
    omega
  have hlen := length_copyAt_ttl n hfits
  constructor
  · exact fun h => (recordOwners_congr h hlen.symm fun i hi _ => (hsame i hi).symm).1
  · exact fun h => (recordOwners_congr h hlen fun i hi _ => hsame i hi).1

/-- The loop ages the records of the message, whose bytes it has not rewritten yet. -/
lemma aged_of_ageLoop {e count off : ℕ} {out out' : Bytes} {saw saw' : Bool}
    (h : ageLoop e count out off saw = some (out', saw')) :
    ∃ owners, recordOwners out count off = some owners ∧ Aged e owners out out' ∧
      (saw' = true ↔ saw = true ∨ ∃ owner ∈ owners, HasTtl out owner) := by
  induction count generalizing out off saw with
  | zero =>
    obtain ⟨rfl, rfl⟩ := Prod.mk.inj (Option.some.inj h)
    exact ⟨[], rfl, ⟨rfl, by simp, fun _ _ => rfl⟩, by simp⟩
  | succ count ih =>
    obtain ⟨owner, hname, hfits⟩ := exists_layout_of_ageLoop h
    rw [ageLoop_succ hname hfits] at h
    by_cases httl : HasTtl out owner
    · rw [if_pos httl] at h
      split at h
      · cases h
      · rename_i hleft
        obtain ⟨rest, hrest, haged, hsaw⟩ := ih h
        rw [recordOwners_copyAt_ttl _ hfits] at hrest
        refine ⟨owner :: rest, recordOwners_cons_iff.mpr ⟨owner, rest, rfl, hname, hfits, hrest⟩,
          haged.cons httl hfits (Nat.lt_of_not_le hleft) (lt_of_mem_recordOwners hrest), ?_⟩
        simp [hsaw, httl]
    · rw [if_neg httl] at h
      obtain ⟨rest, hrest, haged, hsaw⟩ := ih h
      refine ⟨owner :: rest, recordOwners_cons_iff.mpr ⟨owner, rest, rfl, hname, hfits, hrest⟩,
        haged.cons_of_not_hasTtl httl, ?_⟩
      simp [hsaw, httl]

/-- The loop comes to its end if every TTL is longer than the time that has passed. -/
lemma exists_ageLoop {e count off : ℕ} {out : Bytes} {owners : List ℕ} (saw : Bool)
    (h : recordOwners out count off = some owners)
    (hleft : ∀ owner ∈ owners, HasTtl out owner → e < u32At out (owner + 4)) :
    ∃ result, ageLoop e count out off saw = some result := by
  induction count generalizing out off owners saw with
  | zero => exact ⟨_, rfl⟩
  | succ count ih =>
    obtain ⟨owner, rest, rfl, hname, hfits, hrest⟩ := recordOwners_cons_iff.mp h
    rw [ageLoop_succ hname hfits]
    by_cases httl : HasTtl out owner
    · have hown := hleft owner List.mem_cons_self httl
      rw [if_pos httl, if_neg (by omega)]
      refine ih true ((recordOwners_copyAt_ttl _ hfits).mpr hrest) fun o ho httl' => ?_
      have hbehind := lt_of_mem_recordOwners hrest o ho
      have hroom : owner + 10 ≤ recordEnd out owner := by unfold recordEnd; omega
      have hsame : ∀ j, o ≤ j → (copyAt out (owner + 4) (u32Bytes (u32At out (owner + 4) - e))).getD j 0 =
          out.getD j 0 := fun j hj => getD_copyAt_ttl _ hfits (by unfold InTtl; omega)
      rw [u32At_congr fun j hj _ => hsame j (by omega)]
      refine hleft o (List.mem_cons_of_mem _ ho) ?_
      rwa [HasTtl, u16At_congr fun j hj _ => hsame j hj] at httl'
    · rw [if_neg httl]
      exact ih saw hrest fun o ho => hleft o (List.mem_cons_of_mem _ ho)

/-! ### Whole messages -/

section

variable {a b : Bytes}

lemma le_of_skipQuestionsLoop {count off next : ℕ} (h : skipQuestionsLoop a count off = some next) : off ≤ next := by
  induction count generalizing off with
  | zero => exact (Option.some.inj h).le
  | succ count ih =>
    simp only [skipQuestionsLoop, Option.bind_eq_bind, Option.bind_eq_some_iff, skipName_eq_some_iff] at h
    obtain ⟨owner, hname, h⟩ := h
    split at h
    · cases h
    · have hlt := hname.lt
      have hle := ih h
      omega

lemma skipQuestionsLoop_congr {count off next : ℕ} (h : skipQuestionsLoop a count off = some next)
    (hlen : b.length = a.length) (hsame : ∀ i, off ≤ i → i < next → b.getD i 0 = a.getD i 0) :
    skipQuestionsLoop b count off = some next := by
  induction count generalizing off with
  | zero => exact h
  | succ count ih =>
    simp only [skipQuestionsLoop, Option.bind_eq_bind, Option.bind_eq_some_iff, skipName_eq_some_iff] at h ⊢
    obtain ⟨owner, hname, h⟩ := h
    split at h
    · cases h
    · rename_i hfits
      have hlt := hname.lt
      have hle := le_of_skipQuestionsLoop h
      refine ⟨owner, hname.congr hlen fun i hi hi' => hsame i hi (by omega), ?_⟩
      rw [if_neg (by omega)]
      exact ih h fun i hi hi' => hsame i (by omega) hi'

lemma messageOwners_eq_some_iff {owners : List ℕ} :
    messageOwners a = some owners ↔ 12 ≤ a.length ∧ ∃ off, skipQuestionsLoop a (u16At a 4) 12 = some off ∧
      recordOwners a (u16At a 6 + u16At a 8 + u16At a 10) off = some owners := by
  simp only [messageOwners, skipQuestions, Option.bind_eq_bind, Option.bind_eq_some_iff]
  by_cases hlen : a.length < 12
  · simp [hlen]
  · simp [hlen, Nat.le_of_not_lt hlen]

lemma lt_of_mem_messageOwners {owners : List ℕ} (h : messageOwners a = some owners) :
    ∀ owner ∈ owners, 12 < owner := by
  intro owner howner
  obtain ⟨-, off, hoff, hrecords⟩ := messageOwners_eq_some_iff.mp h
  exact (le_of_skipQuestionsLoop hoff).trans_lt (lt_of_mem_recordOwners hrecords owner howner)

/-- Messages that differ in the transaction id and in TTL fields only have the same records. -/
lemma messageOwners_congr {owners : List ℕ} (h : messageOwners a = some owners) (hlen : b.length = a.length)
    (hsame : ∀ i, 2 ≤ i → (∀ owner ∈ owners, ¬InTtl owner i) → b.getD i 0 = a.getD i 0) :
    messageOwners b = some owners ∧ ∀ owner ∈ owners, recordEnd b owner = recordEnd a owner := by
  obtain ⟨hroom, off, hoff, hrecords⟩ := messageOwners_eq_some_iff.mp h
  have hbehind := lt_of_mem_recordOwners hrecords
  have hle := le_of_skipQuestionsLoop hoff
  have hfront : ∀ i, 2 ≤ i → i ≤ off → b.getD i 0 = a.getD i 0 := by
    intro i hi hi'
    refine hsame i hi fun owner howner => ?_
    have hlt := hbehind owner howner
    unfold InTtl
    omega
  have hcount : ∀ i, 2 ≤ i → i + 2 ≤ 12 → u16At b i = u16At a i := by
    intro i hi hi'
    exact u16At_congr fun j hj hj' => hfront j (by omega) (by omega)
  obtain ⟨hrecords', hends⟩ := recordOwners_congr hrecords hlen fun i hi => hsame i (by omega)
  refine ⟨messageOwners_eq_some_iff.mpr ⟨hlen ▸ hroom, off, ?_, ?_⟩, hends⟩
  · rw [hcount 4 (by omega) (by omega)]
    exact skipQuestionsLoop_congr hoff hlen fun i hi hi' => hfront i (by omega) (by omega)
  · rw [hcount 6 (by omega) (by omega), hcount 8 (by omega) (by omega), hcount 10 (by omega) (by omega)]
    exact hrecords'

lemma recordOwners_pairwise {count off : ℕ} {owners : List ℕ} (h : recordOwners a count off = some owners) :
    owners.Pairwise fun o o' => o + 10 < o' := by
  induction count generalizing off owners with
  | zero =>
    obtain rfl := Option.some.inj h
    exact .nil
  | succ count ih =>
    obtain ⟨owner, rest, rfl, -, -, hrest⟩ := recordOwners_cons_iff.mp h
    refine List.pairwise_cons.mpr ⟨fun o ho => ?_, ih hrest⟩
    have hlt := lt_of_mem_recordOwners hrest o ho
    unfold recordEnd at hlt
    omega

/-- No TTL field overlaps the type field of a record. -/
lemma not_inTtl_of_type {owners : List ℕ} (h : messageOwners a = some owners) {o o' i : ℕ} (ho : o ∈ owners)
    (ho' : o' ∈ owners) (hi : o ≤ i) (hi' : i < o + 2) : ¬InTtl o' i := by
  obtain ⟨-, off, -, hrecords⟩ := messageOwners_eq_some_iff.mp h
  have hapart : owners.Pairwise fun x y => x + 10 < y ∨ y + 10 < x := (recordOwners_pairwise hrecords).imp .inl
  have hsymm : Std.Symm fun x y : ℕ => x + 10 < y ∨ y + 10 < x := ⟨fun _ _ hxy => hxy.symm⟩
  have hcases : o ≠ o' → o + 10 < o' ∨ o' + 10 < o := hapart.forall ho ho'
  unfold InTtl
  omega

end

/-- The answer for the query `queryId` is the response, older by `e` seconds. -/
structure AgedFor (e queryId : ℕ) (owners : List ℕ) (response out : Bytes) : Prop where
  length : out.length = response.length
  transaction : u16At out 0 = queryId
  ttl : ∀ owner ∈ owners, HasTtl response owner →
    1 ≤ u32At out (owner + 4) ∧ u32At out (owner + 4) + e = u32At response (owner + 4)
  frame : ∀ i, 2 ≤ i → (∀ owner ∈ owners, HasTtl response owner → ¬InTtl owner i) →
    out.getD i 0 = response.getD i 0

section

variable {e queryId : ℕ} {owners : List ℕ} {response out : Bytes}

lemma AgedFor.unique {out' : Bytes} (h : AgedFor e queryId owners response out)
    (h' : AgedFor e queryId owners response out') : out = out' := by
  have hsame : ∀ i, out.getD i 0 = out'.getD i 0 := by
    intro i
    by_cases hi : i < 2
    · exact getD_eq_of_u16At_eq (h.transaction.trans h'.transaction.symm) (by omega) (by omega)
    · by_cases hin : ∃ owner ∈ owners, HasTtl response owner ∧ InTtl owner i
      · obtain ⟨owner, howner, httl, hfield⟩ := hin
        have hsum := (h.ttl owner howner httl).2.trans (h'.ttl owner howner httl).2.symm
        exact getD_eq_of_u32At_eq (Nat.add_right_cancel hsum) hfield.1 (by unfold InTtl at hfield; omega)
      · have hout : ∀ owner ∈ owners, HasTtl response owner → ¬InTtl owner i :=
          fun owner howner httl hfield => hin ⟨owner, howner, httl, hfield⟩
        rw [h.frame i (by omega) hout, h'.frame i (by omega) hout]
  refine List.ext_getElem (h.length.trans h'.length.symm) fun i hi hi' => ?_
  have hget := hsame i
  rwa [List.getD_eq_getElem _ _ hi, List.getD_eq_getElem _ _ hi'] at hget

/-- The walk over the aged answer finds the records of the response. -/
lemma AgedFor.layout (h : AgedFor e queryId owners response out) (howners : messageOwners response = some owners) :
    messageOwners out = some owners ∧ (∀ owner ∈ owners, recordEnd out owner = recordEnd response owner) ∧
      ∀ owner ∈ owners, HasTtl out owner ↔ HasTtl response owner := by
  obtain ⟨hout, hends⟩ := messageOwners_congr howners h.length fun i hi hfield =>
    h.frame i hi fun owner howner _ => hfield owner howner
  refine ⟨hout, hends, fun owner howner => ?_⟩
  have hlt := lt_of_mem_messageOwners howners owner howner
  rw [HasTtl, HasTtl, u16At_congr fun j hj hj' => h.frame j (by omega) fun o ho _ =>
    not_inTtl_of_type howners howner ho hj hj']

lemma AgedFor.trans {d e₁ id₁ : ℕ} {out₁ : Bytes} (h₁ : AgedFor e₁ id₁ owners response out₁)
    (howners : messageOwners response = some owners) (h : AgedFor d queryId owners out₁ out) :
    AgedFor (e₁ + d) queryId owners response out := by
  obtain ⟨-, -, httl⟩ := h₁.layout howners
  refine ⟨h.length.trans h₁.length, h.transaction, ?_, ?_⟩
  · intro owner howner hreal
    have hfirst := h₁.ttl owner howner hreal
    have hsecond := h.ttl owner howner ((httl owner howner).mpr hreal)
    omega
  · intro i hi hfield
    rw [h.frame i hi fun owner howner hreal => hfield owner howner ((httl owner howner).mp hreal),
      h₁.frame i hi hfield]

/-- What is left of an aging after a part of it. -/
lemma AgedFor.rest {d e₁ id₁ : ℕ} {out₁ : Bytes} (h₁ : AgedFor e₁ id₁ owners response out₁)
    (howners : messageOwners response = some owners) (h : AgedFor (e₁ + d) queryId owners response out) :
    AgedFor d queryId owners out₁ out := by
  obtain ⟨-, -, httl⟩ := h₁.layout howners
  refine ⟨h.length.trans h₁.length.symm, h.transaction, ?_, ?_⟩
  · intro owner howner hreal
    have hreal' := (httl owner howner).mp hreal
    have hfirst := h₁.ttl owner howner hreal'
    have hall := h.ttl owner howner hreal'
    omega
  · intro i hi hfield
    have hfield' : ∀ owner ∈ owners, HasTtl response owner → ¬InTtl owner i :=
      fun owner howner hreal => hfield owner howner ((httl owner howner).mpr hreal)
    rw [h.frame i hi hfield', h₁.frame i hi hfield']

end

section

variable {storedAt now queryId : ℕ} {owners : List ℕ} {response out : Bytes}

lemma length_copyAt_id (queryId : ℕ) (h : 12 ≤ response.length) :
    (copyAt response 0 (u16Bytes queryId)).length = response.length :=
  length_copyAt (by change 0 + 2 ≤ response.length; omega)

lemma getD_copyAt_id {i : ℕ} (h : 12 ≤ response.length) (hi : 2 ≤ i) :
    (copyAt response 0 (u16Bytes queryId)).getD i 0 = response.getD i 0 :=
  getD_copyAt_of_outside (by change 0 + 2 ≤ response.length; omega) (.inr hi)

/-- The transaction id is not part of the layout. -/
lemma messageOwners_copyAt_id (queryId : ℕ) (h : 12 ≤ response.length) :
    messageOwners (copyAt response 0 (u16Bytes queryId)) = messageOwners response := by
  have hlen := length_copyAt_id queryId h
  ext1 owners
  constructor
  · exact fun howners => (messageOwners_congr howners hlen.symm fun i hi _ => (getD_copyAt_id h hi).symm).1
  · exact fun howners => (messageOwners_congr howners hlen fun i hi _ => getD_copyAt_id h hi).1

lemma hasTtl_copyAt_id {owner : ℕ} (h : 12 ≤ response.length) (howner : 12 < owner) :
    HasTtl (copyAt response 0 (u16Bytes queryId)) owner ↔ HasTtl response owner := by
  rw [HasTtl, HasTtl, u16At_congr fun j hj _ => getD_copyAt_id h (by omega)]

/-- The answer with the new transaction id, before its records age. -/
lemma agedFor_iff_aged {e : ℕ} (hid : queryId < 2 ^ 16) (howners : messageOwners response = some owners) :
    AgedFor e queryId owners response out ↔ Aged e owners (copyAt response 0 (u16Bytes queryId)) out := by
  have hroom := (messageOwners_eq_some_iff.mp howners).1
  have hbehind := lt_of_mem_messageOwners howners
  have hnew : u16At (copyAt response 0 (u16Bytes queryId)) 0 = queryId := u16At_copyAt (by omega) hid
  have hreal : ∀ owner ∈ owners, HasTtl (copyAt response 0 (u16Bytes queryId)) owner ↔ HasTtl response owner :=
    fun owner howner => hasTtl_copyAt_id hroom (hbehind owner howner)
  have httl : ∀ owner ∈ owners,
      u32At (copyAt response 0 (u16Bytes queryId)) (owner + 4) = u32At response (owner + 4) :=
    fun owner _ => u32At_congr fun j hj _ => getD_copyAt_id hroom (by omega)
  constructor
  · intro h
    refine ⟨h.length.trans (length_copyAt_id queryId hroom).symm, ?_, ?_⟩
    · intro owner howner hown
      rw [httl owner howner]
      exact h.ttl owner howner ((hreal owner howner).mp hown)
    · intro i hi
      by_cases hfirst : i < 2
      · exact getD_eq_of_u16At_eq (h.transaction.trans hnew.symm) (by omega) (by omega)
      · rw [getD_copyAt_id hroom (by omega)]
        exact h.frame i (by omega) fun owner howner hown => hi owner howner ((hreal owner howner).mpr hown)
  · intro h
    refine ⟨h.length.trans (length_copyAt_id queryId hroom), ?_, ?_, ?_⟩
    · rw [← hnew]
      refine u16At_congr fun j hj hj' => h.frame j fun owner howner _ => ?_
      have hlt := hbehind owner howner
      unfold InTtl
      omega
    · intro owner howner hown
      rw [← httl owner howner]
      exact h.ttl owner howner ((hreal owner howner).mpr hown)
    · intro i hi hfield
      rw [← getD_copyAt_id hroom hi]
      exact h.frame i fun owner howner hown => hfield owner howner ((hreal owner howner).mp hown)

/-- The limit of the elapsed seconds to 32 bits is never seen: a TTL has 32 bits. -/
lemma agedFor_min_iff {e : ℕ} (hreal : ∃ owner ∈ owners, HasTtl response owner) :
    AgedFor (min e (2 ^ 32 - 1)) queryId owners response out ↔ AgedFor e queryId owners response out := by
  obtain ⟨owner, howner, hown⟩ := hreal
  have hlt := u32At_lt response (owner + 4)
  constructor
  · intro h
    have hmin : min e (2 ^ 32 - 1) = e := by
      have httl := h.ttl owner howner hown
      omega
    rwa [hmin] at h
  · intro h
    have hmin : min e (2 ^ 32 - 1) = e := by
      have httl := h.ttl owner howner hown
      omega
    rwa [hmin]

/-- The function in terms of its loop. -/
lemma ageDnsResponseForQuery_eq_some_iff_loop :
    ageDnsResponseForQuery response storedAt now queryId = some out ↔
      12 ≤ response.length ∧ ∃ off, skipQuestions (copyAt response 0 (u16Bytes queryId)) 12 = some off ∧
        ageLoop (min (elapsedSecs storedAt now) (2 ^ 32 - 1))
          (u16At (copyAt response 0 (u16Bytes queryId)) 6 + u16At (copyAt response 0 (u16Bytes queryId)) 8 +
            u16At (copyAt response 0 (u16Bytes queryId)) 10)
          (copyAt response 0 (u16Bytes queryId)) off false = some (out, true) := by
  by_cases hlen : response.length < 12
  · simp [ageDnsResponseForQuery, hlen]
  · simp only [ageDnsResponseForQuery, hlen, if_false, Option.bind_eq_bind, Option.bind_eq_some_iff,
      Option.ite_none_right_eq_some, Option.some.injEq, Prod.exists]
    constructor
    · rintro ⟨off, hoff, _, _, hloop, rfl, rfl⟩
      exact ⟨by omega, off, hoff, hloop⟩
    · rintro ⟨-, off, hoff, hloop⟩
      exact ⟨off, hoff, out, true, hloop, rfl, rfl⟩

/-- The loop over a message whose TTLs have not run out. -/
lemma exists_loop_of_messageOwners {e : ℕ} (hid : queryId < 2 ^ 16) (howners : messageOwners response = some owners)
    (hleft : ∀ owner ∈ owners, HasTtl response owner → e < u32At response (owner + 4)) :
    12 ≤ response.length ∧ ∃ off, skipQuestions (copyAt response 0 (u16Bytes queryId)) 12 = some off ∧
      ∃ out saw, ageLoop e
          (u16At (copyAt response 0 (u16Bytes queryId)) 6 + u16At (copyAt response 0 (u16Bytes queryId)) 8 +
            u16At (copyAt response 0 (u16Bytes queryId)) 10)
          (copyAt response 0 (u16Bytes queryId)) off false = some (out, saw) ∧
        AgedFor e queryId owners response out ∧ (saw = true ↔ ∃ owner ∈ owners, HasTtl response owner) := by
  have hroom := (messageOwners_eq_some_iff.mp howners).1
  have hreal : ∀ owner ∈ owners, HasTtl (copyAt response 0 (u16Bytes queryId)) owner ↔ HasTtl response owner :=
    fun owner howner => hasTtl_copyAt_id hroom (lt_of_mem_messageOwners howners owner howner)
  have hlayout := howners
  rw [← messageOwners_copyAt_id queryId hroom] at hlayout
  simp only [messageOwners, Option.bind_eq_bind, Option.bind_eq_some_iff] at hlayout
  obtain ⟨off, hoff, hrecords⟩ := hlayout
  obtain ⟨⟨out, saw⟩, hloop⟩ := exists_ageLoop false hrecords fun owner howner hown => by
    rw [u32At_congr fun j hj _ => getD_copyAt_id hroom (by omega)]
    exact hleft owner howner ((hreal owner howner).mp hown)
  obtain ⟨owners', hrecords', haged, hsaw⟩ := aged_of_ageLoop hloop
  obtain rfl := Option.some.inj (hrecords.symm.trans hrecords')
  refine ⟨hroom, off, hoff, out, saw, hloop, (agedFor_iff_aged hid howners).mpr haged, ?_⟩
  rw [hsaw]
  simp only [Bool.false_eq_true, false_or]
  exact exists_congr fun owner => and_congr_right fun howner => hreal owner howner

/-- An answer exists for a message that has a real TTL if no TTL has run out, and it is the aged one. -/
lemma ageDnsResponseForQuery_eq_some_iff (hid : queryId < 2 ^ 16) :
    ageDnsResponseForQuery response storedAt now queryId = some out ↔
      ∃ owners, messageOwners response = some owners ∧ (∃ owner ∈ owners, HasTtl response owner) ∧
        AgedFor (elapsedSecs storedAt now) queryId owners response out := by
  rw [ageDnsResponseForQuery_eq_some_iff_loop]
  constructor
  · rintro ⟨hroom, off, hoff, hloop⟩
    obtain ⟨owners, hrecords, haged, hsaw⟩ := aged_of_ageLoop hloop
    have howners : messageOwners response = some owners := by
      rw [← messageOwners_copyAt_id queryId hroom]
      simp [messageOwners, hoff, hrecords]
    have hreal : ∃ owner ∈ owners, HasTtl response owner := by
      obtain ⟨owner, howner, hown⟩ := (hsaw.mp rfl).resolve_left (by simp)
      exact ⟨owner, howner, (hasTtl_copyAt_id hroom (lt_of_mem_messageOwners howners owner howner)).mp hown⟩
    exact ⟨owners, howners, hreal, (agedFor_min_iff hreal).mp ((agedFor_iff_aged hid howners).mpr haged)⟩
  · rintro ⟨owners, howners, hreal, haged⟩
    have haged' := (agedFor_min_iff hreal).mpr haged
    obtain ⟨hroom, off, hoff, out', saw, hloop, haged'', hsaw⟩ := exists_loop_of_messageOwners hid howners
      (e := min (elapsedSecs storedAt now) (2 ^ 32 - 1)) fun owner howner hown => by
        have httl := haged'.ttl owner howner hown
        omega
    -- the loop ends with an aged answer, and there is only one
    obtain rfl := haged'.unique haged''
    exact ⟨hroom, off, hoff, hsaw.mpr hreal ▸ hloop⟩

end

/-- Aging changes the transaction id and the real TTLs, each by the time that has passed, and no record
moves. Aging an answer that has aged already is aging the response by the sum. -/
theorem dns_aging_action (response : Bytes) (queryId : UInt16) :
    (∀ storedAt now out, ageDnsResponseForQuery response storedAt now queryId.toNat = some out →
      out.length = response.length ∧ u16At out 0 = queryId.toNat ∧
      ∃ owners, messageOwners response = some owners ∧ messageOwners out = some owners ∧
        (∀ owner ∈ owners, recordEnd out owner = recordEnd response owner) ∧
        (∀ owner ∈ owners, u16At response owner ≠ edns0Type → 1 ≤ u32At out (owner + 4) ∧
          (u32At out (owner + 4) : ℤ) = u32At response (owner + 4) - elapsedSecs storedAt now) ∧
        ∀ i, 2 ≤ i →
          (∀ owner ∈ owners, u16At response owner ≠ edns0Type → ¬(owner + 4 ≤ i ∧ i < owner + 8)) →
          out[i]? = response[i]?) ∧
    ∀ storedAt₁ now₁ storedAt₂ now₂ storedAt now (queryId₁ : UInt16),
      elapsedSecs storedAt now = elapsedSecs storedAt₁ now₁ + elapsedSecs storedAt₂ now₂ →
      ((ageDnsResponseForQuery response storedAt₁ now₁ queryId₁.toNat).bind fun out =>
          ageDnsResponseForQuery out storedAt₂ now₂ queryId.toNat) =
        ageDnsResponseForQuery response storedAt now queryId.toNat := by
  refine ⟨fun storedAt now out h => ?_, fun storedAt₁ now₁ storedAt₂ now₂ storedAt now queryId₁ hsum => ?_⟩
  · obtain ⟨owners, howners, -, haged⟩ := (ageDnsResponseForQuery_eq_some_iff queryId.toNat_lt).mp h
    obtain ⟨hout, hends, -⟩ := haged.layout howners
    refine ⟨haged.length, haged.transaction, owners, howners, hout, hends, ?_, ?_⟩
    · intro owner howner hown
      have httl := haged.ttl owner howner hown
      omega
    · intro i hi hfield
      have hget := haged.frame i hi hfield
      have hlength := haged.length
      by_cases hlen : i < response.length
      · have hlen' : i < out.length := by omega
        rw [List.getD_eq_getElem _ _ hlen, List.getD_eq_getElem _ _ hlen'] at hget
        rw [List.getElem?_eq_getElem hlen, List.getElem?_eq_getElem hlen', hget]
      · rw [List.getElem?_eq_none (l := out) (by omega), List.getElem?_eq_none (by omega)]
  · ext1 out
    rw [Option.bind_eq_some_iff, ageDnsResponseForQuery_eq_some_iff queryId.toNat_lt, hsum]
    simp only [ageDnsResponseForQuery_eq_some_iff (UInt16.toNat_lt _)]
    constructor
    · rintro ⟨out₁, ⟨owners, howners, hreal, haged₁⟩, owners', howners', -, haged⟩
      obtain rfl := Option.some.inj ((haged₁.layout howners).1.symm.trans howners')
      exact ⟨owners, howners, hreal, haged₁.trans howners haged⟩
    · rintro ⟨owners, howners, hreal, haged⟩
      obtain ⟨-, -, -, out₁, -, -, haged₁, -⟩ := exists_loop_of_messageOwners queryId₁.toNat_lt howners
        (e := elapsedSecs storedAt₁ now₁) fun owner howner hown => by
          have httl := haged.ttl owner howner hown
          omega
      obtain ⟨hlayout, -, httl⟩ := haged₁.layout howners
      obtain ⟨owner, howner, hown⟩ := hreal
      exact ⟨out₁, ⟨owners, howners, ⟨owner, howner, hown⟩, haged₁⟩, owners, hlayout,
        ⟨owner, howner, (httl owner howner).mpr hown⟩, haged₁.rest howners haged⟩

/-- An answer with one address, valid for two minutes, and an OPT record. -/
def twoMinuteAnswer : Bytes :=
  [0, 0, 0x81, 0x80, 0, 0, 0, 1, 0, 0, 0, 1] ++ [0, 0, 1, 0, 1, 0, 0, 0, 120, 0, 4, 192, 0, 2, 1] ++
    [0, 0, 41, 4, 208, 0, 0, 128, 0, 0, 0]

theorem dns_aging_action_example :
    (∃ out, ageDnsResponseForQuery twoMinuteAnswer 0 (fromSecs 30) 0x1234 = some out ∧
      out.length = twoMinuteAnswer.length ∧ u16At out 0 = 0x1234) ∧
    ((ageDnsResponseForQuery twoMinuteAnswer 0 (fromSecs 30) 7).bind fun out =>
        ageDnsResponseForQuery out 0 (fromSecs 20) 0x1234) =
      ageDnsResponseForQuery twoMinuteAnswer 0 (fromSecs 50) 0x1234 := by
  obtain ⟨hframe, hsum⟩ := dns_aging_action twoMinuteAnswer 0x1234
  have haged : ageDnsResponseForQuery twoMinuteAnswer 0 (fromSecs 30) 0x1234 =
      some ([0x12, 0x34, 0x81, 0x80, 0, 0, 0, 1, 0, 0, 0, 1] ++
        [0, 0, 1, 0, 1, 0, 0, 0, 90, 0, 4, 192, 0, 2, 1] ++ [0, 0, 41, 4, 208, 0, 0, 128, 0, 0, 0]) := by
    decide +kernel
  obtain ⟨hlength, hid, -⟩ := hframe _ _ _ haged
  exact ⟨⟨_, haged, hlength, hid⟩, hsum 0 (fromSecs 30) 0 (fromSecs 20) 0 (fromSecs 50) 7 (by decide)⟩

end Pingola
