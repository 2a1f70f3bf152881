import Pingola.Cache.Dns

/-!
# The layout of a DNS message

What a wire message contains, as relations on offsets that do not mention how the code
walks them: names with their compression pointers, resource records and whole queries.
The reading functions are specified by these relations.
-/

namespace Pingola
open ByteText

variable {wire : Bytes}

def labelEnd (wire : Bytes) (off : ℕ) : ℕ := off + 1 + byteAt wire off

def labelBytes (wire : Bytes) (off : ℕ) : Bytes := (wire.drop (off + 1)).take (byteAt wire off)

def pointerTarget (wire : Bytes) (off : ℕ) : ℕ :=
  (wire.getD off 0 &&& 0x3F).toNat * 256 + byteAt wire (off + 1)

structure RootAt (wire : Bytes) (off : ℕ) : Prop where
  bound : off < wire.length
  zero : wire.getD off 0 = 0

structure PointerAt (wire : Bytes) (off : ℕ) : Prop where
  bound : off + 1 < wire.length
  marked : wire.getD off 0 &&& 0xC0 = 0xC0

structure LabelAt (wire : Bytes) (off : ℕ) : Prop where
  bound : off < wire.length
  nonzero : wire.getD off 0 ≠ 0
  unmarked : wire.getD off 0 &&& 0xC0 ≠ 0xC0
  fits : labelEnd wire off ≤ wire.length

/-- The name at an offset ends at another one; a pointer ends a name. -/
inductive NameEnds (wire : Bytes) : ℕ → ℕ → Prop
  | root {off : ℕ} : RootAt wire off → NameEnds wire off (off + 1)
  | pointer {off : ℕ} : PointerAt wire off → NameEnds wire off (off + 2)
  | label {off next : ℕ} : LabelAt wire off → NameEnds wire (labelEnd wire off) next →
      NameEnds wire off next

/-- The name at an offset, following `jumps` pointers, has these labels and ends at another
offset. -/
inductive NameAt (wire : Bytes) : ℕ → ℕ → List Bytes → ℕ → Prop
  | root {off : ℕ} : RootAt wire off → NameAt wire 0 off [] (off + 1)
  | pointer {off jumps next : ℕ} {labels : List Bytes} : PointerAt wire off →
      NameAt wire jumps (pointerTarget wire off) labels next → NameAt wire (jumps + 1) off labels (off + 2)
  | label {off jumps next : ℕ} {labels : List Bytes} : LabelAt wire off →
      NameAt wire jumps (labelEnd wire off) labels next →
      NameAt wire jumps off (labelBytes wire off :: labels) next

structure ResourceRecord where
  rtype : ℕ
  rclass : ℕ
  ttl : ℕ
  rdata : Bytes
  deriving DecidableEq

/-- The record whose owner name ends at `off`. -/
def recordFrom (wire : Bytes) (off : ℕ) : ResourceRecord where
  rtype := u16At wire off
  rclass := u16At wire (off + 2)
  ttl := u32At wire (off + 4)
  rdata := (wire.drop (off + 10)).take (u16At wire (off + 8))

def recordEnd (wire : Bytes) (off : ℕ) : ℕ := off + (10 + u16At wire (off + 8))

/-- `count` records lie between two offsets. -/
inductive RecordsAt (wire : Bytes) : ℕ → ℕ → List ResourceRecord → ℕ → Prop
  | nil {off : ℕ} : RecordsAt wire 0 off [] off
  | cons {count off owner next : ℕ} {rs : List ResourceRecord} : NameEnds wire off owner →
      recordEnd wire owner ≤ wire.length → RecordsAt wire count (recordEnd wire owner) rs next →
      RecordsAt wire (count + 1) off (recordFrom wire owner :: rs) next

/-! ### Layouts are unique -/

lemma PointerAt.getD_ne_zero {off : ℕ} (h : PointerAt wire off) : wire.getD off 0 ≠ 0 := by
  intro hz
  have hm := h.marked
  rw [hz] at hm
  exact absurd hm (by decide)

lemma RootAt.not_pointerAt {off : ℕ} (h : RootAt wire off) (h' : PointerAt wire off) : False :=
  h'.getD_ne_zero h.zero

lemma LabelAt.not_rootAt {off : ℕ} (h : LabelAt wire off) (h' : RootAt wire off) : False :=
  h.nonzero h'.zero

lemma LabelAt.not_pointerAt {off : ℕ} (h : LabelAt wire off) (h' : PointerAt wire off) : False :=
  h.unmarked h'.marked

lemma NameEnds.unique {off m n : ℕ} (h : NameEnds wire off m) (h' : NameEnds wire off n) :
    m = n := by
  induction h with
  | root hr =>
    cases h' with
    | root => rfl
    | pointer hp => exact (hr.not_pointerAt hp).elim
    | label hl => exact (hl.not_rootAt hr).elim
  | pointer hp =>
    cases h' with
    | root hr => exact (hr.not_pointerAt hp).elim
    | pointer => rfl
    | label hl => exact (hl.not_pointerAt hp).elim
  | label hl _ ih =>
    cases h' with
    | root hr => exact (hl.not_rootAt hr).elim
    | pointer hp => exact (hl.not_pointerAt hp).elim
    | label _ hn => exact ih hn

lemma NameAt.unique {off j k m n : ℕ} {ls ls' : List Bytes} (h : NameAt wire j off ls m)
    (h' : NameAt wire k off ls' n) : ls = ls' ∧ m = n := by
  induction h generalizing k ls' n with
  | root hr =>
    cases h' with
    | root => exact ⟨rfl, rfl⟩
    | pointer hp => exact (hr.not_pointerAt hp).elim
    | label hl => exact (hl.not_rootAt hr).elim
  | pointer hp _ ih =>
    cases h' with
    | root hr => exact (hr.not_pointerAt hp).elim
    | pointer _ hn => exact ⟨(ih hn).1, rfl⟩
    | label hl => exact (hl.not_pointerAt hp).elim
  | label hl _ ih =>
    cases h' with
    | root hr => exact (hl.not_rootAt hr).elim
    | pointer hp => exact (hl.not_pointerAt hp).elim
    | label _ hn =>
      obtain ⟨rfl, rfl⟩ := ih hn
      exact ⟨rfl, rfl⟩

lemma NameAt.ne_nil {off j n : ℕ} {ls : List Bytes} (h : NameAt wire j off ls n) :
    ∀ l ∈ ls, l ≠ [] := by
  induction h with
  | root => simp
  | pointer _ _ ih => exact ih
  | @label off _ _ _ hl _ ih =>
    have hpos : 0 < byteAt wire off := by
      unfold byteAt
      have hnz := hl.nonzero
      rw [ne_eq, ← UInt8.toNat_inj] at hnz
      exact Nat.pos_of_ne_zero hnz
    have hlen : (labelBytes wire off).length = byteAt wire off := by
      have hfits := hl.fits
      unfold labelEnd at hfits
      rw [labelBytes, List.length_take, List.length_drop]
      omega
    simp only [List.mem_cons, forall_eq_or_imp]
    exact ⟨fun he => by rw [he] at hlen; simp at hlen; omega, ih⟩

lemma RecordsAt.unique {count off m n : ℕ} {rs rs' : List ResourceRecord}
    (h : RecordsAt wire count off rs m) (h' : RecordsAt wire count off rs' n) : rs = rs' ∧ m = n := by
  induction h generalizing rs' n with
  | nil =>
    cases h'
    exact ⟨rfl, rfl⟩
  | cons ho _ _ ih =>
    cases h' with
    | cons ho' _ hr =>
      obtain rfl := ho.unique ho'
      obtain ⟨rfl, rfl⟩ := ih hr
      exact ⟨rfl, rfl⟩

/-! ### The reading functions -/

lemma skipNameLoop_eq_some_iff {fuel off next : ℕ} (hfuel : wire.length < off + fuel) :
    skipNameLoop wire fuel off = some next ↔ NameEnds wire off next := by
  induction fuel generalizing off with
  | zero =>
    refine ⟨fun h => by simp [skipNameLoop] at h, fun h => ?_⟩
    cases h with
    | root hr => exact absurd hr.bound (by omega)
    | pointer hp => exact absurd hp.bound (by omega)
    | label hl => exact absurd hl.bound (by omega)
  | succ fuel ih =>
    constructor
    · intro h
      simp only [skipNameLoop] at h
      split_ifs at h with hoff hzero hmark hbound hfits
      · obtain rfl := Option.some.inj h
        exact .root ⟨by omega, hzero⟩
      · obtain rfl := Option.some.inj h
        exact .pointer ⟨by omega, hmark⟩
      · exact .label ⟨by omega, hzero, hmark, by unfold labelEnd byteAt; omega⟩
          ((ih (by unfold labelEnd; omega)).mp h)
    · intro h
      cases h with
      | root hr =>
        simp only [skipNameLoop]
        rw [if_neg (Nat.not_le.mpr hr.bound), if_pos hr.zero]
      | pointer hp =>
        have hbound := hp.bound
        simp only [skipNameLoop]
        rw [if_neg (by omega), if_neg hp.getD_ne_zero, if_pos hp.marked, if_neg (by omega)]
      | label hl hn =>
        have hfits := hl.fits
        simp only [skipNameLoop]
        rw [if_neg (Nat.not_le.mpr hl.bound), if_neg hl.nonzero, if_neg hl.unmarked,
          if_neg (by unfold labelEnd byteAt at hfits; omega)]
        exact (ih (by omega)).mpr hn

lemma skipName_eq_some_iff {off next : ℕ} :
    skipName wire off = some next ↔ NameEnds wire off next :=
  skipNameLoop_eq_some_iff (by omega)

lemma skipRrs_eq_some_iff {count off next : ℕ} :
    skipRrs wire count off = some next ↔ ∃ rs, RecordsAt wire count off rs next := by
  induction count generalizing off with
  | zero =>
    constructor
    · intro h
      obtain rfl := Option.some.inj h
      exact ⟨[], .nil⟩
    · rintro ⟨_, ⟨⟩⟩
      rfl
  | succ count ih =>
    constructor
    · intro h
      simp only [skipRrs, Option.bind_eq_bind, Option.bind_eq_some_iff] at h
      obtain ⟨owner, hown, h⟩ := h
      split_ifs at h with hhead hfits
      obtain ⟨rs, hrs⟩ := ih.mp h
      exact ⟨_, .cons (skipName_eq_some_iff.mp hown) (by unfold recordEnd; omega) hrs⟩
    · rintro ⟨_, hrs⟩
      cases hrs with
      | @cons _ _ owner _ rs hown hfits hrs =>
        simp only [skipRrs, Option.bind_eq_bind, skipName_eq_some_iff.mpr hown, Option.bind_some]
        unfold recordEnd at hfits hrs
        rw [if_neg (by omega), if_neg (by omega)]
        exact ih.mpr ⟨rs, hrs⟩

/-- One call of `read_name_labels`, when `jump` reads the names that pointers lead to. -/
lemma readNameLoop_eq_some_iff {jump : ℕ → List Bytes → Option (List Bytes)} {depth : ℕ}
    (hjump : ∀ p acc ls, jump p acc = some ls ↔ ∃ jumps < depth, ∃ raw next, NameAt wire jumps p raw next ∧
      (∀ l ∈ raw, isUtf8 l = true) ∧ ls = acc ++ raw.map toAsciiLowercase)
    {fuel off next : ℕ} {acc ls : List Bytes} (hfuel : wire.length < off + fuel) :
    readNameLoop wire jump fuel off acc = some (ls, next) ↔
      ∃ jumps < depth + 1, ∃ raw, NameAt wire jumps off raw next ∧
        (∀ l ∈ raw, isUtf8 l = true) ∧ ls = acc ++ raw.map toAsciiLowercase := by
  induction fuel generalizing off acc with
  | zero =>
    refine ⟨fun h => by simp [readNameLoop] at h, fun h => ?_⟩
    obtain ⟨_, _, _, hn, _⟩ := h
    cases hn with
    | root hr => exact absurd hr.bound (by omega)
    | pointer hp => exact absurd hp.bound (by omega)
    | label hl => exact absurd hl.bound (by omega)
  | succ fuel ih =>
    constructor
    · intro h
      simp only [readNameLoop] at h
      split_ifs at h with hoff hzero hmark hbound hfits hutf
      · obtain ⟨rfl, rfl⟩ := Prod.mk.inj (Option.some.inj h)
        exact ⟨0, by omega, [], .root ⟨by omega, hzero⟩, by simp, by simp⟩
      · obtain ⟨pls, hpls, heq⟩ := Option.map_eq_some_iff.mp h
        obtain ⟨rfl, rfl⟩ := Prod.mk.inj heq
        obtain ⟨jumps, hj, raw, _, hn, hu, rfl⟩ := (hjump _ _ _).mp hpls
        exact ⟨jumps + 1, by omega, raw, .pointer ⟨by omega, hmark⟩ hn, hu, rfl⟩
      · have hl : LabelAt wire off := ⟨by omega, hzero, hmark, by unfold labelEnd byteAt; omega⟩
        obtain ⟨jumps, hj, raw, hn, hu, rfl⟩ := (ih (by omega)).mp h
        refine ⟨jumps, hj, labelBytes wire off :: raw, .label hl hn, ?_, by simp [labelBytes, byteAt]⟩
        simp only [List.mem_cons, forall_eq_or_imp]
        exact ⟨by simpa [labelBytes, byteAt] using hutf, hu⟩
    · rintro ⟨jumps, hj, raw, hn, hu, rfl⟩
      cases hn with
      | root hr =>
        simp only [readNameLoop]
        rw [if_neg (Nat.not_le.mpr hr.bound), if_pos hr.zero]
        simp
      | @pointer _ j next' _ hp hn =>
        have hbound := hp.bound
        simp only [readNameLoop]
        rw [if_neg (by omega), if_neg hp.getD_ne_zero, if_pos hp.marked, if_neg (by omega)]
        exact Option.map_eq_some_iff.mpr
          ⟨_, (hjump _ _ _).mpr ⟨j, by omega, raw, next', hn, hu, rfl⟩, rfl⟩
      | @label _ _ _ raw hl hn =>
        have hfits := hl.fits
        simp only [List.mem_cons, forall_eq_or_imp] at hu
        have hlabel : isUtf8 ((wire.drop (off + 1)).take (wire.getD off 0).toNat) = true := hu.1
        simp only [readNameLoop]
        rw [if_neg (Nat.not_le.mpr hl.bound), if_neg hl.nonzero, if_neg hl.unmarked,
          if_neg (by unfold labelEnd byteAt at hfits; omega), hlabel]
        refine (ih (by omega)).mpr ⟨jumps, hj, raw, hn, hu.2, ?_⟩
        simp [labelBytes, byteAt]

lemma readNameLabels_eq_some_iff {depth off next : ℕ} {acc ls : List Bytes} :
    readNameLabels wire depth off acc = some (ls, next) ↔
      ∃ jumps < depth, ∃ raw, NameAt wire jumps off raw next ∧
        (∀ l ∈ raw, isUtf8 l = true) ∧ ls = acc ++ raw.map toAsciiLowercase := by
  induction depth generalizing off next acc ls with
  | zero => simp [readNameLabels]
  | succ depth ih =>
    rw [readNameLabels]
    refine readNameLoop_eq_some_iff (fun p acc ls => ?_) (by omega)
    rw [Option.map_eq_some_iff]
    constructor
    · rintro ⟨⟨_, next⟩, h, rfl⟩
      obtain ⟨jumps, hj, raw, hn, hu, he⟩ := ih.mp h
      exact ⟨jumps, hj, raw, next, hn, hu, he⟩
    · rintro ⟨jumps, hj, raw, next, hn, hu, he⟩
      exact ⟨(ls, next), ih.mpr ⟨jumps, hj, raw, hn, hu, he⟩, rfl⟩

/-- `read_name` reads exactly the UTF-8 names that follow at most eight pointers, and returns
their labels in lower case joined by dots. -/
lemma readName_eq_some_iff {off next : ℕ} {qname : Bytes} :
    readName wire off = some (qname, next) ↔
      ∃ jumps < 9, ∃ raw, NameAt wire jumps off raw next ∧ (∀ l ∈ raw, isUtf8 l = true) ∧
        qname = [byte '.'].intercalate (raw.map toAsciiLowercase) := by
  rw [readName, Option.map_eq_some_iff]
  constructor
  · rintro ⟨⟨ls, m⟩, h, he⟩
    obtain ⟨rfl, rfl⟩ := Prod.mk.inj he
    obtain ⟨jumps, hj, raw, hn, hu, rfl⟩ := readNameLabels_eq_some_iff.mp h
    exact ⟨jumps, hj, raw, hn, hu, by simp⟩
  · rintro ⟨jumps, hj, raw, hn, hu, rfl⟩
    exact ⟨(raw.map toAsciiLowercase, next),
      readNameLabels_eq_some_iff.mpr ⟨jumps, hj, raw, hn, hu, by simp⟩, rfl⟩

end Pingola
