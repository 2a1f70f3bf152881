import Pingola.Lib.ByteText

/-!
# Percent escapes

`percentDecode` decodes every escape. Two URIs that differ only in escapes of unreserved characters are
equivalent; `decodeUnreserved` decodes these escapes and no others. A part of a text in which no such
escape begins stays as it is.
-/

namespace ByteText

def hexValue (b : UInt8) : Option ℕ :=
  if isAsciiDigit b then some (b.toNat - 48)
  else if 97 ≤ b ∧ b ≤ 102 then some (b.toNat - 87)
  else if 65 ≤ b ∧ b ≤ 70 then some (b.toNat - 55)
  else none

/-- Letters, digits and four marks. -/
def isUnreserved (b : UInt8) : Bool :=
  decide (97 ≤ b ∧ b ≤ 122) || isAsciiUppercase b || isAsciiDigit b || (ascii "-._~").contains b

/-- The unreserved character that three bytes escape. -/
def unreservedEscape (p a b : UInt8) : Option UInt8 :=
  if p = byte '%' then do
    let high ← hexValue a
    let low ← hexValue b
    let c := UInt8.ofNat (16 * high + low)
    if isUnreserved c then some c else none
  else none

def decodeUnreserved : Bytes → Bytes
  | p :: a :: b :: rest =>
    match unreservedEscape p a b with
    | some c => c :: decodeUnreserved rest
    | none => p :: decodeUnreserved (a :: b :: rest)
  | text => text

/-- The byte that three bytes escape. -/
def escapedByte (p a b : UInt8) : Option UInt8 :=
  if p = byte '%' then do
    let high ← hexValue a
    let low ← hexValue b
    some (UInt8.ofNat (16 * high + low))
  else none

def percentDecode : Bytes → Bytes
  | p :: a :: b :: rest =>
    match escapedByte p a b with
    | some c => c :: percentDecode rest
    | none => p :: percentDecode (a :: b :: rest)
  | text => text

@[simp] lemma decodeUnreserved_nil : decodeUnreserved [] = [] := rfl

def startsWithEscape : Bytes → Bool
  | p :: a :: b :: _ => (unreservedEscape p a b).isSome
  | _ => false

/-- No escape of an unreserved character begins within the first bytes. -/
def LiteralWithin (n : ℕ) (text : Bytes) : Prop := ∀ i < n, startsWithEscape (text.drop i) = false

instance (n : ℕ) (text : Bytes) : Decidable (LiteralWithin n text) :=
  inferInstanceAs (Decidable (∀ i < n, _))

lemma unreservedEscape_eq_some {p a b c : UInt8} (h : unreservedEscape p a b = some c) :
    p = byte '%' ∧ isUnreserved c = true := by
  unfold unreservedEscape at h
  split_ifs at h with hp
  obtain ⟨high, -, h⟩ := Option.bind_eq_some_iff.mp h
  obtain ⟨low, -, h⟩ := Option.bind_eq_some_iff.mp h
  dsimp only at h
  split_ifs at h with hc
  obtain rfl := Option.some.inj h
  exact ⟨hp, hc⟩

lemma decodeUnreserved_cons {b : UInt8} {rest : Bytes} (h : startsWithEscape (b :: rest) = false) :
    decodeUnreserved (b :: rest) = b :: decodeUnreserved rest := by
  match rest with
  | [] => rfl
  | [_] => rfl
  | a :: c :: rest =>
    have hnone : unreservedEscape b a c = none := by simpa [startsWithEscape] using h
    rw [decodeUnreserved, hnone]

lemma decodeUnreserved_of_startsWithEscape {text : Bytes} (h : startsWithEscape text = true) :
    ∃ c rest, decodeUnreserved text = c :: rest ∧ isUnreserved c = true ∧ text.head? = some (byte '%') := by
  match text with
  | p :: a :: b :: rest =>
    obtain ⟨c, hc⟩ := Option.isSome_iff_exists.mp h
    obtain ⟨rfl, hunreserved⟩ := unreservedEscape_eq_some hc
    exact ⟨c, decodeUnreserved rest, by rw [decodeUnreserved, hc], hunreserved, rfl⟩

/-- The part without escapes is copied. -/
lemma decodeUnreserved_of_literalWithin {n : ℕ} {text : Bytes} (h : LiteralWithin n text) :
    decodeUnreserved text = text.take n ++ decodeUnreserved (text.drop n) := by
  induction n generalizing text with
  | zero => simp
  | succ n ih =>
    cases text with
    | nil => rfl
    | cons b rest =>
      have hrest : LiteralWithin n rest := fun i hi => h (i + 1) (by omega)
      rw [decodeUnreserved_cons (h 0 (by omega)), ih hrest]
      rfl

lemma take_decodeUnreserved {n : ℕ} {text : Bytes} (h : LiteralWithin n text) :
    (decodeUnreserved text).take n = text.take n := by
  rw [decodeUnreserved_of_literalWithin h]
  by_cases hlen : n ≤ text.length
  · rw [List.take_append_of_le_length (by simp [hlen]), List.take_take, Nat.min_self]
  · have hall : text.drop n = [] := List.drop_eq_nil_of_le (by omega)
    rw [hall, decodeUnreserved_nil, List.append_nil, List.take_take, Nat.min_self]

lemma drop_decodeUnreserved {n : ℕ} {text : Bytes} (h : LiteralWithin n text) :
    (decodeUnreserved text).drop n = decodeUnreserved (text.drop n) := by
  rw [decodeUnreserved_of_literalWithin h]
  by_cases hlen : n ≤ text.length
  · rw [List.drop_left' (by simp [hlen])]
  · have hall : text.drop n = [] := List.drop_eq_nil_of_le (by omega)
    rw [hall, decodeUnreserved_nil, List.append_nil, List.drop_eq_nil_of_le (by simp)]

/-- Decoding neither adds nor removes a leading byte that is neither reserved by escapes nor unreserved. -/
lemma head?_decodeUnreserved_iff {text : Bytes} {c : UInt8} (hc : isUnreserved c = false) (hp : c ≠ byte '%') :
    (decodeUnreserved text).head? = some c ↔ text.head? = some c := by
  by_cases h : startsWithEscape text = true
  · obtain ⟨d, rest, hdecode, hd, hhead⟩ := decodeUnreserved_of_startsWithEscape h
    rw [hdecode, hhead]
    simp only [List.head?_cons, Option.some.injEq]
    constructor
    · rintro rfl
      rw [hd] at hc
      cases hc
    · exact fun h => absurd h.symm hp
  · cases text with
    | nil => rfl
    | cons b rest => rw [decodeUnreserved_cons (by simpa using h)]; rfl

lemma decodeUnreserved_eq_nil_iff {text : Bytes} : decodeUnreserved text = [] ↔ text = [] := by
  by_cases h : startsWithEscape text = true
  · obtain ⟨c, rest, hdecode, -, hhead⟩ := decodeUnreserved_of_startsWithEscape h
    rw [hdecode]
    constructor
    · intro h
      cases h
    · rintro rfl
      cases hhead
  · cases text with
    | nil => simp [decodeUnreserved]
    | cons b rest => simp [decodeUnreserved_cons (by simpa using h : startsWithEscape (b :: rest) = false)]

section

variable {text pre : Bytes}

/-- Whether a text starts with a literal part is the same after decoding. -/
lemma prefix_decodeUnreserved_iff (h : LiteralWithin pre.length text) :
    pre <+: decodeUnreserved text ↔ pre <+: text := by
  rw [List.prefix_iff_eq_take, List.prefix_iff_eq_take, take_decodeUnreserved h]

lemma decodeUnreserved_eq_iff (h : LiteralWithin pre.length text) : decodeUnreserved text = pre ↔ text = pre := by
  have hsplit : ∀ t : Bytes, t = pre ↔ t.take pre.length = pre ∧ t.drop pre.length = [] := by
    intro t
    constructor
    · rintro rfl
      simp
    · rintro ⟨htake, hdrop⟩
      rw [← List.take_append_drop pre.length t, htake, hdrop, List.append_nil]
  rw [hsplit (decodeUnreserved text), hsplit text, take_decodeUnreserved h, drop_decodeUnreserved h,
    decodeUnreserved_eq_nil_iff]

/-- A text that starts with no escape in a literal part without percent signs has none there. -/
lemma literalWithin_of_begins (hpre : byte '%' ∉ pre) (h : pre <+: text) : LiteralWithin pre.length text := by
  intro i hi
  by_contra hescape
  obtain ⟨-, -, -, -, hhead⟩ := decodeUnreserved_of_startsWithEscape (by simpa using hescape)
  obtain ⟨rest, rfl⟩ := h
  rw [List.drop_append_of_le_length hi.le, List.drop_eq_getElem_cons hi] at hhead
  have hmem := List.getElem_mem hi
  rw [Option.some.inj hhead] at hmem
  exact hpre hmem

end

end ByteText
