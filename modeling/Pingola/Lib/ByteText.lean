import Mathlib.Data.List.Sort
import Mathlib.Data.Nat.Digits.Defs
import Mathlib.Data.List.DropRight

/-!
# Byte strings

Byte strings with the ASCII operations of a systems language: case folding, splitting,
prefix and suffix removal, UTF-8 validation, big-endian integers and zero-padded
hexadecimal. A text value is the list of its UTF-8 bytes, so that the byte order of
strings is the order of the lists.
-/

namespace ByteText

abbrev Bytes := List UInt8

/-- The bytes of an ASCII literal. -/
def ascii (s : String) : Bytes := s.toList.map fun c => c.toNat.toUInt8

/-- The byte of an ASCII character. -/
def byte (c : Char) : UInt8 := c.toNat.toUInt8

def isAsciiUppercase (b : UInt8) : Bool := decide (65 ≤ b ∧ b ≤ 90)

def isAsciiDigit (b : UInt8) : Bool := decide (48 ≤ b ∧ b ≤ 57)

def asciiLower (b : UInt8) : UInt8 := if isAsciiUppercase b then b + 32 else b

def toAsciiLowercase (s : Bytes) : Bytes := s.map asciiLower

def eqIgnoreAsciiCase (s t : Bytes) : Bool := toAsciiLowercase s == toAsciiLowercase t

def stripPrefix (p s : Bytes) : Option Bytes :=
  if p.isPrefixOf s then some (s.drop p.length) else none

def stripSuffix (p s : Bytes) : Option Bytes :=
  if p.isSuffixOf s then some (s.take (s.length - p.length)) else none

def containsBytes (needle s : Bytes) : Bool := s.tails.any fun t => needle.isPrefixOf t

/-- Splits at the first separator, which belongs to neither part. -/
def splitOnce (sep : UInt8) : Bytes → Option (Bytes × Bytes)
  | [] => none
  | b :: s => if b = sep then some ([], s) else (splitOnce sep s).map fun p => (b :: p.1, p.2)

/-- Splits at the last separator. -/
def rsplitOnce (sep : UInt8) (s : Bytes) : Option (Bytes × Bytes) :=
  (splitOnce sep s.reverse).map fun p => (p.2.reverse, p.1.reverse)

/-- Removes texts of a list from the front, at most `n` times. -/
def stripAny (ws : List Bytes) : ℕ → Bytes → Bytes
  | 0, s => s
  | n + 1, s =>
    match ws.findSome? fun w => stripPrefix w s with
    | some t => stripAny ws n t
    | none => s

/-- The Unicode white space characters. -/
def whitespace : List Bytes :=
  [[0x09], [0x0A], [0x0B], [0x0C], [0x0D], [0x20], [0xC2, 0x85], [0xC2, 0xA0], [0xE1, 0x9A, 0x80],
    [0xE2, 0x80, 0x80], [0xE2, 0x80, 0x81], [0xE2, 0x80, 0x82], [0xE2, 0x80, 0x83],
    [0xE2, 0x80, 0x84], [0xE2, 0x80, 0x85], [0xE2, 0x80, 0x86], [0xE2, 0x80, 0x87],
    [0xE2, 0x80, 0x88], [0xE2, 0x80, 0x89], [0xE2, 0x80, 0x8A], [0xE2, 0x80, 0xA8],
    [0xE2, 0x80, 0xA9], [0xE2, 0x80, 0xAF], [0xE2, 0x81, 0x9F], [0xE3, 0x80, 0x80]]

def trimStart (s : Bytes) : Bytes := stripAny whitespace s.length s

def trimEnd (s : Bytes) : Bytes :=
  (stripAny (whitespace.map List.reverse) s.length s.reverse).reverse

def trim (s : Bytes) : Bytes := trimEnd (trimStart s)

/-- White space of `trim_ascii`, which has no vertical tab. -/
def isAsciiWhitespace (b : UInt8) : Bool := [0x09, 0x0A, 0x0C, 0x0D, 0x20].contains b

def trimAsciiStart (s : Bytes) : Bytes := s.dropWhile isAsciiWhitespace

def trimAscii (s : Bytes) : Bytes := (trimAsciiStart s).rdropWhile isAsciiWhitespace

def decimal (s : Bytes) : ℕ := s.foldl (fun n b => n * 10 + (b.toNat - 48)) 0

/-- Parses an unsigned integer below the limit; one leading plus sign is accepted. -/
def parseUnsigned (limit : ℕ) (s : Bytes) : Option ℕ :=
  let digits := ((stripPrefix [byte '+'] s).filter fun t => !t.isEmpty).getD s
  if digits.isEmpty || !digits.all isAsciiDigit || limit ≤ decimal digits then none
  else some (decimal digits)

def isContinuation (b : UInt8) : Bool := decide (0x80 ≤ b ∧ b ≤ 0xBF)

/-- Well-formed UTF-8: no overlong forms, no surrogates, nothing above U+10FFFF. -/
def isUtf8 : Bytes → Bool
  | [] => true
  | b :: s =>
    if b < 0x80 then isUtf8 s
    else if 0xC2 ≤ b ∧ b ≤ 0xDF then
      match s with
      | c :: s => isContinuation c && isUtf8 s
      | _ => false
    else if 0xE0 ≤ b ∧ b ≤ 0xEF then
      match s with
      | c :: d :: s =>
        decide ((if b = 0xE0 then 0xA0 else 0x80) ≤ c ∧ c ≤ (if b = 0xED then 0x9F else 0xBF)) &&
          isContinuation d && isUtf8 s
      | _ => false
    else if 0xF0 ≤ b ∧ b ≤ 0xF4 then
      match s with
      | c :: d :: e :: s =>
        decide ((if b = 0xF0 then 0x90 else 0x80) ≤ c ∧ c ≤ (if b = 0xF4 then 0x8F else 0xBF)) &&
          isContinuation d && isContinuation e && isUtf8 s
      | _ => false
    else false

/-- The low bytes of a number, least significant first. -/
def littleEndian (width v : ℕ) : Bytes := (List.range width).map fun i => UInt8.ofNat (v / 256 ^ i)

def hexDigit (d : ℕ) : UInt8 := if d < 10 then (48 + d).toUInt8 else (87 + d).toUInt8

/-- Lowercase hexadecimal, zero-padded to at least sixteen digits. -/
def hex016 (n : ℕ) : Bytes :=
  let digits := Nat.digits 16 n
  ((digits ++ List.replicate (16 - digits.length) 0).map hexDigit).reverse

/-- The order of pairs of byte strings, first component first. -/
def pairLe (p q : Bytes × Bytes) : Prop := p.1 < q.1 ∨ p.1 = q.1 ∧ p.2 ≤ q.2

instance : DecidableRel pairLe := fun p q =>
  inferInstanceAs (Decidable (p.1 < q.1 ∨ p.1 = q.1 ∧ p.2 ≤ q.2))

def sortPairs (ps : List (Bytes × Bytes)) : List (Bytes × Bytes) := ps.insertionSort pairLe

lemma perm_sortPairs (ps : List (Bytes × Bytes)) : (sortPairs ps).Perm ps :=
  List.perm_insertionSort pairLe ps

lemma hexDigit_injOn {d e : ℕ} (hd : d < 16) (he : e < 16) (h : hexDigit d = hexDigit e) :
    d = e := by
  have hall : ∀ d < 16, ∀ e < 16, hexDigit d = hexDigit e → d = e := by decide
  exact hall d hd e he h

lemma hex016_injective : Function.Injective hex016 := by
  intro m n h
  -- both texts are digit lists below the base, so equal texts give equal padded digit lists
  have hdigits : ∀ k, ∀ d ∈ Nat.digits 16 k ++ List.replicate (16 - (Nat.digits 16 k).length) 0,
      d < 16 := by
    intro k d hd
    rcases List.mem_append.mp hd with hd | hd
    · exact Nat.digits_lt_base (by norm_num) hd
    · rw [List.eq_of_mem_replicate hd]; norm_num
  have hmap : ∀ k l : List ℕ, (∀ d ∈ k, d < 16) → (∀ d ∈ l, d < 16) →
      k.map hexDigit = l.map hexDigit → k = l := by
    intro k
    induction k with
    | nil =>
      intro l _ _ he
      exact (List.map_eq_nil_iff.mp he.symm).symm
    | cons d k ih =>
      intro l hk hl he
      cases l with
      | nil => simp at he
      | cons e l =>
        simp only [List.map_cons, List.cons.injEq] at he
        rw [hexDigit_injOn (hk d (by simp)) (hl e (by simp)) he.1,
          ih l (fun x hx => hk x (by simp [hx])) (fun x hx => hl x (by simp [hx])) he.2]
  have hpad := hmap _ _ (hdigits m) (hdigits n) (List.reverse_injective h)
  have hval := congrArg (Nat.ofDigits 16) hpad
  simpa [Nat.ofDigits_append, Nat.ofDigits_digits] using hval

/-- Joining with a separator that occurs in no part is injective on lists of non-empty parts. -/
lemma intercalate_injOn {sep : UInt8} {ls ms : List Bytes}
    (hls : ∀ l ∈ ls, l ≠ [] ∧ sep ∉ l) (hms : ∀ l ∈ ms, l ≠ [] ∧ sep ∉ l)
    (h : [sep].intercalate ls = [sep].intercalate ms) : ls = ms := by
  have hnil : ∀ ks : List Bytes, (∀ l ∈ ks, l ≠ [] ∧ sep ∉ l) → [sep].intercalate ks = [] → ks = [] := by
    intro ks hks he
    cases ks with
    | nil => rfl
    | cons k ks =>
      have hk := (hks k (by simp)).1
      cases ks <;> simp_all [List.intercalate_cons_cons]
  by_cases hl : ls = []
  · subst hl
    exact (hnil ms hms (by simpa using h.symm)).symm
  by_cases hm : ms = []
  · subst hm
    exact hnil ls hls (by simpa using h)
  rw [← List.splitOn_intercalate sep (fun l hl => (hls l hl).2) hl, h,
    List.splitOn_intercalate sep (fun l hl => (hms l hl).2) hm]

lemma length_splitOn (sep : UInt8) (s : Bytes) : (s.splitOn sep).length = s.count sep + 1 := by
  induction s with
  | nil => simp
  | cons b s ih =>
    rw [List.splitOn_cons_eq_if_modifyHead]
    by_cases hb : b == sep
    · simp [hb, ih, List.count_cons]
    · simp [hb, ih, List.count_cons]

end ByteText
