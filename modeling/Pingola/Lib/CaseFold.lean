import Pingola.Lib.ByteText

/-!
# Case folding and the text operations

Folding ASCII letters to lower case commutes with trimming, with splitting at a byte that is not a
letter and with the parsing of integers. A trimmed text stays trimmed when visible bytes are
appended to it.
-/

namespace ByteText

/-! ### Folding -/

/-- A byte that folding neither changes nor produces. -/
def Caseless (b : UInt8) : Prop := ¬(65 ≤ b ∧ b ≤ 90) ∧ ¬(97 ≤ b ∧ b ≤ 122)

instance : DecidablePred Caseless := fun b =>
  inferInstanceAs (Decidable (¬(65 ≤ b ∧ b ≤ 90) ∧ ¬(97 ≤ b ∧ b ≤ 122)))

lemma asciiLower_eq_iff {b c : UInt8} (h : Caseless b) : asciiLower c = b ↔ c = b := by
  simp only [Caseless, UInt8.le_iff_toNat_le] at h
  simp only [asciiLower, isAsciiUppercase, UInt8.le_iff_toNat_le, ← UInt8.toNat_inj, decide_eq_true_eq]
  split_ifs with hupper
  · have hsum : (c + 32).toNat = c.toNat + 32 := by
      rw [UInt8.toNat_add]
      simp at hupper ⊢
      omega
    simp at hupper h
    omega
  · rfl

lemma asciiLower_asciiLower (b : UInt8) : asciiLower (asciiLower b) = asciiLower b := by
  simp only [asciiLower, isAsciiUppercase, UInt8.le_iff_toNat_le, decide_eq_true_eq]
  split_ifs with hupper hagain
  · rw [UInt8.toNat_add] at hagain
    simp at hupper hagain
    omega
  · rfl
  · rfl

@[simp] lemma length_toAsciiLowercase (s : Bytes) : (toAsciiLowercase s).length = s.length :=
  List.length_map _

@[simp] lemma toAsciiLowercase_toAsciiLowercase (s : Bytes) :
    toAsciiLowercase (toAsciiLowercase s) = toAsciiLowercase s := by
  simp [toAsciiLowercase, asciiLower_asciiLower]

def isAsciiLowercase (b : UInt8) : Bool := decide (97 ≤ b ∧ b ≤ 122)

lemma asciiLower_injOn {b c : UInt8} (hb : isAsciiLowercase b = false) (hc : isAsciiLowercase c = false)
    (h : asciiLower b = asciiLower c) : b = c := by
  revert h
  simp only [isAsciiLowercase, asciiLower, isAsciiUppercase, UInt8.le_iff_toNat_le, decide_eq_true_eq,
    decide_eq_false_iff_not, ← UInt8.toNat_inj] at hb hc ⊢
  split_ifs <;> simp_all [UInt8.toNat_add] <;> omega

/-- Texts without lower-case letters that differ only in case are equal. -/
lemma eq_of_toAsciiLowercase_eq {s t : Bytes} (hs : s.any isAsciiLowercase = false)
    (ht : t.any isAsciiLowercase = false) (h : toAsciiLowercase s = toAsciiLowercase t) : s = t := by
  induction s generalizing t with
  | nil => exact (List.map_eq_nil_iff.mp h.symm).symm
  | cons b s ih =>
    cases t with
    | nil => simp [toAsciiLowercase] at h
    | cons c t =>
      simp only [List.any_cons, Bool.or_eq_false_iff] at hs ht
      simp only [toAsciiLowercase, List.map_cons, List.cons.injEq] at h
      rw [asciiLower_injOn hs.1 ht.1 h.1, ih hs.2 ht.2 h.2]

lemma head?_toAsciiLowercase_eq_iff {b : UInt8} (hb : Caseless b) (s : Bytes) :
    (toAsciiLowercase s).head? = some b ↔ s.head? = some b := by
  cases s with
  | nil => rfl
  | cons c s => simp [toAsciiLowercase, asciiLower_eq_iff hb]

lemma isPrefixOf_toAsciiLowercase {p : Bytes} (hp : ∀ b ∈ p, Caseless b) (s : Bytes) :
    p.isPrefixOf (toAsciiLowercase s) = p.isPrefixOf s := by
  induction p generalizing s with
  | nil => simp
  | cons b p ih =>
    cases s with
    | nil => rfl
    | cons c s =>
      have hhead : (b == asciiLower c) = (b == c) := by
        rw [Bool.eq_iff_iff, beq_iff_eq, beq_iff_eq, eq_comm, asciiLower_eq_iff (hp b (by simp)), eq_comm]
      have htail := ih (fun b hb => hp b (by simp [hb])) s
      simp only [toAsciiLowercase] at htail
      simp only [toAsciiLowercase, List.map_cons, List.isPrefixOf_cons_cons, hhead, htail]

lemma stripPrefix_toAsciiLowercase {p : Bytes} (hp : ∀ b ∈ p, Caseless b) (s : Bytes) :
    stripPrefix p (toAsciiLowercase s) = (stripPrefix p s).map toAsciiLowercase := by
  rw [stripPrefix, stripPrefix, isPrefixOf_toAsciiLowercase hp]
  split_ifs
  · simp [toAsciiLowercase, List.map_drop]
  · rfl

lemma stripAny_toAsciiLowercase {ws : List Bytes} (hws : ∀ w ∈ ws, ∀ b ∈ w, Caseless b) (n : ℕ)
    (s : Bytes) : stripAny ws n (toAsciiLowercase s) = toAsciiLowercase (stripAny ws n s) := by
  induction n generalizing s with
  | zero => rfl
  | succ n ih =>
    have hfind : (ws.findSome? fun w => stripPrefix w (toAsciiLowercase s)) =
        (ws.findSome? fun w => stripPrefix w s).map toAsciiLowercase := by
      clear ih
      induction ws with
      | nil => rfl
      | cons w ws ih =>
        have htail := ih fun w hw => hws w (by simp [hw])
        simp only [List.findSome?_cons, stripPrefix_toAsciiLowercase (hws w (by simp)), htail]
        cases stripPrefix w s <;> rfl
    rw [stripAny, stripAny, hfind]
    cases ws.findSome? fun w => stripPrefix w s with
    | none => rfl
    | some t => exact ih t

lemma trim_toAsciiLowercase (s : Bytes) : trim (toAsciiLowercase s) = toAsciiLowercase (trim s) := by
  have hall : (whitespace.all fun w => w.all fun b => decide (Caseless b)) = true := by decide +kernel
  have hfront : ∀ w ∈ whitespace, ∀ b ∈ w, Caseless b := by
    simpa only [List.all_eq_true, decide_eq_true_eq] using hall
  have hback : ∀ w ∈ whitespace.map List.reverse, ∀ b ∈ w, Caseless b := by
    intro w hw b hb
    obtain ⟨w', hw', rfl⟩ := List.mem_map.mp hw
    exact hfront w' hw' b (List.mem_reverse.mp hb)
  have hreverse : ∀ s : Bytes, (toAsciiLowercase s).reverse = toAsciiLowercase s.reverse := by
    intro s
    simp [toAsciiLowercase]
  rw [trim, trim, trimStart, stripAny_toAsciiLowercase hfront, length_toAsciiLowercase, ← trimStart, trimEnd,
    hreverse, stripAny_toAsciiLowercase hback, hreverse, length_toAsciiLowercase, ← trimEnd]

lemma rdropWhile_toAsciiLowercase {b : UInt8} (hb : Caseless b) (s : Bytes) :
    (toAsciiLowercase s).rdropWhile (· == b) = toAsciiLowercase (s.rdropWhile (· == b)) := by
  have hcomp : (fun c => asciiLower c == b) = fun c => c == b := by
    funext c
    rw [Bool.eq_iff_iff, beq_iff_eq, beq_iff_eq, asciiLower_eq_iff hb]
  simp only [List.rdropWhile, toAsciiLowercase, ← List.map_reverse, List.dropWhile_map, Function.comp_def,
    hcomp]

lemma toAsciiLowercase_eq_iff {t : Bytes} (ht : ∀ b ∈ t, Caseless b) (s : Bytes) : toAsciiLowercase s = t ↔ s = t := by
  induction t generalizing s with
  | nil => simp [toAsciiLowercase]
  | cons b t ih =>
    cases s with
    | nil => simp [toAsciiLowercase]
    | cons c s =>
      have htail := ih (fun b hb => ht b (List.mem_cons_of_mem _ hb)) s
      unfold toAsciiLowercase at htail ⊢
      rw [List.map_cons, List.cons.injEq, List.cons.injEq, asciiLower_eq_iff (ht b List.mem_cons_self), htail]

lemma splitOn_toAsciiLowercase {sep : UInt8} (hsep : Caseless sep) (s : Bytes) :
    (toAsciiLowercase s).splitOn sep = (s.splitOn sep).map toAsciiLowercase := by
  induction s with
  | nil => rfl
  | cons b s ih =>
    have hb : (asciiLower b == sep) = (b == sep) := by
      rw [Bool.eq_iff_iff, beq_iff_eq, beq_iff_eq, asciiLower_eq_iff hsep]
    change (asciiLower b :: toAsciiLowercase s).splitOn sep = _
    rw [List.splitOn_cons_eq_if_modifyHead, List.splitOn_cons_eq_if_modifyHead, hb, ih]
    cases b == sep
    · obtain ⟨l, ls, hsplit⟩ := List.exists_cons_of_ne_nil (List.splitOn_ne_nil sep s)
      simp [hsplit, toAsciiLowercase]
    · simp [toAsciiLowercase]

lemma splitOnce_toAsciiLowercase {sep : UInt8} (hsep : Caseless sep) (s : Bytes) :
    splitOnce sep (toAsciiLowercase s) =
      (splitOnce sep s).map (Prod.map toAsciiLowercase toAsciiLowercase) := by
  induction s with
  | nil => rfl
  | cons b s ih =>
    simp only [toAsciiLowercase] at ih
    simp only [toAsciiLowercase, List.map_cons, splitOnce, asciiLower_eq_iff hsep, ih]
    split_ifs
    · rfl
    · cases splitOnce sep s <;> rfl

lemma rsplitOnce_toAsciiLowercase {sep : UInt8} (hsep : Caseless sep) (s : Bytes) :
    rsplitOnce sep (toAsciiLowercase s) =
      (rsplitOnce sep s).map (Prod.map toAsciiLowercase toAsciiLowercase) := by
  have hreverse : (toAsciiLowercase s).reverse = toAsciiLowercase s.reverse := by simp [toAsciiLowercase]
  rw [rsplitOnce, hreverse, splitOnce_toAsciiLowercase hsep, rsplitOnce]
  cases splitOnce sep s.reverse with
  | none => rfl
  | some p => simp [toAsciiLowercase]

lemma isAsciiDigit_asciiLower (b : UInt8) : isAsciiDigit (asciiLower b) = isAsciiDigit b := by
  simp only [isAsciiDigit, asciiLower, isAsciiUppercase, UInt8.le_iff_toNat_le, decide_eq_true_eq]
  split_ifs with hupper
  · rw [UInt8.toNat_add, decide_eq_decide]
    simp at hupper ⊢
    omega
  · rfl

lemma asciiLower_of_isAsciiDigit {b : UInt8} (h : isAsciiDigit b = true) : asciiLower b = b := by
  simp only [isAsciiDigit, decide_eq_true_eq, UInt8.le_iff_toNat_le] at h
  refine (asciiLower_eq_iff ?_).mpr rfl
  simp only [Caseless, UInt8.le_iff_toNat_le]
  simp at h ⊢
  omega

lemma parseUnsigned_toAsciiLowercase (limit : ℕ) (s : Bytes) :
    parseUnsigned limit (toAsciiLowercase s) = parseUnsigned limit s := by
  have hplus : ∀ b ∈ [byte '+'], Caseless b := by decide +kernel
  have hdigits : ((stripPrefix [byte '+'] (toAsciiLowercase s)).filter fun t => !t.isEmpty).getD
      (toAsciiLowercase s) =
      toAsciiLowercase (((stripPrefix [byte '+'] s).filter fun t => !t.isEmpty).getD s) := by
    rw [stripPrefix_toAsciiLowercase hplus]
    cases stripPrefix [byte '+'] s with
    | none => rfl
    | some t => cases t <;> rfl
  rw [parseUnsigned, parseUnsigned, hdigits]
  generalize ((stripPrefix [byte '+'] s).filter fun t => !t.isEmpty).getD s = digits
  have hempty : (toAsciiLowercase digits).isEmpty = digits.isEmpty := by cases digits <;> rfl
  have hall : (toAsciiLowercase digits).all isAsciiDigit = digits.all isAsciiDigit := by
    simp [toAsciiLowercase, List.all_map, Function.comp_def, isAsciiDigit_asciiLower]
  rw [hempty, hall]
  by_cases h : digits.all isAsciiDigit = true
  · have hlower : toAsciiLowercase digits = digits := by
      have hfix : ∀ b ∈ digits, asciiLower b = id b :=
        fun b hb => asciiLower_of_isAsciiDigit (List.all_eq_true.mp h b hb)
      rw [toAsciiLowercase, List.map_congr_left hfix, List.map_id]
    rw [hlower]
  · simp [h]

/-! ### Digits -/

lemma decimal_append_singleton (text : Bytes) (b : UInt8) :
    decimal (text ++ [b]) = decimal text * 10 + (b.toNat - 48) := by
  simp [decimal]

lemma decimal_rightpad {digits : Bytes} (h : digits.length ≤ 3) :
    decimal (digits.rightpad 3 (byte '0')) = decimal digits * 10 ^ (3 - digits.length) := by
  rcases digits with _ | ⟨a, _ | ⟨b, _ | ⟨c, _ | ⟨d, digits⟩⟩⟩⟩
  · rfl
  · simp [decimal, List.rightpad, byte]
    omega
  · simp [decimal, List.rightpad, byte]
  · simp [decimal, List.rightpad]
  · simp only [List.length_cons] at h
    omega

lemma digit_bounds {b : UInt8} (h : isAsciiDigit b = true) : 48 ≤ b.toNat ∧ b.toNat ≤ 57 := by
  rw [isAsciiDigit, decide_eq_true_eq] at h
  exact ⟨UInt8.le_iff_toNat_le.mp h.1, UInt8.le_iff_toNat_le.mp h.2⟩

lemma decimal_eq_zero_iff {digits : Bytes} (h : digits.all isAsciiDigit = true) :
    decimal digits = 0 ↔ (digits.all fun b => b == byte '0') = true := by
  induction digits using List.reverseRecOn with
  | nil => exact iff_of_true rfl rfl
  | append_singleton digits b ih =>
    rw [List.all_append, Bool.and_eq_true, List.all_cons, List.all_nil, Bool.and_true] at h
    have hdigit := digit_bounds h.2
    have hzero : (b == byte '0') = true ↔ b.toNat = 48 := by
      rw [beq_iff_eq, ← UInt8.toNat_inj]
      rfl
    rw [decimal_append_singleton, List.all_append, Bool.and_eq_true, ← ih h.1, List.all_cons, List.all_nil,
      Bool.and_true, hzero]
    omega

lemma decimal_lt {digits : Bytes} (h : digits.all isAsciiDigit = true) : decimal digits < 10 ^ digits.length := by
  induction digits using List.reverseRecOn with
  | nil => exact Nat.one_pos
  | append_singleton digits b ih =>
    rw [List.all_append, Bool.and_eq_true, List.all_cons, List.all_nil, Bool.and_true] at h
    have hdigit := digit_bounds h.2
    have hlt := ih h.1
    rw [decimal_append_singleton, List.length_append, List.length_singleton, Nat.pow_succ]
    omega

lemma parseUnsigned_of_digits {digits : Bytes} (hne : digits ≠ []) (h : digits.all isAsciiDigit = true) (limit : ℕ) :
    parseUnsigned limit digits = if limit ≤ decimal digits then none else some (decimal digits) := by
  have hplus : stripPrefix [byte '+'] digits = none := by
    obtain ⟨b, rest, rfl⟩ := List.exists_cons_of_ne_nil hne
    have hne : byte '+' ≠ b := by
      rintro rfl
      simp +decide at h
    simp [stripPrefix, List.isPrefixOf, hne]
  have hempty : digits.isEmpty = false := by simpa using hne
  simp [parseUnsigned, hplus, hempty, h]

/-! ### Splitting -/

lemma splitOnce_eq_some_iff {sep : UInt8} {s l r : Bytes} :
    splitOnce sep s = some (l, r) ↔ s = l ++ sep :: r ∧ sep ∉ l := by
  induction s generalizing l with
  | nil => simp [splitOnce]
  | cons b s ih =>
    rw [splitOnce]
    split_ifs with hb
    · subst hb
      cases l with
      | nil => simp
      | cons c l =>
        simp only [Option.some.injEq, Prod.mk.injEq, List.cons_append, List.cons.injEq, List.mem_cons, not_or]
        constructor
        · rintro ⟨h, -⟩
          simp at h
        · rintro ⟨⟨rfl, -⟩, h, -⟩
          exact absurd rfl h
    · cases l with
      | nil => simp [hb]
      | cons c l =>
        rw [Option.map_eq_some_iff]
        simp only [Prod.exists, Prod.mk.injEq, List.cons.injEq, List.cons_append, List.mem_cons, not_or]
        constructor
        · rintro ⟨l', r', hsplit, ⟨rfl, rfl⟩, rfl⟩
          obtain ⟨hs, hmem⟩ := ih.mp hsplit
          exact ⟨⟨rfl, hs⟩, Ne.symm hb, hmem⟩
        · rintro ⟨⟨rfl, hs⟩, -, hmem⟩
          exact ⟨l, r, ih.mpr ⟨hs, hmem⟩, ⟨rfl, rfl⟩, rfl⟩

lemma rsplitOnce_eq_some_iff {sep : UInt8} {s l r : Bytes} :
    rsplitOnce sep s = some (l, r) ↔ s = l ++ sep :: r ∧ sep ∉ r := by
  rw [rsplitOnce, Option.map_eq_some_iff]
  constructor
  · rintro ⟨⟨r', l'⟩, hsplit, hp⟩
    obtain ⟨rfl, rfl⟩ := Prod.mk.inj hp
    obtain ⟨hs, hmem⟩ := splitOnce_eq_some_iff.mp hsplit
    have hreverse := congrArg List.reverse hs
    exact ⟨by simpa using hreverse, by simpa using hmem⟩
  · rintro ⟨rfl, hmem⟩
    exact ⟨(r.reverse, l.reverse), splitOnce_eq_some_iff.mpr ⟨by simp, by simpa using hmem⟩, by simp⟩

lemma splitOnce_eq_none_iff {sep : UInt8} {s : Bytes} : splitOnce sep s = none ↔ sep ∉ s := by
  induction s with
  | nil => simp [splitOnce]
  | cons b s ih =>
    rw [splitOnce]
    split_ifs with hb
    · simp [hb]
    · simp [ih, Ne.symm hb]

/-! ### Trimming -/

lemma stripAny_suffix (ws : List Bytes) (n : ℕ) (s : Bytes) : stripAny ws n s <:+ s := by
  induction n generalizing s with
  | zero => exact List.suffix_rfl
  | succ n ih =>
    rw [stripAny]
    cases h : ws.findSome? fun w => stripPrefix w s with
    | none => exact List.suffix_rfl
    | some t =>
      obtain ⟨w, -, hw⟩ := List.exists_of_findSome?_eq_some h
      have ht : t <:+ s := by
        rw [stripPrefix] at hw
        split_ifs at hw
        obtain rfl := Option.some.inj hw
        exact List.drop_suffix _ _
      exact (ih t).trans ht

lemma stripAny_eq_self {ws : List Bytes} {s : Bytes} (h : ∀ w ∈ ws, ¬w <+: s) (n : ℕ) :
    stripAny ws n s = s := by
  cases n with
  | zero => rfl
  | succ n =>
    have hnone : (ws.findSome? fun w => stripPrefix w s) = none := by
      rw [List.findSome?_eq_none_iff]
      intro w hw
      simp [stripPrefix, h w hw]
    rw [stripAny, hnone]

/-- A text that loses nothing starts with none of the words. -/
lemma not_prefix_of_stripAny_eq {ws : List Bytes} {s w : Bytes} (hws : [] ∉ ws)
    (h : stripAny ws s.length s = s) (hw : w ∈ ws) : ¬w <+: s := by
  intro hpre
  have hne : w ≠ [] := fun hnil => hws (hnil ▸ hw)
  have hlen : 0 < w.length := List.length_pos_of_ne_nil hne
  obtain ⟨n, hn⟩ : ∃ n, s.length = n + 1 := ⟨s.length - 1, by have := hpre.length_le; omega⟩
  rw [hn, stripAny] at h
  cases hfind : ws.findSome? fun w => stripPrefix w s with
  | none =>
    have hstrip := List.findSome?_eq_none_iff.mp hfind w hw
    simp [stripPrefix, hpre] at hstrip
  | some t =>
    simp only [hfind] at h
    obtain ⟨v, hv, hstrip⟩ := List.exists_of_findSome?_eq_some hfind
    rw [stripPrefix] at hstrip
    split_ifs at hstrip with hvpre
    obtain rfl := Option.some.inj hstrip
    have hvlen : 0 < v.length := List.length_pos_of_ne_nil fun hnil => hws (hnil ▸ hv)
    have hshort := (stripAny_suffix ws n (s.drop v.length)).length_le
    rw [h, List.length_drop] at hshort
    omega

lemma prefix_trimEnd (s : Bytes) : trimEnd s <+: s := by
  rw [← List.reverse_suffix, trimEnd, List.reverse_reverse]
  exact stripAny_suffix _ _ _

lemma trim_sublist (s : Bytes) : (trim s).Sublist s :=
  (prefix_trimEnd _).sublist.trans (stripAny_suffix _ _ _).sublist

lemma trimStart_eq_of_trim_eq {s : Bytes} (h : trim s = s) : trimStart s = s := by
  have hsub : s.Sublist (trimStart s) := by
    conv_lhs => rw [← h]
    exact (prefix_trimEnd _).sublist
  exact (stripAny_suffix _ _ _).sublist.antisymm hsub

/-- A byte that occurs in no white space character. -/
def Visible (b : UInt8) : Prop := ∀ w ∈ whitespace, b ∉ w

instance : DecidablePred Visible := fun b => inferInstanceAs (Decidable (∀ w ∈ whitespace, b ∉ w))

lemma trim_append {s t : Bytes} (hs : trim s = s) (ht : t ≠ []) (hvisible : ∀ b ∈ t, Visible b) :
    trim (s ++ t) = s ++ t := by
  have hstart : trimStart (s ++ t) = s ++ t := by
    refine stripAny_eq_self (fun w hw hpre => ?_) _
    -- a word at the front either lies in `s`, which is trimmed, or reaches the visible text
    rcases Nat.lt_or_ge s.length w.length with hlen | hlen
    · obtain ⟨b, t, rfl⟩ := List.exists_cons_of_ne_nil ht
      have hreach : s ++ [b] <+: w := by
        refine List.prefix_of_prefix_length_le ⟨t, by simp⟩ hpre ?_
        rw [List.length_append, List.length_singleton]
        exact hlen
      exact hvisible b (by simp) w hw (hreach.subset (by simp))
    · refine not_prefix_of_stripAny_eq (by decide) (trimStart_eq_of_trim_eq hs) hw ?_
      exact List.prefix_of_prefix_length_le hpre (List.prefix_append s t) hlen
  have hend : trimEnd (s ++ t) = s ++ t := by
    rw [trimEnd, stripAny_eq_self, List.reverse_reverse]
    intro w hw hpre
    obtain ⟨v, hv, rfl⟩ := List.mem_map.mp hw
    have hsuffix : v <:+ s ++ t := List.reverse_prefix.mp hpre
    have hne : v ≠ [] := by
      rintro rfl
      exact absurd hv (by decide)
    have hlast : v.getLast hne = t.getLast ht := by
      rw [hsuffix.getLast hne, List.getLast_append_of_ne_nil _ ht]
    exact hvisible _ (List.getLast_mem ht) v hv (hlast ▸ List.getLast_mem hne)
  rw [trim, hstart, hend]

lemma trim_visible {t : Bytes} (h : ∀ b ∈ t, Visible b) : trim t = t := by
  by_cases ht : t = []
  · subst ht
    rfl
  · exact trim_append (s := []) rfl ht h

lemma trim_space_cons (s : Bytes) : trim (0x20 :: s) = trim s := by
  have hstrip : (whitespace.findSome? fun w => stripPrefix w (0x20 :: s)) = some s := by
    simp [whitespace, stripPrefix]
  have hstart : trimStart (0x20 :: s) = trimStart s := by
    rw [trimStart, List.length_cons, stripAny, hstrip, trimStart]
  rw [trim, hstart, trim]

end ByteText
