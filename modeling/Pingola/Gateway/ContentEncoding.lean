import Pingola.Http.Header
import Pingola.Lib.CaseFold

/-!
# Negotiation of content codings

`content_encoding.rs`. The qualities that the loop collects are maxima over the items of a name, so the
outcome depends on the items only up to order and case, and the shortcut for single tokens agrees with
the loop.
-/

namespace Pingola
open ByteText

inductive ContentCoding where
  | identity
  | gzip
  | brotli
  | zstd
  | notAcceptable
  deriving DecidableEq

def ContentCoding.asStr : ContentCoding → Option String
  | .identity | .notAcceptable => none
  | .gzip => some "gzip"
  | .brotli => some "br"
  | .zstd => some "zstd"

structure EncodingNegotiation where
  preferred : ContentCoding
  identityAcceptable : Bool
  deriving DecidableEq

structure Preferences where
  gzip : Option ℕ
  brotli : Option ℕ
  zstd : Option ℕ
  identity : Option ℕ
  wildcard : Option ℕ
  deriving DecidableEq

def Preferences.default : Preferences := ⟨none, none, none, none, none⟩

/-- A quality in thousandths. -/
def parseQuality (value : Bytes) : Option ℕ :=
  if value = ascii "0" then some 0
  else if value = ascii "1" then some 1000
  else
    match splitOnce (byte '.') value with
    | none => none
    | some (whole, fraction) =>
      if 3 < fraction.length || !fraction.all isAsciiDigit then none
      else if whole = ascii "1" then if fraction.all fun b => b == byte '0' then some 1000 else none
      else if whole ≠ ascii "0" ∧ whole ≠ [] then none
      else
        match parseUnsigned (2 ^ 16) fraction, fraction.length with
        | none, _ => none
        | some _, 0 => some 0
        | some digits, 1 => some (digits * 100)
        | some digits, 2 => some (digits * 10)
        | some digits, _ => some digits

/-- What a parameter does to the quality of its item. -/
def parameterQuality (quality : ℕ) (parameter : Bytes) : ℕ :=
  match splitOnce (byte '=') (trim parameter) with
  | none => quality
  | some (key, value) =>
    if eqIgnoreAsciiCase (trim key) (ascii "q") then (parseQuality (trim value)).getD 0 else quality

def itemName (item : Bytes) : Bytes := trim (((trim item).splitOn (byte ';')).headD [])

def itemQuality (item : Bytes) : ℕ := ((trim item).splitOn (byte ';')).tail.foldl parameterQuality 1000

namespace Preferences

def record (slot : Option ℕ) (quality : ℕ) : Option ℕ := some (slot.elim quality fun current => max current quality)

/-- The body of the loop in `parse_value`. -/
def parseItem (p : Preferences) (item : Bytes) : Preferences :=
  let name := itemName item
  let quality := itemQuality item
  if name.isEmpty then p
  else if eqIgnoreAsciiCase name (ascii "gzip") then { p with gzip := record p.gzip quality }
  else if eqIgnoreAsciiCase name (ascii "br") then { p with brotli := record p.brotli quality }
  else if eqIgnoreAsciiCase name (ascii "zstd") then { p with zstd := record p.zstd quality }
  else if eqIgnoreAsciiCase name (ascii "identity") then { p with identity := record p.identity quality }
  else if name = ascii "*" then { p with wildcard := record p.wildcard quality }
  else p

def parseValue (p : Preferences) (value : Bytes) : Preferences :=
  match headerValueToStr value with
  | none => p
  | some value => (value.splitOn (byte ',')).foldl parseItem p

/-- The part of `negotiate` after the loop. -/
def select (p : Preferences) : EncodingNegotiation :=
  let wildcard := p.wildcard.getD 0
  let identityAcceptable := decide (0 < p.identity.getD (if p.wildcard = some 0 then 0 else 1000))
  let identityPreference := p.identity.getD 0
  let candidates := [(ContentCoding.zstd, p.zstd.getD wildcard), (.brotli, p.brotli.getD wildcard),
    (.gzip, p.gzip.getD wildcard)]
  let selected := candidates.foldl
    (fun selected candidate => if selected.2 < candidate.2 then candidate else selected)
    (.notAcceptable, 0)
  ⟨if 0 < selected.2 ∧ identityPreference ≤ selected.2 then selected.1
    else if identityAcceptable then .identity else .notAcceptable, identityAcceptable⟩

end Preferences

/-- The answer to a field that is a single token. -/
def exactToken (value : Bytes) : Option ContentCoding :=
  if eqIgnoreAsciiCase value (ascii "identity") then some .identity
  else if eqIgnoreAsciiCase value (ascii "gzip") then some .gzip
  else if eqIgnoreAsciiCase value (ascii "br") then some .brotli
  else if eqIgnoreAsciiCase value (ascii "zstd") ∨ value = ascii "*" then some .zstd
  else none

def negotiate : List Bytes → EncodingNegotiation
  | [] => ⟨.identity, true⟩
  | [value] =>
    match exactToken value with
    | some preferred => ⟨preferred, true⟩
    | none => (Preferences.default.parseValue value).select
  | first :: second :: values =>
    (values.foldl Preferences.parseValue ((Preferences.default.parseValue first).parseValue second)).select

/-! ### The specification -/

/-- The items of all fields. -/
def acceptItems (values : List Bytes) : List Bytes := values.flatMap fun value => value.splitOn (byte ',')

/-- The value of a parameter that gives a quality. -/
def qValue (parameter : Bytes) : Option Bytes :=
  ((splitOnce (byte '=') (trim parameter)).filter fun p => eqIgnoreAsciiCase (trim p.1) (ascii "q")).map
    fun p => trim p.2

/-- The number that a weight spells, in thousandths: from nought to one, with at most three digits after a point. A
nought before the point may be left out. -/
def qWeight (value : Bytes) : Option ℕ :=
  let whole := value.takeWhile (· != byte '.')
  let digits := (value.dropWhile (· != byte '.')).tail
  let weight := 1000 * decimal whole + decimal (digits.rightpad 3 (byte '0'))
  if (whole = [] ∧ digits ≠ [] ∨ whole = ascii "0" ∨ whole = ascii "1") ∧ digits.all isAsciiDigit = true ∧
      digits.length ≤ 3 ∧ weight ≤ 1000 then some weight else none

/-- The quality of an item: its last `q` in thousandths, zero if that is malformed, and one if it has none. -/
def statedQuality (item : Bytes) : ℕ :=
  match (((trim item).splitOn (byte ';')).tail.filterMap qValue).getLast? with
  | none => 1000
  | some value => (qWeight value).getD 0

/-- The greatest quality of the items with a name, if there are any. -/
def explicitQuality (items : List Bytes) (name : String) : Option ℕ :=
  ((items.filter fun item => toAsciiLowercase (itemName item) = ascii name).map statedQuality).max?

/-- The quality of a coding: that of its own items, or of the wildcard. -/
def codingQuality (items : List Bytes) (name : String) : ℕ :=
  (explicitQuality items name).getD ((explicitQuality items "*").getD 0)

/-- The quality of a coding that the proxy can produce. -/
def ContentCoding.quality (items : List Bytes) (coding : ContentCoding) : ℕ :=
  coding.asStr.elim 0 (codingQuality items)

/-- The codings that can be selected, the preferred ones first. -/
def compressions : List ContentCoding := [.zstd, .brotli, .gzip]

/-- A coding that may be selected: its quality is positive and not below that of an explicit identity, it
is above those of the codings before it and not below those of the codings after it. -/
structure Selectable (items : List Bytes) (coding : ContentCoding) : Prop where
  positive : 0 < coding.quality items
  greatest : ∃ before after, compressions = before ++ coding :: after ∧
    (∀ other ∈ before, other.quality items < coding.quality items) ∧
    ∀ other ∈ after, other.quality items ≤ coding.quality items
  identity : (explicitQuality items "identity").getD 0 ≤ coding.quality items

lemma Selectable.mem {items : List Bytes} {coding : ContentCoding} (h : Selectable items coding) :
    coding ∈ compressions := by
  obtain ⟨before, after, hlist, -⟩ := h.greatest
  exact hlist ▸ List.mem_append_right _ List.mem_cons_self

/-! ### Weights -/

lemma decimal_scaled_le {digits : Bytes} (h : digits.all isAsciiDigit = true) (hlength : digits.length ≤ 3) :
    decimal digits * 10 ^ (3 - digits.length) ≤ 1000 := by
  calc decimal digits * 10 ^ (3 - digits.length)
      ≤ 10 ^ digits.length * 10 ^ (3 - digits.length) := Nat.mul_le_mul_right _ (decimal_lt h).le
    _ = 1000 := by rw [← Nat.pow_add, Nat.add_sub_cancel' hlength]

/-- The weight of a text with a point. -/
lemma qWeight_point {whole digits : Bytes} (h : byte '.' ∉ whole) :
    qWeight (whole ++ byte '.' :: digits) =
      if (whole = [] ∧ digits ≠ [] ∨ whole = ascii "0" ∨ whole = ascii "1") ∧ digits.all isAsciiDigit = true ∧
        digits.length ≤ 3 ∧ 1000 * decimal whole + decimal (digits.rightpad 3 (byte '0')) ≤ 1000 then
        some (1000 * decimal whole + decimal (digits.rightpad 3 (byte '0'))) else none := by
  have hwhole : ∀ b ∈ whole, (b != byte '.') = true := by
    intro b hb
    rw [bne_iff_ne]
    rintro rfl
    exact h hb
  have htake : (whole ++ byte '.' :: digits).takeWhile (· != byte '.') = whole := by
    rw [List.takeWhile_append_of_pos hwhole, List.takeWhile_cons_of_neg (by simp), List.append_nil]
  have hdrop : (whole ++ byte '.' :: digits).dropWhile (· != byte '.') = byte '.' :: digits := by
    rw [List.dropWhile_append_of_pos hwhole, List.dropWhile_cons_of_neg (by simp)]
  unfold qWeight
  rw [htake, hdrop, List.tail_cons]

/-- A text without a point is nought, one or malformed. -/
lemma qWeight_of_not_mem {value : Bytes} (h : byte '.' ∉ value) :
    (qWeight value).getD 0 = if value = ascii "1" then 1000 else 0 := by
  have hvalue : ∀ b ∈ value, (b != byte '.') = true := by
    intro b hb
    rw [bne_iff_ne]
    rintro rfl
    exact h hb
  unfold qWeight
  rw [List.takeWhile_eq_self_iff.mpr hvalue, List.dropWhile_eq_nil_iff.mpr hvalue]
  by_cases hone : value = ascii "1"
  · rw [hone]
    decide
  · by_cases hnought : value = ascii "0"
    · rw [hnought]
      decide
    · simp [hone, hnought]

/-- The parser reads a weight as the number that it spells. -/
lemma getD_parseQuality (value : Bytes) : (parseQuality value).getD 0 = (qWeight value).getD 0 := by
  unfold parseQuality
  cases hsplit : splitOnce (byte '.') value with
  | none =>
    rw [qWeight_of_not_mem (splitOnce_eq_none_iff.mp hsplit)]
    by_cases hnought : value = ascii "0"
    · rw [hnought]
      rfl
    · rw [if_neg hnought]
      split_ifs
      · rfl
      · rfl
  | some p =>
    obtain ⟨whole, digits⟩ := p
    obtain ⟨rfl, hpoint⟩ := splitOnce_eq_some_iff.mp hsplit
    have hne : ∀ text : Bytes, byte '.' ∉ text → whole ++ byte '.' :: digits ≠ text := by
      rintro text htext rfl
      exact htext (List.mem_append_right _ List.mem_cons_self)
    rw [qWeight_point hpoint, if_neg (hne _ (by decide)), if_neg (hne _ (by decide))]
    dsimp only
    by_cases hdigits : digits.all isAsciiDigit = true ∧ digits.length ≤ 3
    · obtain ⟨hall, hlength⟩ := hdigits
      rw [decimal_rightpad hlength, if_neg (by simp [hall, hlength])]
      by_cases hone : whole = ascii "1"
      · -- above one there is nothing, so that the digits are noughts
        have hdecimal : decimal whole = 1 := by rw [hone]; rfl
        rw [if_pos hone, hdecimal]
        by_cases hzero : decimal digits = 0
        · simp [hone, hall, hlength, hzero, (decimal_eq_zero_iff hall).mp hzero]
        · have hpos : 0 < decimal digits * 10 ^ (3 - digits.length) :=
            Nat.mul_pos (Nat.pos_of_ne_zero hzero) (Nat.pow_pos (by decide))
          rw [if_neg (mt (decimal_eq_zero_iff hall).mpr hzero), if_neg (by omega)]
      · rw [if_neg hone]
        by_cases hwhole : whole = [] ∨ whole = ascii "0"
        · have hdecimal : decimal whole = 0 := by rcases hwhole with rfl | rfl <;> rfl
          rw [if_neg (by tauto), hdecimal]
          by_cases hnil : digits = []
          · rw [hnil]
            split_ifs <;> rfl
          · have hbound : decimal digits < 1000 :=
              (decimal_lt hall).trans_le (Nat.pow_le_pow_right (by decide) hlength)
            have hweight := decimal_scaled_le hall hlength
            rw [parseUnsigned_of_digits hnil hall, if_neg (by omega), if_pos]
            · rcases digits with _ | ⟨a, _ | ⟨b, _ | ⟨c, _ | ⟨d, digits⟩⟩⟩⟩
              · exact absurd rfl hnil
              · simp
              · simp
              · simp
              · simp only [List.length_cons] at hlength
                omega
            · exact ⟨hwhole.imp (fun h => ⟨h, hnil⟩) .inl, hall, hlength, by omega⟩
        · rw [if_pos (by tauto), if_neg (by tauto)]
    · have hbad : (decide (3 < digits.length) || !digits.all isAsciiDigit) = true := by
        rw [Bool.or_eq_true, decide_eq_true_eq, Bool.not_eq_true', ← Bool.not_eq_true]
        exact (not_and_or.mp hdigits).symm.imp_left Nat.lt_of_not_le
      rw [if_pos hbad, if_neg (by tauto)]

/-! ### The loop -/

lemma foldl_parameterQuality (parameters : List Bytes) (quality : ℕ) :
    parameters.foldl parameterQuality quality =
      match (parameters.filterMap qValue).getLast? with
      | none => quality
      | some value => (qWeight value).getD 0 := by
  induction parameters using List.reverseRecOn with
  | nil => rfl
  | append_singleton parameters parameter ih =>
    rw [List.foldl_append, List.foldl_cons, List.foldl_nil, List.filterMap_append, ih]
    unfold parameterQuality
    cases hsplit : splitOnce (byte '=') (trim parameter) with
    | none => simp [qValue, hsplit]
    | some p =>
      by_cases hq : eqIgnoreAsciiCase (trim p.1) (ascii "q") = true
      · have hvalue : qValue parameter = some (trim p.2) := by rw [qValue, hsplit, Option.filter_some, if_pos hq]; rfl
        simp [hvalue, hq, getD_parseQuality]
      · have hvalue : qValue parameter = none := by rw [qValue, hsplit, Option.filter_some, if_neg hq]; rfl
        simp [hvalue, hq]

lemma itemQuality_eq (item : Bytes) : itemQuality item = statedQuality item := foldl_parameterQuality _ _

lemma foldl_record (l : List ℕ) : l.foldl Preferences.record none = l.max? := by
  have hsome : ∀ (l : List ℕ) (a : ℕ), l.foldl Preferences.record (some a) = some (l.foldl max a) := by
    intro l
    induction l with
    | nil => exact fun a => rfl
    | cons b l ih => exact fun a => ih (max a b)
  cases l with
  | nil => rfl
  | cons a l => exact hsome l a

/-- What an item does to the slot of a name. -/
def slotAfter (name : String) (slot : Option ℕ) (item : Bytes) : Option ℕ :=
  if toAsciiLowercase (itemName item) = ascii name then Preferences.record slot (statedQuality item) else slot

lemma foldl_slotAfter (items : List Bytes) (name : String) :
    items.foldl (slotAfter name) none = explicitQuality items name := by
  rw [explicitQuality, ← foldl_record, List.foldl_map, List.foldl_filter]
  simp only [decide_eq_true_eq]
  rfl

namespace Preferences

lemma parseItem_eq (p : Preferences) (item : Bytes) :
    p.parseItem item = ⟨slotAfter "gzip" p.gzip item, slotAfter "br" p.brotli item, slotAfter "zstd" p.zstd item,
      slotAfter "identity" p.identity item, slotAfter "*" p.wildcard item⟩ := by
  have hwild : itemName item = ascii "*" ↔ toAsciiLowercase (itemName item) = ascii "*" :=
    (toAsciiLowercase_eq_iff (by decide +kernel) _).symm
  have hempty : (itemName item).isEmpty = true ↔ toAsciiLowercase (itemName item) = [] := by
    simp [toAsciiLowercase]
  have hlower : ∀ name : String, toAsciiLowercase (ascii name) = ascii name →
      (eqIgnoreAsciiCase (itemName item) (ascii name) = true ↔ toAsciiLowercase (itemName item) = ascii name) := by
    intro name hname
    rw [eqIgnoreAsciiCase, beq_iff_eq, hname]
  unfold parseItem slotAfter
  dsimp only
  simp only [hempty, hlower "gzip" (by decide), hlower "br" (by decide), hlower "zstd" (by decide),
    hlower "identity" (by decide), hwild, itemQuality_eq]
  generalize toAsciiLowercase (itemName item) = name
  by_cases hgzip : name = ascii "gzip"
  · subst hgzip
    simp +decide
  by_cases hbr : name = ascii "br"
  · subst hbr
    simp +decide
  by_cases hzstd : name = ascii "zstd"
  · subst hzstd
    simp +decide
  by_cases hidentity : name = ascii "identity"
  · subst hidentity
    simp +decide
  by_cases hstar : name = ascii "*"
  · subst hstar
    simp +decide
  · simp [hgzip, hbr, hzstd, hidentity, hstar]

/-- The loop over the items collects the greatest quality of each name. -/
lemma foldl_parseItem (items : List Bytes) :
    items.foldl parseItem default = ⟨explicitQuality items "gzip", explicitQuality items "br",
      explicitQuality items "zstd", explicitQuality items "identity", explicitQuality items "*"⟩ := by
  have hfold : ∀ p : Preferences, items.foldl parseItem p =
      ⟨items.foldl (slotAfter "gzip") p.gzip, items.foldl (slotAfter "br") p.brotli,
        items.foldl (slotAfter "zstd") p.zstd, items.foldl (slotAfter "identity") p.identity,
        items.foldl (slotAfter "*") p.wildcard⟩ := by
    induction items with
    | nil => exact fun p => rfl
    | cons item items ih =>
      intro p
      simp only [List.foldl_cons, ih, parseItem_eq]
  rw [hfold]
  simp only [default, foldl_slotAfter]

end Preferences

/-! ### Fields and items -/

lemma foldl_parseValue {values : List Bytes} (h : ∀ value ∈ values, (headerValueToStr value).isSome = true)
    (p : Preferences) :
    values.foldl Preferences.parseValue p = (acceptItems values).foldl Preferences.parseItem p := by
  induction values generalizing p with
  | nil => rfl
  | cons value values ih =>
    obtain ⟨text, hvalue⟩ := Option.isSome_iff_exists.mp (h value List.mem_cons_self)
    obtain rfl := headerValueToStr_eq_some hvalue
    rw [List.foldl_cons, ih fun v hv => h v (List.mem_cons_of_mem _ hv)]
    simp [acceptItems, Preferences.parseValue, hvalue]

lemma parseQuality_toAsciiLowercase (value : Bytes) : parseQuality (toAsciiLowercase value) = parseQuality value := by
  have hnought : ∀ s, toAsciiLowercase s = ascii "0" ↔ s = ascii "0" := toAsciiLowercase_eq_iff (by decide +kernel)
  have hone : ∀ s, toAsciiLowercase s = ascii "1" ↔ s = ascii "1" := toAsciiLowercase_eq_iff (by decide +kernel)
  have hnil : ∀ s, toAsciiLowercase s = [] ↔ s = [] := toAsciiLowercase_eq_iff (by simp)
  have hdigit : ∀ s : Bytes, (toAsciiLowercase s).all isAsciiDigit = s.all isAsciiDigit := by
    intro s
    simp only [toAsciiLowercase, List.all_map, Function.comp_def, isAsciiDigit_asciiLower]
  have hzero : ∀ s : Bytes, ((toAsciiLowercase s).all fun b => b == byte '0') = s.all fun b => b == byte '0' := by
    intro s
    rw [toAsciiLowercase, List.all_map]
    congr 1
    funext b
    rw [Function.comp_apply, Bool.eq_iff_iff, beq_iff_eq, beq_iff_eq, asciiLower_eq_iff (by decide)]
  unfold parseQuality
  simp only [hnought, hone, splitOnce_toAsciiLowercase (show Caseless (byte '.') by decide)]
  cases splitOnce (byte '.') value with
  | none => rfl
  | some p =>
    simp only [Option.map_some, Prod.map_fst, Prod.map_snd, length_toAsciiLowercase, hdigit, hzero, hnought, hone,
      hnil, parseUnsigned_toAsciiLowercase, ne_eq]

lemma qValue_toAsciiLowercase (parameter : Bytes) :
    qValue (toAsciiLowercase parameter) = (qValue parameter).map toAsciiLowercase := by
  unfold qValue
  rw [trim_toAsciiLowercase, splitOnce_toAsciiLowercase (by decide)]
  cases splitOnce (byte '=') (trim parameter) with
  | none => rfl
  | some p =>
    simp only [Option.map_some, Option.filter_some, eqIgnoreAsciiCase, Prod.map_fst, trim_toAsciiLowercase,
      toAsciiLowercase_toAsciiLowercase]
    split_ifs
    · simp [trim_toAsciiLowercase]
    · rfl

lemma itemName_toAsciiLowercase (item : Bytes) :
    itemName (toAsciiLowercase item) = toAsciiLowercase (itemName item) := by
  unfold itemName
  rw [trim_toAsciiLowercase, splitOn_toAsciiLowercase (by decide), ← trim_toAsciiLowercase]
  obtain ⟨l, ls, hsplit⟩ := List.exists_cons_of_ne_nil (List.splitOn_ne_nil (byte ';') (trim item))
  rw [hsplit]
  rfl

lemma statedQuality_toAsciiLowercase (item : Bytes) : statedQuality (toAsciiLowercase item) = statedQuality item := by
  have hparameters : ∀ parameters : List Bytes, (parameters.map toAsciiLowercase).filterMap qValue =
      (parameters.filterMap qValue).map toAsciiLowercase := by
    intro parameters
    rw [List.filterMap_map, List.map_filterMap]
    congr 1
    funext parameter
    exact qValue_toAsciiLowercase parameter
  unfold statedQuality
  rw [trim_toAsciiLowercase, splitOn_toAsciiLowercase (by decide), ← List.map_tail, hparameters, List.getLast?_map]
  cases (((trim item).splitOn (byte ';')).tail.filterMap qValue).getLast? with
  | none => rfl
  | some value => simp [← getD_parseQuality, parseQuality_toAsciiLowercase]

/-- The qualities of a name depend on the items up to case. -/
lemma explicitQuality_toAsciiLowercase (items : List Bytes) (name : String) :
    explicitQuality (items.map toAsciiLowercase) name = explicitQuality items name := by
  unfold explicitQuality
  rw [List.filter_map, List.map_map]
  simp only [Function.comp_def, itemName_toAsciiLowercase, toAsciiLowercase_toAsciiLowercase,
    statedQuality_toAsciiLowercase]

lemma explicitQuality_perm {items items' : List Bytes} (h : items.Perm items') (name : String) :
    explicitQuality items name = explicitQuality items' name := by
  have hperm := (h.filter fun item => toAsciiLowercase (itemName item) = ascii name).map statedQuality
  unfold explicitQuality
  ext1 quality
  rw [List.max?_eq_some_iff, List.max?_eq_some_iff]
  simp only [hperm.mem_iff]

/-- Items that agree up to order and case have the same qualities. -/
lemma foldl_parseItem_congr {items items' : List Bytes}
    (h : (items.map toAsciiLowercase).Perm (items'.map toAsciiLowercase)) :
    items.foldl Preferences.parseItem .default = items'.foldl Preferences.parseItem .default := by
  have hsame : ∀ name, explicitQuality items name = explicitQuality items' name := by
    intro name
    rw [← explicitQuality_toAsciiLowercase items, explicitQuality_perm h, explicitQuality_toAsciiLowercase]
  simp only [Preferences.foldl_parseItem, hsame]

/-- The shortcut for single tokens agrees with the loop. -/
lemma negotiate_eq {values : List Bytes} (h : ∀ value ∈ values, (headerValueToStr value).isSome = true) :
    negotiate values = ((acceptItems values).foldl Preferences.parseItem .default).select := by
  rw [← foldl_parseValue h]
  match values with
  | [] => decide
  | first :: second :: values => rfl
  | [value] =>
    simp only [negotiate]
    cases htoken : exactToken value with
    | none => rfl
    | some preferred =>
      rw [foldl_parseValue h]
      -- the loop reads the token as it reads its lower-case letters
      have hfold : (acceptItems [value]).foldl Preferences.parseItem .default =
          (acceptItems [toAsciiLowercase value]).foldl Preferences.parseItem .default := by
        apply foldl_parseItem_congr
        simp [acceptItems, splitOn_toAsciiLowercase (show Caseless (byte ',') by decide), Function.comp_def]
      have hstar : value = ascii "*" ↔ toAsciiLowercase value = ascii "*" :=
        (toAsciiLowercase_eq_iff (by decide +kernel) _).symm
      rw [hfold]
      simp only [exactToken, eqIgnoreAsciiCase, beq_iff_eq, hstar] at htoken
      dsimp only
      split_ifs at htoken with hidentity hgzip hbr hzstd
      · obtain rfl := Option.some.inj htoken
        rw [hidentity]
        decide +kernel
      · obtain rfl := Option.some.inj htoken
        rw [hgzip]
        decide +kernel
      · obtain rfl := Option.some.inj htoken
        rw [hbr]
        decide +kernel
      · obtain rfl := Option.some.inj htoken
        rcases hzstd with hzstd | hzstd
        · rw [hzstd]
          decide +kernel
        · rw [hzstd]
          decide +kernel

/-! ### The choice -/

/-- A loop that keeps an element until it meets a greater one ends with the first of the greatest
elements, or with its start if none is greater. -/
lemma foldl_keep_greatest {α : Type} (q : α → ℕ) (start : α) (l : List α) :
    l.foldl (fun best x => if q best < q x then x else best) start = start ∧ (∀ x ∈ l, q x ≤ q start) ∨
      ∃ before x after, l = before ++ x :: after ∧
        l.foldl (fun best x => if q best < q x then x else best) start = x ∧ q start < q x ∧
        (∀ y ∈ before, q y < q x) ∧ ∀ y ∈ after, q y ≤ q x := by
  induction l generalizing start with
  | nil => exact .inl ⟨rfl, by simp⟩
  | cons a l ih =>
    rw [List.foldl_cons]
    by_cases ha : q start < q a
    · rw [if_pos ha]
      rcases ih a with ⟨hbest, hle⟩ | ⟨before, x, after, rfl, hbest, hlt, hbefore, hafter⟩
      · exact .inr ⟨[], a, l, rfl, hbest, ha, by simp, hle⟩
      · refine .inr ⟨a :: before, x, after, rfl, hbest, by omega, ?_, hafter⟩
        intro y hy
        rcases List.mem_cons.mp hy with rfl | hy
        · exact hlt
        · exact hbefore y hy
    · rw [if_neg ha]
      rcases ih start with ⟨hbest, hle⟩ | ⟨before, x, after, rfl, hbest, hlt, hbefore, hafter⟩
      · refine .inl ⟨hbest, fun y hy => ?_⟩
        rcases List.mem_cons.mp hy with rfl | hy
        · omega
        · exact hle y hy
      · refine .inr ⟨a :: before, x, after, rfl, hbest, hlt, ?_, hafter⟩
        intro y hy
        rcases List.mem_cons.mp hy with rfl | hy
        · omega
        · exact hbefore y hy

/-- What the items say about identity. -/
def identityAcceptableFor (items : List Bytes) : Bool :=
  decide (0 < (explicitQuality items "identity").getD (if explicitQuality items "*" = some 0 then 0 else 1000))

/-- The choice after the loop in terms of the qualities of the items. -/
lemma select_foldl_parseItem (items : List Bytes) :
    (items.foldl Preferences.parseItem .default).select =
      let best := compressions.foldl (fun best coding =>
        if best.quality items < coding.quality items then coding else best) .notAcceptable
      ⟨if 0 < best.quality items ∧ (explicitQuality items "identity").getD 0 ≤ best.quality items then best
        else if identityAcceptableFor items then .identity else .notAcceptable, identityAcceptableFor items⟩ := by
  have hpair : ∀ (l : List ContentCoding) (start : ContentCoding),
      (l.map fun coding => (coding, coding.quality items)).foldl
        (fun selected candidate => if selected.2 < candidate.2 then candidate else selected)
        (start, start.quality items) =
      let best := l.foldl
        (fun best coding => if best.quality items < coding.quality items then coding else best) start
      (best, best.quality items) := by
    intro l
    induction l with
    | nil => exact fun start => rfl
    | cons coding l ih =>
      intro start
      simp only [List.map_cons, List.foldl_cons]
      split_ifs
      · exact ih coding
      · exact ih start
  let wildcard := (explicitQuality items "*").getD 0
  have hbest : [(ContentCoding.zstd, (explicitQuality items "zstd").getD wildcard),
      (.brotli, (explicitQuality items "br").getD wildcard), (.gzip, (explicitQuality items "gzip").getD wildcard)].foldl
        (fun selected candidate => if selected.2 < candidate.2 then candidate else selected) (.notAcceptable, 0) = _ :=
    hpair compressions .notAcceptable
  rw [Preferences.foldl_parseItem]
  unfold Preferences.select identityAcceptableFor
  dsimp only
  rw [hbest]

/-- A coding is selected only if it is selectable, and one of the others only if no coding is. -/
lemma select_spec (items : List Bytes) :
    let selected := (items.foldl Preferences.parseItem .default).select
    Selectable items selected.preferred ∨
      (∀ coding, ¬Selectable items coding) ∧ selected.identityAcceptable = identityAcceptableFor items ∧
        selected.preferred = if identityAcceptableFor items then .identity else .notAcceptable := by
  rw [select_foldl_parseItem]
  dsimp only
  have hgreatest := foldl_keep_greatest (fun coding => coding.quality items) .notAcceptable compressions
  generalize compressions.foldl (fun best coding =>
    if best.quality items < coding.quality items then coding else best) .notAcceptable = best at hgreatest ⊢
  rcases hgreatest with ⟨rfl, hzero⟩ | ⟨before, coding, after, hlist, rfl, hpositive, hbefore, hafter⟩
  · right
    refine ⟨fun coding hcoding => ?_, rfl, if_neg ?_⟩
    · have hle := hzero coding hcoding.mem
      exact absurd hcoding.positive (Nat.not_lt.mpr hle)
    · rintro ⟨hpositive, -⟩
      cases hpositive
  · have hall : ∀ other ∈ compressions, other.quality items ≤ best.quality items := by
      intro other hother
      rw [hlist] at hother
      rcases List.mem_append.mp hother with hother | hother
      · exact (hbefore other hother).le
      · rcases List.mem_cons.mp hother with rfl | hother
        · exact le_rfl
        · exact hafter other hother
    by_cases hidentity : (explicitQuality items "identity").getD 0 ≤ best.quality items
    · rw [if_pos ⟨hpositive, hidentity⟩]
      exact .inl ⟨hpositive, ⟨before, after, hlist, hbefore, hafter⟩, hidentity⟩
    · refine .inr ⟨fun coding hcoding => ?_, rfl, if_neg fun hboth => hidentity hboth.2⟩
      exact hidentity (hcoding.identity.trans (hall coding hcoding.mem))

lemma explicitQuality_of_not_acceptable {items : List Bytes} (h : identityAcceptableFor items = false) :
    explicitQuality items "identity" = some 0 ∨
      explicitQuality items "identity" = none ∧ explicitQuality items "*" = some 0 := by
  unfold identityAcceptableFor at h
  cases hidentity : explicitQuality items "identity" with
  | none =>
    rw [hidentity] at h
    by_cases hstar : explicitQuality items "*" = some 0
    · exact .inr ⟨rfl, hstar⟩
    · simp [hstar] at h
  | some quality =>
    rw [hidentity] at h
    simp only [Option.getD_some, decide_eq_false_iff_not, not_lt, Nat.le_zero] at h
    exact .inl (congrArg some h)

/-- The negotiation selects the first coding of the greatest quality if that is positive and not below an
explicit identity, and it refuses only a request that excludes identity. Only the items matter, up to order
and case. -/
theorem negotiation_by_quality (values : List Bytes)
    (hvalues : ∀ value ∈ values, (headerValueToStr value).isSome = true) :
    (∀ coding ∈ compressions, (negotiate values).preferred = coding → Selectable (acceptItems values) coding) ∧
    ((negotiate values).preferred ∉ compressions → ∀ coding, ¬Selectable (acceptItems values) coding) ∧
    ((negotiate values).preferred = .notAcceptable →
      explicitQuality (acceptItems values) "identity" = some 0 ∨
        explicitQuality (acceptItems values) "identity" = none ∧ explicitQuality (acceptItems values) "*" = some 0) ∧
    (∀ values', (∀ value ∈ values', (headerValueToStr value).isSome = true) →
      ((acceptItems values).map toAsciiLowercase).Perm ((acceptItems values').map toAsciiLowercase) →
      negotiate values = negotiate values') ∧
    ∀ before left right after, values = before ++ (left ++ byte ',' :: right) :: after →
      negotiate values = negotiate (before ++ left :: right :: after) := by
  have hspec := select_spec (acceptItems values)
  rw [← negotiate_eq hvalues] at hspec
  have hsame : ∀ values', (∀ value ∈ values', (headerValueToStr value).isSome = true) →
      ((acceptItems values).map toAsciiLowercase).Perm ((acceptItems values').map toAsciiLowercase) →
      negotiate values = negotiate values' := by
    intro values' hvalues' hperm
    rw [negotiate_eq hvalues, negotiate_eq hvalues', foldl_parseItem_congr hperm]
  refine ⟨?_, ?_, ?_, hsame, ?_⟩
  · rintro coding hcoding rfl
    rcases hspec with hselectable | ⟨-, -, hother⟩
    · exact hselectable
    · rw [hother] at hcoding
      split_ifs at hcoding <;> cases hcoding <;> contradiction
  · intro hother
    rcases hspec with hselectable | ⟨hnone, -, -⟩
    · exact absurd hselectable.mem hother
    · exact hnone
  · intro hrefused
    rcases hspec with hselectable | ⟨-, -, hother⟩
    · have hmem := hselectable.mem
      rw [hrefused] at hmem
      exact absurd hmem (by decide)
    · refine explicitQuality_of_not_acceptable ?_
      rw [hrefused] at hother
      by_contra hacceptable
      rw [if_pos (by simpa using hacceptable)] at hother
      cases hother
  · rintro before left right after rfl
    apply hsame
    · intro value hvalue
      simp only [List.mem_append, List.mem_cons] at hvalue hvalues
      have hjoined := headerValueToStr_isSome_iff.mp (hvalues _ (.inr (.inl rfl)))
      rcases hvalue with hvalue | rfl | rfl | hvalue
      · exact hvalues value (.inl hvalue)
      · exact headerValueToStr_isSome_iff.mpr fun b hb => hjoined b (List.mem_append_left _ hb)
      · exact headerValueToStr_isSome_iff.mpr fun b hb =>
          hjoined b (List.mem_append_right _ (List.mem_cons_of_mem _ hb))
      · exact hvalues value (.inr (.inr hvalue))
    · simp [acceptItems, List.splitOn_append_cons_self]

theorem negotiation_by_quality_example :
    negotiate [ascii "gzip;q=0.4, BR;q=.5", ascii "*;q=0.3"] = ⟨.brotli, true⟩ ∧
    Selectable (acceptItems [ascii "gzip;q=0.4, BR;q=.5", ascii "*;q=0.3"]) .brotli ∧
    negotiate [ascii "gzip;q=0.4, BR;q=.5", ascii "*;q=0.3"] =
      negotiate [ascii "*;Q=0.3,GZIP;q=0.4, br;q=.5"] := by
  have hvisible : ∀ value ∈ [ascii "gzip;q=0.4, BR;q=.5", ascii "*;q=0.3"],
      (headerValueToStr value).isSome = true := by
    decide +kernel
  have hbrotli : negotiate [ascii "gzip;q=0.4, BR;q=.5", ascii "*;q=0.3"] = ⟨.brotli, true⟩ := by decide +kernel
  obtain ⟨hselected, -, -, hsame, -⟩ := negotiation_by_quality _ hvisible
  exact ⟨hbrotli, hselected .brotli (by decide) (by rw [hbrotli]), hsame _ (by decide +kernel) (by decide +kernel)⟩

end Pingola
