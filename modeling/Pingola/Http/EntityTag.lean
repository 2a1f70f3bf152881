import Pingola.Http.Header

/-!
# Entity tags

The tag that `static_files.rs` gives to a file, and `weak_validate_etag` of pingora-core, which looks for a
tag in an `If-None-Match` list at each comma.
-/

namespace Pingola
open ByteText

/-- The format `{:x}`. -/
def hexText (n : ℕ) : Bytes :=
  if n = 0 then [hexDigit 0] else ((Nat.digits 16 n).map hexDigit).reverse

/-- The tag between its quotes. -/
def opaqueTag (length modifiedNanos : ℕ) : Bytes :=
  byte '"' :: hexText length ++ byte '-' :: hexText modifiedNanos ++ [byte '"']

/-- `W/"{length:x}-{modified_nanos:x}"`. -/
def etagText (length modifiedNanos : ℕ) : Bytes := ascii "W/" ++ opaqueTag length modifiedNanos

/-- `strip_weak_prefix`. -/
def stripWeakPrefix (etag : Bytes) : Bytes := (stripPrefix (ascii "W/") etag).getD etag

/-- What the search skips between two tags. -/
def isDelimiter (b : UInt8) : Bool := isAsciiWhitespace b || b == byte ','

/-- The next tag after a delimiter, if there is one. -/
def nextTag (remaining : Bytes) : Option Bytes :=
  match (remaining.dropWhile (· ≠ byte ',')).dropWhile isDelimiter with
  | [] => none
  | b :: rest => some (stripWeakPrefix (b :: rest))

/-- The loop of `weak_validate_etag`, which reads a tag in each round. -/
def searchTag (target : Bytes) : ℕ → Bytes → Bool
  | 0, _ => false
  | rounds + 1, remaining =>
    if remaining.length < target.length then false
    else
      let found := remaining.take target.length = target
      let remaining := if found then trimAsciiStart (remaining.drop target.length) else remaining
      if found ∧ (remaining.head? = none ∨ remaining.head? = some (byte ',')) then true
      else
        match nextTag remaining with
        | none => false
        | some next => searchTag target rounds next

/-- Each round takes a comma, so there are no more rounds than bytes. -/
def weakValidateEtag (inputEtagHeader targetEtag : Bytes) : Bool :=
  if inputEtagHeader = ascii "*" then true
  else searchTag (stripWeakPrefix targetEtag) (inputEtagHeader.length + 1) (stripWeakPrefix inputEtagHeader)

def ifNoneMatchMatches (headers : HeaderMap) (target : Bytes) : Bool :=
  (MultiMap.getAll headers (ascii "if-none-match")).any fun value => weakValidateEtag value target

/-! ### The list of tags -/

/-- Without trailing blanks. -/
def trimAsciiEnd (s : Bytes) : Bytes := s.rdropWhile isAsciiWhitespace

/-- The tag of a later element of the list. -/
def elementTag (element : Bytes) : Bytes := trimAsciiEnd (stripWeakPrefix (trimAsciiStart element))

/-- The tags of a list whose first tag has lost its mark. -/
def tagsFrom (remaining : Bytes) : List Bytes :=
  match remaining.splitOn (byte ',') with
  | [] => []
  | first :: rest => trimAsciiEnd first :: rest.map elementTag

/-- The tags that a list offers, without their marks of weakness. A blank in front of the first one is a part
of it. -/
def offeredTags (header : Bytes) : List Bytes := tagsFrom (stripWeakPrefix header)

/-- A tag that the search can tell from others: no comma in it, no blank at its end. -/
structure Searchable (target : Bytes) : Prop where
  nonempty : target ≠ []
  comma : byte ',' ∉ target
  trimmed : trimAsciiEnd target = target

variable {target element rest tail : Bytes}

/-- A list is one element, or a first element before a comma. -/
lemma comma_cases (s : Bytes) :
    byte ',' ∉ s ∨ ∃ element rest, s = element ++ byte ',' :: rest ∧ byte ',' ∉ element := by
  by_cases h : byte ',' ∈ s
  · exact .inr (List.eq_append_cons_of_mem h)
  · exact .inl h

lemma stripWeakPrefix_append (tag : Bytes) : stripWeakPrefix (ascii "W/" ++ tag) = tag := by
  rw [stripWeakPrefix, stripPrefix, if_pos (List.isPrefixOf_iff_prefix.mpr (List.prefix_append _ _)),
    List.drop_left]
  rfl

lemma stripWeakPrefix_of_strong {s : Bytes} (h : ¬ascii "W/" <+: s) : stripWeakPrefix s = s := by
  rw [stripWeakPrefix, stripPrefix, if_neg fun hp => h (List.isPrefixOf_iff_prefix.mp hp)]
  rfl

lemma length_stripWeakPrefix_le (s : Bytes) : (stripWeakPrefix s).length ≤ s.length := by
  by_cases h : ascii "W/" <+: s
  · obtain ⟨tag, rfl⟩ := h
    rw [stripWeakPrefix_append, List.length_append]
    exact Nat.le_add_left _ _
  · rw [stripWeakPrefix_of_strong h]

/-- The mark of weakness belongs to the first element. -/
lemma splitOn_stripWeakPrefix {s first : Bytes} {elements : List Bytes}
    (h : s.splitOn (byte ',') = first :: elements) :
    (stripWeakPrefix s).splitOn (byte ',') = stripWeakPrefix first :: elements := by
  by_cases hweak : ascii "W/" <+: s
  · obtain ⟨tag, rfl⟩ := hweak
    have hmark : byte ',' ∉ ascii "W/" := by decide
    rw [stripWeakPrefix_append]
    rcases comma_cases tag with hcomma | ⟨element, rest, rfl, helement⟩
    · rw [List.splitOn_eq_singleton (by simp [hmark, hcomma])] at h
      obtain ⟨rfl, rfl⟩ := List.cons.inj h
      rw [List.splitOn_eq_singleton hcomma, stripWeakPrefix_append]
    · rw [← List.append_assoc, List.splitOn_append_cons_self_of_not_mem (by simp [hmark, helement])] at h
      obtain ⟨rfl, rfl⟩ := List.cons.inj h
      rw [List.splitOn_append_cons_self_of_not_mem helement, stripWeakPrefix_append]
  · have hfirst : first <+: s := by
      rcases comma_cases s with hcomma | ⟨element, rest, rfl, helement⟩
      · rw [List.splitOn_eq_singleton hcomma] at h
        exact (List.cons.inj h).1 ▸ List.prefix_rfl
      · rw [List.splitOn_append_cons_self_of_not_mem helement] at h
        exact (List.cons.inj h).1 ▸ List.prefix_append _ _
    rw [stripWeakPrefix_of_strong hweak, stripWeakPrefix_of_strong fun hp => hweak (hp.trans hfirst), h]

lemma elementTag_nil : elementTag [] = [] := by decide

lemma elementTag_cons_of_blank {b : UInt8} (h : isAsciiWhitespace b = true) (element : Bytes) :
    elementTag (b :: element) = elementTag element := by
  rw [elementTag, trimAsciiStart, List.dropWhile_cons_of_pos h]
  rfl

/-- Blank elements offer nothing, so the next tag begins behind all delimiters. -/
lemma mem_map_elementTag_iff (h : target ≠ []) :
    target ∈ (rest.splitOn (byte ',')).map elementTag ↔
      ∃ b tail, rest.dropWhile isDelimiter = b :: tail ∧ target ∈ tagsFrom (stripWeakPrefix (b :: tail)) := by
  induction rest with
  | nil => simpa [elementTag_nil] using h
  | cons b rest ih =>
    obtain ⟨first, elements, hsplit⟩ := List.exists_cons_of_ne_nil (List.splitOn_ne_nil (byte ',') rest)
    have hsplit' := List.splitOn_cons_eq_if_modifyHead (a := byte ',') b rest
    by_cases hcomma : b = byte ','
    · rw [if_pos (beq_iff_eq.mpr hcomma)] at hsplit'
      rw [hsplit', List.map_cons, elementTag_nil, List.mem_cons, or_iff_right h, ih,
        List.dropWhile_cons_of_pos (by simp [isDelimiter, hcomma])]
    · rw [if_neg (mt beq_iff_eq.mp hcomma), hsplit, List.modifyHead_cons] at hsplit'
      by_cases hblank : isAsciiWhitespace b = true
      · rw [List.dropWhile_cons_of_pos (by simp [isDelimiter, hblank]), ← ih, hsplit', hsplit, List.map_cons,
          elementTag_cons_of_blank hblank, List.map_cons]
      · have hstart : trimAsciiStart (b :: first) = b :: first := List.dropWhile_cons_of_neg hblank
        rw [List.dropWhile_cons_of_neg (by simp [isDelimiter, hblank, hcomma]), hsplit', List.map_cons, elementTag,
          hstart]
        have htags : tagsFrom (stripWeakPrefix (b :: rest)) =
            trimAsciiEnd (stripWeakPrefix (b :: first)) :: elements.map elementTag := by
          rw [tagsFrom, splitOn_stripWeakPrefix hsplit']
        simp [htags]

/-! ### The search -/

lemma trimAsciiEnd_isPrefix (s : Bytes) : trimAsciiEnd s <+: s := List.rdropWhile_prefix _ _

lemma trimAsciiEnd_append_blank {blank : Bytes} (h : trimAsciiStart blank = []) (s : Bytes) :
    trimAsciiEnd (s ++ blank) = trimAsciiEnd s := by
  have hblank : ∀ b ∈ blank.reverse, isAsciiWhitespace b = true := by
    intro b hb
    exact List.dropWhile_eq_nil_iff.mp h b (List.mem_reverse.mp hb)
  rw [trimAsciiEnd, List.rdropWhile, List.reverse_append, List.dropWhile_append_of_pos hblank]
  rfl

lemma exists_trimAsciiEnd_append (s : Bytes) : ∃ blank, s = trimAsciiEnd s ++ blank ∧ trimAsciiStart blank = [] := by
  refine ⟨(s.reverse.takeWhile isAsciiWhitespace).reverse, ?_, List.dropWhile_eq_nil_iff.mpr fun b hb => ?_⟩
  · rw [trimAsciiEnd, List.rdropWhile, ← List.reverse_append, List.takeWhile_append_dropWhile, List.reverse_reverse]
  · exact List.mem_takeWhile_imp (List.mem_reverse.mp hb)

/-- What follows an element: nothing or a comma. -/
def EndsElement (tail : Bytes) : Prop := tail.head? = none ∨ tail.head? = some (byte ',')

lemma EndsElement.eq_comma {b : UInt8} (h : EndsElement (b :: tail)) : b = byte ',' := by
  rcases h with h | h
  · cases h
  · exact Option.some.inj h

lemma EndsElement.trimAsciiStart_append (h : EndsElement tail) (s : Bytes) :
    trimAsciiStart (s ++ tail) = trimAsciiStart s ++ tail := by
  have htail : tail.dropWhile isAsciiWhitespace = tail := by
    cases tail with
    | nil => rfl
    | cons b tail =>
      obtain rfl := h.eq_comma
      rfl
  rw [trimAsciiStart, List.dropWhile_append, htail, trimAsciiStart]
  split_ifs with hempty
  · rw [List.isEmpty_iff.mp hempty, List.nil_append]
  · rfl

/-- A tag without commas that begins a list begins its first element. -/
lemma EndsElement.prefix_of_prefix (h : EndsElement tail) (hcomma : byte ',' ∉ target)
    (htarget : target <+: element ++ tail) : target <+: element := by
  rcases List.prefix_or_prefix_of_prefix htarget (List.prefix_append element tail) with hle | ⟨more, rfl⟩
  · exact hle
  · cases more with
    | nil => exact (List.append_nil element).symm ▸ List.prefix_refl element
    | cons b more =>
      obtain ⟨rest, rfl⟩ := (List.prefix_append_right_inj element).mp htarget
      obtain rfl := EndsElement.eq_comma h
      exact absurd (by simp) hcomma

/-- The test of a round compares the first element with the tag. -/
lemma found_iff (htarget : Searchable target) (hcomma : byte ',' ∉ element) (htail : EndsElement tail) :
    ((element ++ tail).take target.length = target ∧
        EndsElement (trimAsciiStart ((element ++ tail).drop target.length))) ↔
      trimAsciiEnd element = target := by
  rw [← List.prefix_iff_eq_take.trans eq_comm]
  constructor
  · rintro ⟨hfound, hnext⟩
    obtain ⟨blank, rfl⟩ := htail.prefix_of_prefix htarget.comma hfound
    rw [List.append_assoc, List.drop_left, htail.trimAsciiStart_append] at hnext
    have hblank : trimAsciiStart blank = [] := by
      rw [List.eq_nil_iff_forall_not_mem]
      intro b hb
      obtain ⟨c, rest, hrest⟩ := List.exists_cons_of_ne_nil (List.ne_nil_of_mem hb)
      rw [hrest] at hnext
      have hmem : c ∈ blank := (List.dropWhile_sublist _).subset (hrest ▸ List.mem_cons_self)
      obtain rfl := hnext.eq_comma
      exact hcomma (List.mem_append_right _ hmem)
    rw [trimAsciiEnd_append_blank hblank, htarget.trimmed]
  · intro hend
    obtain ⟨blank, helement, hblank⟩ := exists_trimAsciiEnd_append element
    rw [hend] at helement
    rw [helement, List.append_assoc, List.drop_left, htail.trimAsciiStart_append, hblank, List.nil_append]
    exact ⟨List.prefix_append _ _, htail⟩

/-- The next tag does not depend on the rest of the present element. -/
lemma nextTag_append (hcomma : byte ',' ∉ element) (tail : Bytes) : nextTag (element ++ tail) = nextTag tail := by
  rw [nextTag, List.dropWhile_append_of_pos fun b hb => by simpa using ne_of_mem_of_not_mem hb hcomma]
  rfl

lemma nextTag_comma_eq_some_iff {next : Bytes} :
    nextTag (byte ',' :: rest) = some next ↔
      ∃ b tail, rest.dropWhile isDelimiter = b :: tail ∧ next = stripWeakPrefix (b :: tail) := by
  rw [nextTag, List.dropWhile_cons_of_neg (by simp), List.dropWhile_cons_of_pos (by decide)]
  cases rest.dropWhile isDelimiter with
  | nil => simp
  | cons b tail => simp [eq_comm]

lemma length_le_of_nextTag {next : Bytes} (h : nextTag (byte ',' :: rest) = some next) :
    next.length ≤ rest.length := by
  obtain ⟨b, tail, hrest, rfl⟩ := nextTag_comma_eq_some_iff.mp h
  calc (stripWeakPrefix (b :: tail)).length ≤ (b :: tail).length := length_stripWeakPrefix_le _
    _ ≤ rest.length := hrest ▸ (List.dropWhile_sublist _).length_le

/-- Too little is left for the tag, and later less. -/
lemma searchTag_of_short {remaining : Bytes} (h : remaining.length < target.length) (rounds : ℕ) :
    searchTag target rounds remaining = false := by
  cases rounds with
  | zero => rfl
  | succ rounds => rw [searchTag, if_pos h]

/-- One round: the first element is the tag, or the search goes on behind it. -/
lemma searchTag_succ (htarget : Searchable target) (hcomma : byte ',' ∉ element) (htail : EndsElement tail)
    (rounds : ℕ) (hlong : target.length ≤ (element ++ tail).length) :
    searchTag target (rounds + 1) (element ++ tail) = true ↔
      trimAsciiEnd element = target ∨ ∃ next, nextTag tail = some next ∧ searchTag target rounds next = true := by
  have hnext : ∀ remaining, nextTag remaining = nextTag tail →
      ((match nextTag remaining with
        | none => false
        | some next => searchTag target rounds next) = true ↔
        ∃ next, nextTag tail = some next ∧ searchTag target rounds next = true) := by
    intro remaining hsame
    rw [hsame]
    cases nextTag tail <;> simp
  have hfound := found_iff htarget hcomma htail
  rw [searchTag, if_neg (Nat.not_lt.mpr hlong)]
  dsimp only
  by_cases htag : (element ++ tail).take target.length = target
  · rw [if_pos htag]
    split_ifs with hend
    · simp [hfound.mp hend]
    · rw [or_iff_right (mt hfound.mpr hend)]
      obtain ⟨more, rfl⟩ := htail.prefix_of_prefix htarget.comma (List.prefix_iff_eq_take.mpr htag.symm)
      apply hnext
      rw [List.append_assoc, List.drop_left, htail.trimAsciiStart_append]
      refine nextTag_append (fun hmem => hcomma ?_) tail
      exact List.mem_append_right _ ((List.dropWhile_sublist _).subset hmem)
  · rw [if_neg htag, if_neg fun hand => htag hand.1, hnext _ (nextTag_append hcomma tail),
      or_iff_right fun hend => htag (hfound.mpr hend).1]

/-- With a round for each byte the search finds the tag if the list has it. -/
lemma searchTag_iff (htarget : Searchable target) (rounds : ℕ) (remaining : Bytes)
    (hrounds : remaining.length < rounds) :
    searchTag target rounds remaining = true ↔ target ∈ tagsFrom remaining := by
  induction rounds generalizing remaining with
  | zero => cases hrounds
  | succ rounds ih =>
    rcases comma_cases remaining with hcomma | ⟨element, rest, rfl, hcomma⟩
    · have htags : tagsFrom remaining = [trimAsciiEnd remaining] := by
        rw [tagsFrom, List.splitOn_eq_singleton hcomma]
        rfl
      rw [htags, List.mem_singleton]
      rcases Nat.lt_or_ge remaining.length target.length with hshort | hlong
      · rw [searchTag_of_short hshort]
        refine iff_of_false Bool.false_ne_true ?_
        rintro rfl
        exact absurd (trimAsciiEnd_isPrefix remaining).length_le (Nat.not_le.mpr hshort)
      · have hround := searchTag_succ htarget hcomma (.inl rfl : EndsElement []) rounds (by simpa using hlong)
        rw [List.append_nil] at hround
        rw [hround, show nextTag [] = none from rfl]
        simp only [reduceCtorEq, false_and, exists_false, or_false]
        exact eq_comm
    · have htags : tagsFrom (element ++ byte ',' :: rest) =
          trimAsciiEnd element :: (rest.splitOn (byte ',')).map elementTag := by
        rw [tagsFrom, List.splitOn_append_cons_self_of_not_mem hcomma]
      have hrest : target ∈ (rest.splitOn (byte ',')).map elementTag ↔
          ∃ next, nextTag (byte ',' :: rest) = some next ∧ searchTag target rounds next = true := by
        rw [mem_map_elementTag_iff htarget.nonempty]
        simp only [List.length_append, List.length_cons] at hrounds
        constructor
        · rintro ⟨b, tail, hdrop, hmem⟩
          have hnext := nextTag_comma_eq_some_iff.mpr ⟨b, tail, hdrop, rfl⟩
          exact ⟨_, hnext, (ih _ (by have := length_le_of_nextTag hnext; omega)).mpr hmem⟩
        · rintro ⟨next, hnext, hfound⟩
          rw [ih next (by have := length_le_of_nextTag hnext; omega)] at hfound
          obtain ⟨b, tail, hdrop, rfl⟩ := nextTag_comma_eq_some_iff.mp hnext
          exact ⟨b, tail, hdrop, hfound⟩
      rw [htags, List.mem_cons, hrest]
      rcases Nat.lt_or_ge (element ++ byte ',' :: rest).length target.length with hshort | hlong
      · rw [searchTag_of_short hshort]
        rw [List.length_append, List.length_cons] at hshort
        refine iff_of_false Bool.false_ne_true ?_
        rintro (rfl | ⟨next, hnext, hfound⟩)
        · have := (trimAsciiEnd_isPrefix element).length_le
          omega
        · rw [searchTag_of_short (by have := length_le_of_nextTag hnext; omega)] at hfound
          cases hfound
      · rw [searchTag_succ htarget hcomma (.inr rfl) rounds hlong, eq_comm]

/-- The tag is found if the list is a star or offers it. -/
lemma weakValidateEtag_iff {header etag : Bytes} (htarget : Searchable (stripWeakPrefix etag)) :
    weakValidateEtag header etag = true ↔ header = ascii "*" ∨ stripWeakPrefix etag ∈ offeredTags header := by
  have hsearch := searchTag_iff htarget (header.length + 1) (stripWeakPrefix header)
    (Nat.lt_succ_of_le (length_stripWeakPrefix_le header))
  rw [weakValidateEtag]
  split_ifs with hstar
  · simp [hstar]
  · rw [hsearch, or_iff_right hstar, offeredTags]

/-! ### The tags of files -/

/-- The digit of a hexadecimal byte. -/
def hexValue (b : UInt8) : ℕ := if b < 58 then b.toNat - 48 else b.toNat - 87

lemma mem_hexText {b : UInt8} {n : ℕ} (h : b ∈ hexText n) : ∃ d < 16, b = hexDigit d := by
  unfold hexText at h
  split_ifs at h
  · exact ⟨0, by decide, List.mem_singleton.mp h⟩
  · obtain ⟨d, hd, rfl⟩ := List.mem_map.mp (List.mem_reverse.mp h)
    exact ⟨d, Nat.digits_lt_base (by decide) hd, rfl⟩

lemma notMem_hexText {b : UInt8} (h : ∀ d < 16, hexDigit d ≠ b) (n : ℕ) : b ∉ hexText n := by
  intro hmem
  obtain ⟨d, hd, rfl⟩ := mem_hexText hmem
  exact h d hd rfl

lemma hexText_injective : Function.Injective hexText := by
  have hvalue : ∀ n, Nat.ofDigits 16 ((hexText n).reverse.map hexValue) = n := by
    intro n
    have hdigit : ∀ d < 16, hexValue (hexDigit d) = d := by decide
    unfold hexText
    split_ifs with hn
    · rw [hn]
      decide
    · rw [List.reverse_reverse, List.map_map, List.map_congr_left (g := id), List.map_id, Nat.ofDigits_digits]
      intro d hd
      exact hdigit d (Nat.digits_lt_base (by decide) hd)
  intro m n h
  rw [← hvalue m, h, hvalue]

lemma opaqueTag_inj {length nanos length' nanos' : ℕ} (h : opaqueTag length nanos = opaqueTag length' nanos') :
    length = length' ∧ nanos = nanos' := by
  have hdash : ∀ n, byte '-' ∉ hexText n := notMem_hexText (by decide)
  have hsplit : ∀ length nanos, (opaqueTag length nanos).splitOn (byte '-') =
      [byte '"' :: hexText length, hexText nanos ++ [byte '"']] := by
    intro length nanos
    have hshape : opaqueTag length nanos =
        (byte '"' :: hexText length) ++ byte '-' :: (hexText nanos ++ [byte '"']) := by
      simp [opaqueTag]
    rw [hshape, List.splitOn_append_cons_self_of_not_mem, List.splitOn_eq_singleton]
    · simp only [List.mem_append, hdash, List.mem_singleton, false_or]
      decide
    · simp only [List.mem_cons, hdash, or_false]
      decide
  have hparts := congrArg (List.splitOn (byte '-')) h
  rw [hsplit, hsplit] at hparts
  obtain ⟨hlength, hnanos⟩ := List.cons.inj hparts
  refine ⟨hexText_injective (List.cons.inj hlength).2, hexText_injective ?_⟩
  exact List.append_cancel_right (List.cons.inj hnanos).1

lemma searchable_opaqueTag (length nanos : ℕ) : Searchable (opaqueTag length nanos) := by
  have hcomma : ∀ n, byte ',' ∉ hexText n := notMem_hexText (by decide)
  refine ⟨List.cons_ne_nil _ _, ?_, ?_⟩
  · simp only [opaqueTag, List.mem_append, List.mem_cons, hcomma, List.not_mem_nil]
    decide
  · rw [trimAsciiEnd, opaqueTag]
    exact List.rdropWhile_concat_neg _ _ _ (by decide)

lemma stripWeakPrefix_etagText (length nanos : ℕ) :
    stripWeakPrefix (etagText length nanos) = opaqueTag length nanos := stripWeakPrefix_append _

lemma offeredTags_etagText (length nanos : ℕ) :
    offeredTags (etagText length nanos) = [opaqueTag length nanos] := by
  have htag := searchable_opaqueTag length nanos
  rw [offeredTags, stripWeakPrefix_etagText, tagsFrom, List.splitOn_eq_singleton htag.comma]
  exact congrArg (fun tag => [tag]) htag.trimmed

lemma ifNoneMatchMatches_iff (headers : HeaderMap) (length nanos : ℕ) :
    ifNoneMatchMatches headers (etagText length nanos) = true ↔
      ∃ value ∈ MultiMap.getAll headers (ascii "if-none-match"),
        value = ascii "*" ∨ opaqueTag length nanos ∈ offeredTags value := by
  have hsearchable : Searchable (stripWeakPrefix (etagText length nanos)) := by
    rw [stripWeakPrefix_etagText]
    exact searchable_opaqueTag length nanos
  simp only [ifNoneMatchMatches, List.any_eq_true, weakValidateEtag_iff hsearchable, stripWeakPrefix_etagText]

lemma opaqueTag_mem_offeredTags_etagText {length nanos length' nanos' : ℕ} :
    opaqueTag length nanos ∈ offeredTags (etagText length' nanos') ↔ length = length' ∧ nanos = nanos' := by
  rw [offeredTags_etagText, List.mem_singleton]
  constructor
  · exact opaqueTag_inj
  · rintro ⟨rfl, rfl⟩
    rfl

end Pingola
