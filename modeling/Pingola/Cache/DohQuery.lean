import Pingola.Cache.Dns
import Pingola.Lib.Base64Url
import Pingola.Lib.CaseFold

/-!
# DNS queries in URLs

`decode_base64url` against the encoding of RFC 4648, and `parse_doh_query` for queries that carry it.
-/

namespace Pingola
open ByteText

/-! ### The decoder -/

/-- The values of the accumulator in the loop of `decode_base64url` right after its shift, before they are
cut to 32 bits. -/
def shiftedBuffers : Bytes → ℕ → ℕ → List ℕ
  | [], _, _ => []
  | ch :: input, buffer, bits =>
    if ch = byte '=' then shiftedBuffers input buffer bits
    else
      match base64urlValue ch with
      | none => []
      | some value =>
        let shifted := buffer * 2 ^ 6
        let buffer := shifted % 2 ^ 32 ||| value
        let bits := bits + 6
        shifted ::
          if 8 ≤ bits then shiftedBuffers input (buffer &&& (2 ^ (bits - 8) - 1)) (bits - 8)
          else shiftedBuffers input buffer bits

lemma base64urlValue_lt {ch : UInt8} {value : ℕ} (h : base64urlValue ch = some value) : value < 2 ^ 6 := by
  have hall : ∀ n < 256, ((base64urlValue (UInt8.ofNat n)).all fun value => value < 2 ^ 6) = true := by
    decide +kernel
  have hch := hall ch.toNat ch.toNat_lt
  rw [UInt8.ofNat_toNat, h] at hch
  exact of_decide_eq_true hch

lemma base64urlValue_char {value : ℕ} (h : value < 2 ^ 6) :
    base64urlValue (Base64Url.char value) = some value ∧ Base64Url.char value ≠ byte '=' := by
  have hall : ∀ value < 2 ^ 6, base64urlValue (Base64Url.char value) = some value ∧
      Base64Url.char value ≠ byte '=' := by decide +kernel
  exact hall value h

/-- The shift keeps all bits of a small accumulator, and the value takes the place of its low bits. -/
lemma shift_or {buffer value : ℕ} (hbuffer : buffer < 2 ^ 26) (hvalue : value < 2 ^ 6) :
    buffer * 2 ^ 6 % 2 ^ 32 ||| value = buffer * 2 ^ 6 + value := by
  rw [Nat.mod_eq_of_lt (by omega), Nat.mul_comm, Nat.two_pow_add_eq_or_of_lt hvalue]

/-- The accumulator holds the bits that are not yet in the output, which are fewer than eight. -/
lemma shiftedBuffers_lt (input : Bytes) {buffer bits : ℕ} (hbuffer : buffer < 2 ^ bits) (hbits : bits < 8) :
    ∀ shifted ∈ shiftedBuffers input buffer bits, shifted < 2 ^ 32 := by
  induction input generalizing buffer bits with
  | nil => exact fun _ h => absurd h List.not_mem_nil
  | cons ch input ih =>
    rw [shiftedBuffers]
    split_ifs with hpad
    · exact ih hbuffer hbits
    · cases hvalue : base64urlValue ch with
      | none => exact fun _ h => absurd h List.not_mem_nil
      | some value =>
        have hlt := base64urlValue_lt hvalue
        have hsmall : buffer < 2 ^ 8 := hbuffer.trans (Nat.pow_lt_pow_right (by decide) hbits)
        dsimp only
        rw [shift_or (by omega) hlt, List.forall_mem_cons]
        refine ⟨by omega, ?_⟩
        split_ifs with hbyte
        · refine ih ?_ (by omega)
          rw [Nat.and_two_pow_sub_one_eq_mod]
          exact Nat.mod_lt _ (Nat.two_pow_pos _)
        · refine ih ?_ (by omega)
          rw [Nat.pow_add]
          have hmul : buffer * 2 ^ 6 + 2 ^ 6 ≤ 2 ^ bits * 2 ^ 6 := by
            rw [← Nat.succ_mul]
            exact Nat.mul_le_mul_right _ hbuffer
          omega

section

variable {value buffer bits : ℕ} (input output : Bytes)

/-- A character that completes a byte. -/
lemma decodeLoop_char_of_le (hvalue : value < 2 ^ 6) (hbuffer : buffer < 2 ^ 26) (hbits : 2 ≤ bits) :
    decodeLoop (Base64Url.char value :: input) buffer bits output =
      decodeLoop input ((buffer * 2 ^ 6 + value) % 2 ^ (bits - 2)) (bits - 2)
        (output ++ [((buffer * 2 ^ 6 + value) / 2 ^ (bits - 2)).toUInt8]) := by
  obtain ⟨hchar, hpad⟩ := base64urlValue_char hvalue
  have hrest : bits + 6 - 8 = bits - 2 := by omega
  rw [decodeLoop, if_neg hpad, hchar, Option.bind_eq_bind, Option.bind_some]
  dsimp only
  rw [shift_or hbuffer hvalue, if_pos (by omega), hrest, Nat.and_two_pow_sub_one_eq_mod]

lemma decodeLoop_char_of_lt (hvalue : value < 2 ^ 6) (hbuffer : buffer < 2 ^ 26) (hbits : bits < 2) :
    decodeLoop (Base64Url.char value :: input) buffer bits output =
      decodeLoop input (buffer * 2 ^ 6 + value) (bits + 6) output := by
  obtain ⟨hchar, hpad⟩ := base64urlValue_char hvalue
  rw [decodeLoop, if_neg hpad, hchar, Option.bind_eq_bind, Option.bind_some]
  dsimp only
  rw [shift_or hbuffer hvalue, if_neg (by omega)]

end

/-- Padding is skipped wherever it stands. -/
lemma decodeLoop_padding (input : Bytes) (buffer bits : ℕ) (output : Bytes) :
    decodeLoop (byte '=' :: input) buffer bits output = decodeLoop input buffer bits output := by
  rw [decodeLoop, if_pos rfl]

lemma toUInt8_eq {n : ℕ} {b : UInt8} (h : n = b.toNat) : n.toUInt8 = b := by
  rw [h]
  exact UInt8.ofNat_toNat

/-- The first two characters of a group give its first byte and leave the high half of the second. -/
lemma decodeLoop_first (a : UInt8) {low : ℕ} (hlow : low < 16) (input output : Bytes) :
    decodeLoop (Base64Url.char (a.toNat / 4) :: Base64Url.char (a.toNat % 4 * 16 + low) :: input) 0 0 output =
      decodeLoop input low 4 (output ++ [a]) := by
  have ha := a.toNat_lt
  rw [decodeLoop_char_of_lt _ _ (by omega) (by omega) (by omega),
    decodeLoop_char_of_le _ _ (by omega) (by omega) (by omega), toUInt8_eq (b := a) (by omega)]
  congr 1
  omega

/-- The third character gives the second byte and leaves the high bits of the third. -/
lemma decodeLoop_second (b : UInt8) {low : ℕ} (hlow : low < 4) (input output : Bytes) :
    decodeLoop (Base64Url.char (b.toNat % 16 * 4 + low) :: input) (b.toNat / 16) 4 output =
      decodeLoop input low 2 (output ++ [b]) := by
  have hb := b.toNat_lt
  rw [decodeLoop_char_of_le _ _ (by omega) (by omega) (by omega), toUInt8_eq (b := b) (by omega)]
  congr 1
  omega

lemma decodeLoop_third (c : UInt8) (input output : Bytes) :
    decodeLoop (Base64Url.char (c.toNat % 64) :: input) (c.toNat / 64) 2 output =
      decodeLoop input 0 0 (output ++ [c]) := by
  have hc := c.toNat_lt
  rw [decodeLoop_char_of_le _ _ (by omega) (by omega) (by omega), toUInt8_eq (b := c) (by omega)]
  congr 1
  omega

lemma decodeLoop_encode (padded : Bool) (bytes output : Bytes) :
    decodeLoop (Base64Url.encode padded bytes) 0 0 output = some (output ++ bytes) := by
  induction bytes using Base64Url.encode.induct generalizing output with
  | case1 a b c rest ih =>
    have hb := b.toNat_lt
    have hc := c.toNat_lt
    rw [Base64Url.encode, decodeLoop_first a (by omega), decodeLoop_second b (by omega), decodeLoop_third c, ih]
    simp
  | case2 a b =>
    have hb := b.toNat_lt
    rw [Base64Url.encode, decodeLoop_first a (by omega), ← Nat.add_zero (b.toNat % 16 * 4),
      decodeLoop_second b (by decide)]
    cases padded <;> simp [decodeLoop_padding, decodeLoop]
  | case3 a =>
    rw [Base64Url.encode, ← Nat.add_zero (a.toNat % 4 * 16), decodeLoop_first a (by decide)]
    cases padded <;> simp [decodeLoop_padding, decodeLoop]
  | case4 => simp [Base64Url.encode, decodeLoop]

/-! ### Query strings -/

/-- The text of the parameters of a query. -/
def queryText (parameters : List (Bytes × Bytes)) : Bytes :=
  [byte '&'].intercalate (parameters.map fun p => p.1 ++ byte '=' :: p.2)

/-- A name and a value that the text of a query keeps apart from the rest of the URL. -/
def IsParameter (p : Bytes × Bytes) : Prop :=
  byte '=' ∉ p.1 ∧ byte '&' ∉ p.1 ∧ byte '?' ∉ p.1 ∧ byte '&' ∉ p.2 ∧ byte '?' ∉ p.2

instance instDecidableIsParameter (p : Bytes × Bytes) : Decidable (IsParameter p) :=
  inferInstanceAs (Decidable (_ ∧ _))

section

variable {p : Bytes × Bytes} {parameters before after : List (Bytes × Bytes)} {value : Bytes}

lemma IsParameter.notMem (h : IsParameter p) : byte '&' ∉ p.1 ++ byte '=' :: p.2 := by
  have hne : byte '&' ≠ byte '=' := by decide
  simp [hne, h.2.1, h.2.2.2.1]

lemma notMem_queryText (h : ∀ p ∈ parameters, IsParameter p) : byte '?' ∉ queryText parameters := by
  have hne : byte '?' ≠ byte '=' ∧ byte '?' ≠ byte '&' := by decide
  rw [queryText]
  induction parameters with
  | nil => exact List.not_mem_nil
  | cons p parameters ih =>
    have hp := h p List.mem_cons_self
    have hrest := ih fun q hq => h q (List.mem_cons_of_mem _ hq)
    cases parameters with
    | nil => simp [hne.1, hp.2.2.1, hp.2.2.2.2]
    | cons q parameters =>
      rw [List.map_cons] at hrest
      rw [List.map_cons, List.map_cons, List.intercalate_cons_cons]
      simp [hne, hp.2.2.1, hp.2.2.2.2, hrest]

/-- The loop stops at the first parameter with the name. -/
lemma findDnsPair_append (hbefore : ∀ p ∈ before, IsParameter p ∧ p.1 ≠ ascii "dns") :
    findDnsPair ((before ++ (ascii "dns", value) :: after).map fun p => p.1 ++ byte '=' :: p.2) =
      decodeBase64url value := by
  induction before with
  | nil =>
    have hsplit : splitOnce (byte '=') (ascii "dns" ++ byte '=' :: value) = some (ascii "dns", value) :=
      splitOnce_eq_some_iff.mpr ⟨rfl, by decide⟩
    rw [List.nil_append, List.map_cons, findDnsPair, hsplit, Option.bind_eq_bind, Option.bind_some]
    exact if_pos rfl
  | cons p before ih =>
    obtain ⟨hp, hname⟩ := hbefore p List.mem_cons_self
    have hsplit : splitOnce (byte '=') (p.1 ++ byte '=' :: p.2) = some (p.1, p.2) :=
      splitOnce_eq_some_iff.mpr ⟨rfl, hp.1⟩
    rw [List.cons_append, List.map_cons, findDnsPair, hsplit, Option.bind_eq_bind, Option.bind_some]
    dsimp only
    rw [if_neg hname]
    exact ih fun q hq => hbefore q (List.mem_cons_of_mem _ hq)

/-- A query with only such parameters is parsed as its first parameter named `dns`. -/
lemma parseDohQuery_queryText {method resource : Bytes} (body : Bytes)
    (hmethod : eqIgnoreAsciiCase method (ascii "GET") = true) (hresource : byte '?' ∉ resource)
    (hparameters : ∀ p ∈ before ++ (ascii "dns", value) :: after, IsParameter p)
    (hbefore : ∀ p ∈ before, p.1 ≠ ascii "dns") :
    parseDohQuery method (resource ++ byte '?' :: queryText (before ++ (ascii "dns", value) :: after)) body =
      decodeBase64url value := by
  have hpairs : (queryText (before ++ (ascii "dns", value) :: after)).splitOn (byte '&') =
      (before ++ (ascii "dns", value) :: after).map fun p => p.1 ++ byte '=' :: p.2 := by
    refine List.splitOn_intercalate _ ?_ ?_
    · intro text htext
      obtain ⟨p, hp, rfl⟩ := List.mem_map.mp htext
      exact (hparameters p hp).notMem
    · simp
  rw [parseDohQuery, if_pos hmethod, List.splitOn_append_cons_self, List.splitOn_eq_singleton hresource,
    List.splitOn_eq_singleton (notMem_queryText hparameters)]
  change findDnsPair ((queryText _).splitOn (byte '&')) = _
  rw [hpairs]
  exact findDnsPair_append fun p hp => ⟨hparameters p (List.mem_append_left _ hp), hbefore p hp⟩

end

/-- Decoding undoes the encoding, padded or not, without losing a bit of the accumulator, and a query whose
first parameter named `dns` has an encoding for its value is parsed as what was encoded. -/
theorem decode_encode_base64url (bytes : Bytes) (padded : Bool) :
    decodeBase64url (Base64Url.encode padded bytes) = some bytes ∧
      (∀ shifted ∈ shiftedBuffers (Base64Url.encode padded bytes) 0 0, shifted < 2 ^ 32) ∧
      ∀ method resource body before after, eqIgnoreAsciiCase method (ascii "GET") = true →
        byte '?' ∉ resource → (∀ p ∈ before ++ after, IsParameter p) → (∀ p ∈ before, p.1 ≠ ascii "dns") →
        parseDohQuery method (resource ++ byte '?' ::
          queryText (before ++ (ascii "dns", Base64Url.encode padded bytes) :: after)) body = some bytes := by
  have hdecode : decodeBase64url (Base64Url.encode padded bytes) = some bytes := decodeLoop_encode padded bytes []
  refine ⟨hdecode, shiftedBuffers_lt _ (by decide) (by decide), ?_⟩
  intro method resource body before after hmethod hresource hparameters hbefore
  refine (parseDohQuery_queryText body hmethod hresource ?_ hbefore).trans hdecode
  have hvalue : ∀ x, x ∉ Base64Url.alphabet → x ≠ byte '=' → x ∉ Base64Url.encode padded bytes :=
    fun x halphabet hpad hx => (Base64Url.mem_of_mem_encode hx).elim halphabet hpad
  have hname : byte '=' ∉ ascii "dns" ∧ byte '&' ∉ ascii "dns" ∧ byte '?' ∉ ascii "dns" := by decide
  intro p hp
  rcases List.mem_append.mp hp with hp | hp
  · exact hparameters p (List.mem_append_left _ hp)
  · rcases List.mem_cons.mp hp with rfl | hp
    · exact ⟨hname.1, hname.2.1, hname.2.2, hvalue _ (by decide) (by decide), hvalue _ (by decide) (by decide)⟩
    · exact hparameters p (List.mem_append_right _ hp)

/-- Two bytes as the second parameter of a query. -/
theorem decode_encode_second_parameter :
    parseDohQuery (ascii "get") (ascii "/dns-query?ct=&dns=_-8=&dns=AA") [] = some [0xFF, 0xEF] := by
  refine (decode_encode_base64url [0xFF, 0xEF] true).2.2 (ascii "get") (ascii "/dns-query") []
    [(ascii "ct", [])] [(ascii "dns", ascii "AA")] (by decide) (by decide) ?_ ?_
  · decide
  · decide

end Pingola
