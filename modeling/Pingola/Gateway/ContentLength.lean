import Pingola.Gateway.RequestFilter
import Pingola.Lib.CaseFold

/-!
# Content-Length

`normalize_request_content_length` and `normalize_response_content_length` of `gateway.rs`, which leave at
most one `Content-Length` and never one next to `Transfer-Encoding`. Numbers are those of a 64-bit machine.
-/

namespace Pingola
open ByteText

/-- An error with its status, an error of the header crate, or a panic. -/
inductive HeaderError where
  | status (code : ℕ) (message : Bytes)
  | invalidHttpHeader (message : Bytes)
  | panics
  deriving DecidableEq

def contentLengthName : Bytes := ascii "content-length"

def transferEncodingName : Bytes := ascii "transfer-encoding"

/-- `HeaderMap::contains_key`. -/
def HeaderMap.containsKey (headers : HeaderMap) (name : Bytes) : Bool := !(MultiMap.getAll headers name).isEmpty

def alreadyCanonical (headers : HeaderMap) : Bool :=
  match MultiMap.getAll headers contentLengthName with
  | [] => false
  | value :: values => !value.isEmpty && value.all isAsciiDigit && values.isEmpty

/-- `insert_header` with a text for the value. -/
def HeaderMap.insertHeader (C : HttpCrate) (headers : HeaderMap) (name value : Bytes) :
    Except HeaderError HeaderMap :=
  match C.headerValueFromStr value with
  | some value => .ok (MultiMap.insert headers name value)
  | none => .error (.invalidHttpHeader (ascii "invalid value while insert"))

/-- The common body of the two functions; the text is formatted into an `ArrayString` of 39 bytes. -/
def normalizeContentLength (C : HttpCrate) (headers : HeaderMap) (invalidStatus : ℕ) : Except HeaderError HeaderMap :=
  match validatedContentLength headers with
  | none => .error (.status invalidStatus (ascii "invalid or conflicting Content-Length fields"))
  | some length =>
    if headers.containsKey transferEncodingName && length.isSome then
      .error (.status invalidStatus (ascii "message contains both Transfer-Encoding and Content-Length"))
    else
      match length with
      | none => .ok headers
      | some length =>
        if alreadyCanonical headers then .ok headers
        else if 39 < (natText length).length then
          .error (.status invalidStatus (ascii "validated Content-Length could not be formatted"))
        else HeaderMap.insertHeader C (MultiMap.remove headers contentLengthName) contentLengthName (natText length)

def normalizeRequestContentLength (C : HttpCrate) (request : RequestHeader) (invalidStatus : ℕ) :
    Except HeaderError RequestHeader :=
  (normalizeContentLength C request.headers invalidStatus).map fun headers => { request with headers := headers }

def normalizeResponseContentLength (C : HttpCrate) (response : ResponseHeader) (invalidStatus : ℕ) :
    Except HeaderError ResponseHeader :=
  (normalizeContentLength C response.headers invalidStatus).map fun headers => { response with headers := headers }

/-! ### Decimal texts -/

/-- A text of digits, with its number. -/
structure DecimalText (text : Bytes) (n : ℕ) : Prop where
  nonempty : text ≠ []
  digits : text.all isAsciiDigit = true
  value : decimal text = n

lemma ascii_append (s t : String) : ascii (s ++ t) = ascii s ++ ascii t := by
  simp [ascii]

lemma natText_decimalText (n : ℕ) : DecimalText (natText n) n := by
  have hdigit : ∀ d < 10, DecimalText (ascii (String.singleton d.digitChar)) d := by
    intro d hd
    have hall : ∀ d < 10, ascii (String.singleton d.digitChar) ≠ [] ∧
        (ascii (String.singleton d.digitChar)).all isAsciiDigit = true ∧
        decimal (ascii (String.singleton d.digitChar)) = d := by decide
    exact ⟨(hall d hd).1, (hall d hd).2.1, (hall d hd).2.2⟩
  induction n using Nat.strong_induction_on with
  | _ n ih =>
    rw [natText, Nat.toString_eq_repr]
    by_cases hn : n < 10
    · rw [Nat.repr_of_lt hn]
      exact hdigit n hn
    · have hrest := ih (n / 10) (by omega)
      have hlast := hdigit (n % 10) (by omega)
      rw [natText, Nat.toString_eq_repr] at hrest
      rw [Nat.repr_of_ge (by omega), ascii_append]
      obtain ⟨b, hb⟩ : ∃ b, ascii (String.singleton (n % 10).digitChar) = [b] := ⟨_, by simp [ascii]; rfl⟩
      rw [hb] at hlast ⊢
      refine ⟨by simp, ?_, ?_⟩
      · rw [List.all_append, hrest.digits, hlast.digits]
        rfl
      · have hvalue := hlast.value
        simp only [decimal, List.foldl_cons, List.foldl_nil] at hvalue
        rw [decimal_append_singleton, hrest.value]
        omega

lemma length_natText_le {n k : ℕ} (hk : 0 < k) (h : n < 10 ^ k) : (natText n).length ≤ k := by
  have hlen := Nat.repr_length n k hk h
  rw [natText, ascii, List.length_map, Nat.toString_eq_repr, String.length_toList]
  exact hlen

lemma isAsciiDigit_ne {b c : UInt8} (h : isAsciiDigit b = true) (hc : isAsciiDigit c = false) : b ≠ c := by
  rintro rfl
  rw [h] at hc
  cases hc

lemma DecimalText.notMem {text : Bytes} {n : ℕ} (h : DecimalText text n) {c : UInt8} (hc : isAsciiDigit c = false) :
    c ∉ text := fun hmem => isAsciiDigit_ne (List.all_eq_true.mp h.digits c hmem) hc rfl

lemma DecimalText.parseUnsigned {text : Bytes} {n limit : ℕ} (h : DecimalText text n) :
    parseUnsigned limit text = if limit ≤ n then none else some n := by
  rw [parseUnsigned_of_digits h.nonempty h.digits, h.value]

lemma DecimalText.trimAscii_eq {text : Bytes} {n : ℕ} (h : DecimalText text n) : trimAscii text = text := by
  have hspace : ∀ b ∈ text, ¬isAsciiWhitespace b = true := by
    intro b hb hwhite
    have hall : ∀ w ∈ ([0x09, 0x0A, 0x0C, 0x0D, 0x20] : List UInt8), isAsciiDigit w = false := by decide +kernel
    have hmem : b ∈ ([0x09, 0x0A, 0x0C, 0x0D, 0x20] : List UInt8) := List.contains_iff_mem.mp hwhite
    exact h.notMem (hall b hmem) hb
  obtain ⟨b, rest, hcons⟩ := List.exists_cons_of_ne_nil h.nonempty
  have hstart : trimAsciiStart text = text := by
    rw [trimAsciiStart, hcons, List.dropWhile_cons_of_neg (hspace b (hcons ▸ List.mem_cons_self))]
  rw [trimAscii, hstart, List.rdropWhile_eq_self_iff]
  intro hne
  exact hspace _ (List.getLast_mem hne)

/-! ### The validation -/

lemma mapM_headerValueToStr {values texts : List Bytes} (h : values.mapM headerValueToStr = some texts) :
    texts = values := by
  induction values generalizing texts with
  | nil => exact (Option.some.inj h).symm
  | cons value values ih =>
    simp only [List.mapM_cons, Option.bind_eq_bind, Option.bind_eq_some_iff] at h
    obtain ⟨text, htext, rest, hrest, h⟩ := h
    obtain rfl := Option.some.inj h
    rw [headerValueToStr_eq_some htext, ih hrest]

/-- The loop over the tokens accepts them if they all are texts of one number, which is the expected one if
there is one. -/
lemma contentLengthTokens_eq_some {expected length : Option ℕ} {tokens : List Bytes}
    (h : contentLengthTokens expected tokens = some length) :
    (∀ n, expected = some n → length = some n) ∧ (tokens = [] → length = expected) ∧
      ∀ token ∈ tokens, ∃ n < 2 ^ 64, length = some n ∧ DecimalText (trimAscii token) n := by
  induction tokens generalizing expected with
  | nil =>
    obtain rfl := Option.some.inj h
    exact ⟨fun n hn => hn, fun _ => rfl, by simp⟩
  | cons token tokens ih =>
    simp only [contentLengthTokens] at h
    split at h
    · cases h
    · rename_i hdigits
      have htext : DecimalText (trimAscii token) (decimal (trimAscii token)) := by
        simp only [Bool.or_eq_true, List.isEmpty_iff, Bool.not_eq_true', not_or, Bool.not_eq_false] at hdigits
        exact ⟨hdigits.1, hdigits.2, rfl⟩
      rw [htext.parseUnsigned] at h
      split at h
      · cases h
      · rename_i n hn
        split at h
        · cases h
        · rename_i hexpected
          split_ifs at hn with hlimit
          obtain rfl := Option.some.inj hn
          obtain ⟨hlength, -, hrest⟩ := ih h
          have hsame := hlength _ rfl
          refine ⟨fun m hm => ?_, by simp, ?_⟩
          · subst hm
            rw [hsame]
            simpa using (Eq.symm (by simpa using hexpected))
          · intro t ht
            rcases List.mem_cons.mp ht with rfl | ht
            · exact ⟨_, by omega, hsame, htext⟩
            · exact hrest t ht

/-- What a validated length says about the fields: it is the number that every token gives. -/
structure Validated (headers : HeaderMap) (length : Option ℕ) : Prop where
  absent : length = none ↔ MultiMap.getAll headers contentLengthName = []
  tokens : ∀ value ∈ MultiMap.getAll headers contentLengthName, ∀ token ∈ value.splitOn (byte ','),
    ∃ n < 2 ^ 64, length = some n ∧ DecimalText (trimAscii token) n

lemma validated_of_eq_some {headers : HeaderMap} {length : Option ℕ}
    (h : validatedContentLength headers = some length) :
    Validated headers length := by
  simp only [validatedContentLength, Option.bind_eq_bind, Option.bind_eq_some_iff] at h
  obtain ⟨values, hvalues, h⟩ := h
  obtain rfl := mapM_headerValueToStr hvalues
  obtain ⟨-, hnone, htokens⟩ := contentLengthTokens_eq_some h
  have hall : ∀ value ∈ MultiMap.getAll headers contentLengthName, ∀ token ∈ value.splitOn (byte ','),
      ∃ n < 2 ^ 64, length = some n ∧ DecimalText (trimAscii token) n :=
    fun value hvalue token htoken => htokens token (List.mem_flatMap.mpr ⟨value, hvalue, htoken⟩)
  refine ⟨⟨fun hlength => ?_, fun hempty => ?_⟩, hall⟩
  · by_contra hne
    obtain ⟨value, values, hvalues⟩ := List.exists_cons_of_ne_nil hne
    obtain ⟨token, tokens, hsplit⟩ := List.exists_cons_of_ne_nil (List.splitOn_ne_nil (byte ',') value)
    obtain ⟨n, -, hsome, -⟩ := hall value (hvalues ▸ List.mem_cons_self) token (hsplit ▸ List.mem_cons_self)
    rw [hlength] at hsome
    cases hsome
  · exact hnone (by rw [show MultiMap.getAll headers (ascii "content-length") = [] from hempty]; rfl)

lemma Validated.lt {headers : HeaderMap} {n : ℕ} (h : Validated headers (some n)) : n < 2 ^ 64 := by
  have hpresent : MultiMap.getAll headers contentLengthName ≠ [] := by
    intro hempty
    cases h.absent.mpr hempty
  obtain ⟨value, values, hvalues⟩ := List.exists_cons_of_ne_nil hpresent
  obtain ⟨token, tokens, hsplit⟩ := List.exists_cons_of_ne_nil (List.splitOn_ne_nil (byte ',') value)
  obtain ⟨m, hm, hsome, -⟩ := h.tokens value (hvalues ▸ List.mem_cons_self) token (hsplit ▸ List.mem_cons_self)
  obtain rfl := Option.some.inj hsome
  exact hm

/-! ### The normalisation -/

/-- The framing after normalisation: no `Content-Length`, or one that is the number of every token before
and stands without `Transfer-Encoding`; nothing else has changed. -/
structure Normalized (before after : HeaderMap) : Prop where
  others : ∀ name, name ≠ contentLengthName → MultiMap.getAll after name = MultiMap.getAll before name
  length : MultiMap.getAll after contentLengthName = [] ∧ MultiMap.getAll before contentLengthName = [] ∨
    ∃ value n, MultiMap.getAll after contentLengthName = [value] ∧ DecimalText value n ∧
      MultiMap.getAll after transferEncodingName = [] ∧
      MultiMap.getAll before contentLengthName ≠ [] ∧
      ∀ field ∈ MultiMap.getAll before contentLengthName, ∀ token ∈ field.splitOn (byte ','),
        DecimalText (trimAscii token) n

lemma getAll_eq_of_alreadyCanonical {headers : HeaderMap} (h : alreadyCanonical headers = true) :
    ∃ value, MultiMap.getAll headers contentLengthName = [value] ∧ DecimalText value (decimal value) := by
  unfold alreadyCanonical at h
  split at h
  · cases h
  · rename_i value values hvalues
    simp only [Bool.and_eq_true, Bool.not_eq_true', List.isEmpty_iff, List.isEmpty_eq_false_iff] at h
    exact ⟨value, by rw [hvalues, h.2], h.1.1, h.1.2, rfl⟩

/-- How the normalisation succeeds. -/
lemma normalizeContentLength_eq_ok {C : HttpCrate} {headers result : HeaderMap} {status : ℕ}
    (h : normalizeContentLength C headers status = .ok result) :
    ∃ length, validatedContentLength headers = some length ∧
      (length = none ∧ result = headers ∨
        ∃ n, length = some n ∧ MultiMap.getAll headers transferEncodingName = [] ∧
          (alreadyCanonical headers = true ∧ result = headers ∨
            result = MultiMap.insert (MultiMap.remove headers contentLengthName) contentLengthName (natText n))) := by
  unfold normalizeContentLength at h
  split at h
  · cases h
  · rename_i length hlength
    refine ⟨length, hlength, ?_⟩
    split at h
    · cases h
    · rename_i hencoding
      split at h
      · exact .inl ⟨rfl, (Except.ok.inj h).symm⟩
      · rename_i n
        refine .inr ⟨n, rfl, by simpa [HeaderMap.containsKey] using hencoding, ?_⟩
        split at h
        · rename_i hcanonical
          exact .inl ⟨hcanonical, (Except.ok.inj h).symm⟩
        · split at h
          · cases h
          · unfold HeaderMap.insertHeader HttpCrate.headerValueFromStr at h
            split at h
            · rename_i value hvalue
              split_ifs at hvalue
              obtain rfl := Option.some.inj hvalue
              exact .inr (Except.ok.inj h).symm
            · cases h

lemma normalized_of_eq_ok {C : HttpCrate} {headers result : HeaderMap} {status : ℕ}
    (h : normalizeContentLength C headers status = .ok result) : Normalized headers result := by
  obtain ⟨length, hlength, hcases⟩ := normalizeContentLength_eq_ok h
  have hvalid := validated_of_eq_some hlength
  rcases hcases with ⟨rfl, rfl⟩ | ⟨n, rfl, hnone, hcases⟩
  · exact ⟨fun _ _ => rfl, .inl ⟨hvalid.absent.mp rfl, hvalid.absent.mp rfl⟩⟩
  · have hpresent : MultiMap.getAll headers contentLengthName ≠ [] := by
      intro hempty
      cases hvalid.absent.mpr hempty
    have htokens : ∀ field ∈ MultiMap.getAll headers contentLengthName, ∀ token ∈ field.splitOn (byte ','),
        DecimalText (trimAscii token) n := by
      intro field hfield token htoken
      obtain ⟨m, -, hsome, htext⟩ := hvalid.tokens field hfield token htoken
      obtain rfl := Option.some.inj hsome
      exact htext
    rcases hcases with ⟨hcanonical, rfl⟩ | rfl
    · -- a canonical field is its own only token
      obtain ⟨value, hvalue, htext⟩ := getAll_eq_of_alreadyCanonical hcanonical
      have hself := htokens value (hvalue ▸ List.mem_singleton.mpr rfl) value (by
        rw [List.splitOn_eq_singleton (htext.notMem (by decide))]
        exact List.mem_singleton.mpr rfl)
      rw [htext.trimAscii_eq] at hself
      exact ⟨fun _ _ => rfl, .inr ⟨value, n, hvalue, hself, hnone, hpresent, htokens⟩⟩
    · have hothers : ∀ name, name ≠ contentLengthName → MultiMap.getAll
          (MultiMap.insert (MultiMap.remove headers contentLengthName) contentLengthName (natText n)) name =
            MultiMap.getAll headers name := by
        intro name hname
        rw [MultiMap.getAll_insert_of_ne hname, MultiMap.getAll_remove, if_neg hname]
      refine ⟨hothers, .inr ⟨natText n, n, MultiMap.getAll_insert_self _ _ _, natText_decimalText n, ?_, hpresent,
        htokens⟩⟩
      rw [hothers _ (by decide), hnone]

/-- The buffer for the number is large enough, so no failure is one of a buffer. -/
lemma normalizeContentLength_ne_overflow (C : HttpCrate) (headers : HeaderMap) (status : ℕ) :
    normalizeContentLength C headers status ≠ .error .panics ∧ ∀ code,
      normalizeContentLength C headers status ≠
        .error (.status code (ascii "validated Content-Length could not be formatted")) := by
  unfold normalizeContentLength
  split
  · exact ⟨by simp, fun code h => absurd (HeaderError.status.inj (Except.error.inj h)).2 (by decide)⟩
  · rename_i length hlength
    have hvalid := validated_of_eq_some hlength
    split
    · exact ⟨by simp, fun code h => absurd (HeaderError.status.inj (Except.error.inj h)).2 (by decide)⟩
    · split
      · simp
      · rename_i n
        split
        · simp
        · have hlen := length_natText_le (k := 39) (by decide) (hvalid.lt.trans (by decide))
          rw [if_neg (by omega)]
          unfold HeaderMap.insertHeader
          split
          · simp
          · simp

end Pingola
