import Pingola.Http3.WellFormed

/-!
# The two decoding paths

The fast path differs from the slow one only on well-formed lists with a pseudo-header after a
regular field, which it accepts. Both paths keep the last value of a repeated field.
-/

namespace Pingola
open ByteText

variable {C : HttpCrate}

/-- Both accept with the same request, or both refuse. -/
def SameOutcome (x y : Except Bytes RequestHeader) : Prop := x.toOption = y.toOption

instance (x y : Except Bytes RequestHeader) : Decidable (SameOutcome x y) :=
  inferInstanceAs (Decidable (x.toOption = y.toOption))

lemma toOption_eq_some_iff {α ε : Type} {x : Except ε α} {a : α} : x.toOption = some a ↔ x = .ok a := by
  cases x <;> simp [Except.toOption]

/-- A list the fast path refuses is not one the slow path accepts. -/
lemma slow_ne_ok_of_fast_error {headers : List H3Header} {e : Bytes} {r : RequestHeader}
    (h : decodeRequestHeadersFast C headers = some (.error e)) :
    decodeRequestHeadersSlow C headers ≠ .ok r := by
  intro hslow
  obtain ⟨-, m, a, p, hw, rfl⟩ := wellFormed_of_slow hslow
  have hlen : headers.length ≤ 32 := by
    by_contra hlen
    simp [decodeRequestHeadersFast, Nat.lt_of_not_le hlen] at h
  rw [decodeRequestHeadersFast_eq_ok_iff.mpr ⟨hlen, m, a, p, hw, rfl⟩] at h
  simp at h

/-- The fast path agrees with the slow path unless it accepts a list with a pseudo-header after
a regular field. -/
theorem h3_fast_agrees_with_slow_iff (headers : List H3Header) :
    (∀ r, decodeRequestHeadersFast C headers = some r →
      SameOutcome r (decodeRequestHeadersSlow C headers)) ↔
    PseudoFirst headers ∨ 32 < headers.length ∨ ∀ m a p, ¬WellFormed C headers m a p := by
  constructor
  · intro hagree
    by_contra hnot
    simp only [not_or, not_lt, not_forall, not_not] at hnot
    obtain ⟨hord, hlen, m, a, p, hw⟩ := hnot
    have hfast := decodeRequestHeadersFast_eq_ok_iff.mpr ⟨hlen, m, a, p, hw, rfl⟩
    have hslow : (decodeRequestHeadersSlow C headers).toOption = some (requestOf headers m a p) :=
      (hagree _ hfast).symm
    exact hord (wellFormed_of_slow (toOption_eq_some_iff.mp hslow)).1
  · intro hcond r hfast
    unfold SameOutcome
    cases r with
    | ok r =>
      obtain ⟨hlen, m, a, p, hw, rfl⟩ := decodeRequestHeadersFast_eq_ok_iff.mp hfast
      rcases hcond with hord | hlong | hnone
      · rw [hw.slow hord]
      · omega
      · exact absurd hw (hnone m a p)
    | error e =>
      cases hslow : decodeRequestHeadersSlow C headers with
      | error e' => rfl
      | ok r => exact absurd hslow (slow_ne_ok_of_fast_error hfast)

/-- A GET request with the given fields in front of its pseudo-headers and behind them. -/
def exampleHeaders (front behind : List H3Header) : List H3Header :=
  front ++ [⟨pseudoMethod, ascii "GET"⟩, ⟨pseudoScheme, ascii "https"⟩, ⟨pseudoAuthority, ascii "a.example"⟩,
    ⟨pseudoPath, ascii "/"⟩] ++ behind

theorem h3_fast_accepts_late_pseudo_header :
    decodeRequestHeadersFast .reference (exampleHeaders [⟨ascii "accept", ascii "*"⟩] []) =
      some (.ok ⟨ascii "GET", ⟨true, some (ascii "a.example"), ascii "/"⟩, .http2,
        [(ascii "host", ascii "a.example"), (ascii "accept", ascii "*")]⟩) ∧
    decodeRequestHeadersSlow .reference (exampleHeaders [⟨ascii "accept", ascii "*"⟩] []) =
      .error (ascii "HTTP/3 pseudo-header appears after a regular header") := by
  constructor <;> decide +kernel

lemma decodeRequestHeaders_eq_ok {headers : List H3Header} {r : RequestHeader}
    (h : decodeRequestHeaders C headers = .ok r) :
    ∃ m a p, WellFormed C headers m a p ∧ r = requestOf headers m a p := by
  unfold decodeRequestHeaders at h
  split at h
  · rename_i hfast
    rw [h] at hfast
    exact (decodeRequestHeadersFast_eq_ok_iff.mp hfast).2
  · exact (wellFormed_of_slow h).2

lemma getAll_regularFields {headers : List H3Header} {name : Bytes}
    (hp : (ascii ":").isPrefixOf name = false) (hh : name ≠ hostName) :
    MultiMap.getAll (regularFields headers) name = fieldValues headers name := by
  have hkeep : ∀ h : H3Header, (decide (h.name = name) && h.isField) = decide (h.name = name) := by
    intro h
    by_cases hn : h.name = name
    · simp [H3Header.isField, H3Header.isPseudo, hn, hp, hh]
    · simp [hn]
  unfold MultiMap.getAll regularFields fieldValues
  rw [List.filter_map, List.map_map, List.filter_filter]
  simp only [Function.comp_def, hkeep]

/-- What the decoded request holds for a regular field other than `host`: its last value. -/
lemma getAll_requestOf {headers : List H3Header} {m a p name : Bytes}
    (hp : (ascii ":").isPrefixOf name = false) (hh : name ≠ hostName) :
    MultiMap.getAll (requestOf headers m a p).headers name = (fieldValues headers name).getLast?.toList := by
  have hnone : MultiMap.getAll [(hostName, a)] name = [] := by
    simp [MultiMap.getAll, Ne.symm hh]
  rw [requestOf, MultiMap.getAll_insertAll, getAll_regularFields hp hh, hnone]
  cases (fieldValues headers name).getLast? <;> rfl

lemma getLast?_toList_eq_iff {α : Type} (l : List α) : l.getLast?.toList = l ↔ l.length ≤ 1 := by
  match l with
  | [] => simp
  | [a] => simp
  | a :: b :: l =>
    simp only [List.length_cons]
    refine ⟨fun h => ?_, fun h => by omega⟩
    have hlen := congrArg List.length h
    rw [List.getLast?_cons_cons] at hlen
    cases hx : (b :: l).getLast? <;> rw [hx] at hlen <;> simp at hlen

/-- An accepted list keeps all values of a regular field other than `host` exactly when the
field occurs at most once. -/
theorem h3_decode_keeps_field_iff {headers : List H3Header} {r : RequestHeader}
    (h : decodeRequestHeaders C headers = .ok r) :
    ∀ name, (ascii ":").isPrefixOf name = false → name ≠ hostName →
      (MultiMap.getAll r.headers name = fieldValues headers name ↔
        (fieldValues headers name).length ≤ 1) := by
  intro name hp hh
  obtain ⟨m, a, p, -, rfl⟩ := decodeRequestHeaders_eq_ok h
  rw [getAll_requestOf hp hh, getLast?_toList_eq_iff]

theorem h3_decode_keeps_field_single :
    ∃ r, decodeRequestHeaders .reference (exampleHeaders [] [⟨ascii "cookie", ascii "a=1"⟩]) = .ok r ∧
      (MultiMap.getAll r.headers (ascii "cookie") =
        fieldValues (exampleHeaders [] [⟨ascii "cookie", ascii "a=1"⟩]) (ascii "cookie") ↔
        (fieldValues (exampleHeaders [] [⟨ascii "cookie", ascii "a=1"⟩]) (ascii "cookie")).length ≤ 1) := by
  have h : decodeRequestHeaders .reference (exampleHeaders [] [⟨ascii "cookie", ascii "a=1"⟩]) =
      .ok ⟨ascii "GET", ⟨true, some (ascii "a.example"), ascii "/"⟩, .http2,
        [(hostName, ascii "a.example"), (ascii "cookie", ascii "a=1")]⟩ := by decide +kernel
  exact ⟨_, h, h3_decode_keeps_field_iff h _ (by decide) (by decide)⟩

/-- Of two `cookie` fields the request keeps the second. -/
theorem h3_decode_drops_cookie :
    ∃ r, decodeRequestHeaders .reference
        (exampleHeaders [] [⟨ascii "cookie", ascii "a=1"⟩, ⟨ascii "cookie", ascii "b=2"⟩]) = .ok r ∧
      MultiMap.getAll r.headers (ascii "cookie") = [ascii "b=2"] ∧
      fieldValues (exampleHeaders [] [⟨ascii "cookie", ascii "a=1"⟩, ⟨ascii "cookie", ascii "b=2"⟩])
        (ascii "cookie") = [ascii "a=1", ascii "b=2"] :=
  ⟨⟨ascii "GET", ⟨true, some (ascii "a.example"), ascii "/"⟩, .http2,
    [(hostName, ascii "a.example"), (ascii "cookie", ascii "b=2")]⟩,
    by decide +kernel, by decide +kernel, by decide +kernel⟩

end Pingola
