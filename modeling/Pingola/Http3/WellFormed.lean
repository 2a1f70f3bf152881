import Pingola.Http3.Decode
import Mathlib.Data.List.TakeWhile
import Mathlib.Tactic.MkIffOfInductiveProp

/-!
# The header lists that HTTP/3 decoding accepts

`WellFormed` says what an acceptable header list contains, without an order of checks. The
fast path accepts exactly the well-formed lists of at most 32 headers, the slow path exactly
the well-formed lists whose pseudo-headers come first, and both build the same request.
-/

namespace Pingola
open ByteText

variable {C : HttpCrate}

def pseudoNames : List Bytes := [pseudoMethod, pseudoScheme, pseudoAuthority, pseudoPath]

/-- The values of a field name, in order. -/
def fieldValues (headers : List H3Header) (name : Bytes) : List Bytes :=
  (headers.filter fun h => h.name = name).map H3Header.value

/-- A regular field other than `host`. -/
def H3Header.isField (h : H3Header) : Bool := !h.isPseudo && h.name != hostName

def regularFields (headers : List H3Header) : List (Bytes × Bytes) :=
  (headers.filter H3Header.isField).map fun h => (h.name, h.value)

def PseudoFirst (headers : List H3Header) : Prop :=
  headers.Pairwise fun a b => b.isPseudo = true → a.isPseudo = true

instance (headers : List H3Header) : Decidable (PseudoFirst headers) :=
  inferInstanceAs (Decidable (headers.Pairwise fun a b => b.isPseudo = true → a.isPseudo = true))

/-- A list with one of each pseudo-header, with valid contents, whose regular fields are in lower
case, valid and not connection-specific. -/
structure WellFormed (C : HttpCrate) (headers : List H3Header) (method authority path : Bytes) :
    Prop where
  known : ∀ h ∈ headers, h.isPseudo = true → h.name ∈ pseudoNames
  lower : ∀ h ∈ headers, h.isPseudo = false → h.name.any isAsciiUppercase = false
  unforbidden : ∀ h ∈ headers, h.isPseudo = false → connectionSpecific h.name h.value = false
  fields : ∀ h ∈ headers, h.isField = true →
    C.validHeaderName h.name = true ∧ C.validHeaderValue h.value = true
  methodField : fieldValues headers pseudoMethod = [method]
  schemeField : ∃ scheme, fieldValues headers pseudoScheme = [scheme] ∧
    eqIgnoreAsciiCase scheme (ascii "https") = true
  authorityField : fieldValues headers pseudoAuthority = [authority]
  pathField : fieldValues headers pseudoPath = [path]
  validMethod : C.validMethod method = true
  utf8 : isUtf8 authority = true ∧ isUtf8 path = true
  originForm : (ascii "/").isPrefixOf path = true
  validHost : C.validHeaderValueStr authority = true
  validUri : C.validAuthority authority = true ∧
    C.validPathAndQuery (withoutFragment path) = true

/-- The request a well-formed list stands for. -/
def requestOf (headers : List H3Header) (method authority path : Bytes) : RequestHeader where
  method := method
  uri := ⟨true, some authority, withoutFragment path⟩
  version := .http2
  headers := MultiMap.insertAll [(hostName, authority)] (regularFields headers)

lemma fieldValues_cons (h : H3Header) (hs : List H3Header) (name : Bytes) :
    fieldValues (h :: hs) name = (if h.name = name then [h.value] else []) ++ fieldValues hs name := by
  unfold fieldValues
  by_cases hn : h.name = name <;> simp [hn]

lemma fieldValues_singleton (h : H3Header) (name : Bytes) :
    fieldValues [h] name = if h.name = name then [h.value] else [] := by
  rw [fieldValues_cons]
  simp [fieldValues]

lemma regularFields_cons (h : H3Header) (hs : List H3Header) :
    regularFields (h :: hs) = (if h.isField then [(h.name, h.value)] else []) ++ regularFields hs := by
  unfold regularFields
  by_cases hf : h.isField = true <;> simp [hf]

lemma isPseudo_of_mem {h : H3Header} (hn : h.name ∈ pseudoNames) : h.isPseudo = true := by
  have hall : ∀ n ∈ pseudoNames, (ascii ":").isPrefixOf n = true := by decide
  exact hall _ hn

lemma pseudoNames_nodup : pseudoNames.Nodup := by decide

lemma toAsciiLowercase_of_lower {n : Bytes} (h : n.any isAsciiUppercase = false) :
    toAsciiLowercase n = n := by
  rw [List.any_eq_false] at h
  unfold toAsciiLowercase
  refine (List.map_congr_left fun b hb => ?_).trans (List.map_id n)
  simp [asciiLower, h b hb]

/-! ### The scans -/

/-- An at-most-once slot that holds `x` reads the values `vs` and then holds `y`. -/
def Fills (x : Option Bytes) (vs : List Bytes) (y : Option Bytes) : Prop := x.toList ++ vs = y.toList

@[simp] lemma fills_nil {x y : Option Bytes} : Fills x [] y ↔ x = y := by
  cases x <;> cases y <;> simp [Fills]

@[simp] lemma fills_singleton {x y : Option Bytes} {v : Bytes} :
    Fills x [v] y ↔ x = none ∧ some v = y := by
  cases x <;> cases y <;> simp [Fills]

lemma fills_append {x z : Option Bytes} {vs ws : List Bytes} :
    Fills x (vs ++ ws) z ↔ ∃ y, Fills x vs y ∧ Fills y ws z := by
  unfold Fills
  constructor
  · intro h
    have hlen : (x.toList ++ vs).length ≤ 1 := by
      have hz := congrArg List.length h
      have hz1 : z.toList.length ≤ 1 := by cases z <;> simp
      simp only [List.length_append] at hz ⊢
      omega
    obtain ⟨y, hy⟩ : ∃ y : Option Bytes, x.toList ++ vs = y.toList := by
      match hl : x.toList ++ vs with
      | [] => exact ⟨none, rfl⟩
      | [a] => exact ⟨some a, rfl⟩
      | a :: b :: l => rw [hl] at hlen; simp at hlen
    exact ⟨y, hy, by rw [← hy, List.append_assoc, h]⟩
  · rintro ⟨y, hy, hz⟩
    rw [← List.append_assoc, hy, hz]

lemma fills_none_some {vs : List Bytes} {v : Bytes} : Fills none vs (some v) ↔ vs = [v] := by
  simp [Fills]

def FastAllowed (h : H3Header) : Prop :=
  if h.isPseudo then
    h.name ∈ pseudoNames ∧ (h.name = pseudoScheme → eqIgnoreAsciiCase h.value (ascii "https") = true)
  else h.name.any isAsciiUppercase = false ∧ connectionSpecific h.name h.value = false

/-- What the scan of the fast path reads from a list. -/
@[mk_iff]
structure FastRead (s : FastScan) (hs : List H3Header) (s' : FastScan) : Prop where
  allowed : ∀ h ∈ hs, FastAllowed h
  method : Fills s.method (fieldValues hs pseudoMethod) s'.method
  scheme : s.scheme.toNat + (fieldValues hs pseudoScheme).length = s'.scheme.toNat
  authority : Fills s.authority (fieldValues hs pseudoAuthority) s'.authority
  path : Fills s.path (fieldValues hs pseudoPath) s'.path

lemma connectionSpecific_host (v : Bytes) : connectionSpecific hostName v = false := by
  simp only [connectionSpecific]
  rw [show (hostName == ascii "connection") = false by decide,
    show (hostName == ascii "keep-alive") = false by decide,
    show (hostName == ascii "proxy-connection") = false by decide,
    show (hostName == ascii "transfer-encoding") = false by decide,
    show (hostName == ascii "upgrade") = false by decide, show (hostName == ascii "te") = false by decide]
  rfl

lemma fastStep_eq_ok_iff {s s' : FastScan} {h : H3Header} :
    fastStep s h = .ok s' ↔ FastRead s [h] s' := by
  obtain ⟨m, sc, a, p⟩ := s
  obtain ⟨m', sc', a', p'⟩ := s'
  obtain ⟨name, value⟩ := h
  have hdist := pseudoNames_nodup
  simp only [pseudoNames, List.nodup_cons, List.mem_cons, List.not_mem_nil, or_false, not_or] at hdist
  obtain ⟨⟨h12, h13, h14⟩, ⟨h23, h24⟩, h34, -⟩ := hdist
  simp only [fastRead_iff, List.mem_singleton, forall_eq, fieldValues_singleton, FastAllowed, fastStep]
  by_cases hp : (H3Header.mk name value).isPseudo = true
  · simp only [hp, if_true]
    by_cases hn : name ∈ pseudoNames
    · simp only [hn, true_and]
      simp only [pseudoNames, List.mem_cons, List.not_mem_nil, or_false] at hn
      rcases hn with rfl | rfl | rfl | rfl
      · cases m <;> cases sc <;> cases sc' <;> simp [h12, h13, h14]
      · cases sc <;> cases sc' <;> cases eqIgnoreAsciiCase value (ascii "https") <;>
          simp [Ne.symm h12, h23, h24]
      · cases a <;> cases sc <;> cases sc' <;> simp [Ne.symm h13, Ne.symm h23, h34]
      · cases p <;> cases sc <;> cases sc' <;> simp [Ne.symm h14, Ne.symm h24, Ne.symm h34]
    · simp only [hn, false_and, iff_false]
      simp only [pseudoNames, List.mem_cons, List.not_mem_nil, or_false, not_or] at hn
      simp [hn]
  · have hn : name ∉ pseudoNames := fun hn => hp (isPseudo_of_mem hn)
    simp only [pseudoNames, List.mem_cons, List.not_mem_nil, or_false, not_or] at hn
    by_cases hu : name.any isAsciiUppercase = true
    · simp [hp, hu]
    · by_cases hh : name = hostName
      · subst hh
        cases sc <;> cases sc' <;> simp [hp, hu, hn, connectionSpecific_host]
      · cases connectionSpecific name value <;> cases sc <;> cases sc' <;> simp [hp, hu, hh, hn]

lemma fastRead_cons {s s' : FastScan} {h : H3Header} {hs : List H3Header} :
    FastRead s (h :: hs) s' ↔ ∃ t, FastRead s [h] t ∧ FastRead t hs s' := by
  simp only [fastRead_iff, fieldValues_cons h hs, ← fieldValues_singleton, fills_append,
    List.forall_mem_cons, List.length_append]
  constructor
  · rintro ⟨⟨hh, hhs⟩, ⟨m, hm, hm'⟩, hsc, ⟨a, ha, ha'⟩, ⟨p, hp, hp'⟩⟩
    have hle : s'.scheme.toNat ≤ 1 := by cases s'.scheme <;> simp
    obtain ⟨b, hb⟩ : ∃ b : Bool, s.scheme.toNat + (fieldValues [h] pseudoScheme).length = b.toNat := by
      by_cases hz : s.scheme.toNat + (fieldValues [h] pseudoScheme).length = 0
      · exact ⟨false, hz⟩
      · exact ⟨true, by simp only [Bool.toNat_true]; omega⟩
    exact ⟨⟨m, b, a, p⟩, ⟨⟨hh, by simp⟩, hm, hb, ha, hp⟩, hhs, hm', by simp only; omega, ha', hp'⟩
  · rintro ⟨t, ⟨⟨hh, -⟩, hm, hsc, ha, hp⟩, hhs, hm', hsc', ha', hp'⟩
    exact ⟨⟨hh, hhs⟩, ⟨_, hm, hm'⟩, by omega, ⟨_, ha, ha'⟩, ⟨_, hp, hp'⟩⟩

lemma fastScan_eq_ok_iff {s s' : FastScan} {hs : List H3Header} :
    fastScan s hs = .ok s' ↔ FastRead s hs s' := by
  induction hs generalizing s with
  | nil =>
    obtain ⟨m, sc, a, p⟩ := s
    obtain ⟨m', sc', a', p'⟩ := s'
    cases sc <;> cases sc' <;> simp [fastScan, fastRead_iff, fieldValues]
  | cons h hs ih =>
    rw [fastRead_cons, fastScan]
    constructor
    · intro hok
      cases hstep : fastStep s h with
      | error e => rw [hstep] at hok; simp at hok
      | ok t =>
        rw [hstep] at hok
        exact ⟨t, fastStep_eq_ok_iff.mp hstep, ih.mp hok⟩
    · rintro ⟨t, hstep, hrest⟩
      rw [fastStep_eq_ok_iff.mpr hstep]
      exact ih.mpr hrest

lemma fastCopy_eq_some_iff {hs : List H3Header} {r r' : RequestHeader}
    (hlow : ∀ h ∈ hs, h.isPseudo = false → h.name.any isAsciiUppercase = false) :
    fastCopy C r hs = some r' ↔
      (∀ h ∈ hs, h.isField = true → C.validHeaderName h.name = true ∧ C.validHeaderValue h.value = true) ∧
      r' = { r with headers := MultiMap.insertAll r.headers (regularFields hs) } := by
  induction hs generalizing r with
  | nil =>
    simp only [fastCopy, regularFields, MultiMap.insertAll]
    simpa using eq_comm
  | cons h hs ih =>
    simp only [List.forall_mem_cons] at hlow
    have ih := fun {r} => @ih r hlow.2
    rw [regularFields_cons]
    by_cases hf : h.isField = true
    · have hpn : h.isPseudo = false ∧ h.name ≠ hostName := by simpa [H3Header.isField] using hf
      have hname := toAsciiLowercase_of_lower (hlow.1 hpn.1)
      simp only [fastCopy, hpn.1, hpn.2, HttpCrate.headerNameFromBytes, HttpCrate.headerValueFromBytes,
        hname, List.forall_mem_cons, hf, if_true]
      by_cases hvn : C.validHeaderName h.name = true
      · by_cases hvv : C.validHeaderValue h.value = true
        · simp [hvn, hvv, ih, RequestHeader.insertTypedHeader, MultiMap.insertAll]
        · simp [hvn, hvv]
      · simp [hvn]
    · have hskip : (h.isPseudo || decide (h.name = hostName)) = true := by
        simp only [H3Header.isField, Bool.and_eq_true, Bool.not_eq_true', bne_iff_ne, ne_eq, not_and,
          not_not] at hf
        cases hps : h.isPseudo
        · simp [hf hps]
        · rfl
      simp [fastCopy, hskip, ih, hf]

def SlowAllowed (C : HttpCrate) (h : H3Header) : Prop :=
  if h.isPseudo then
    h.name ∈ pseudoNames ∧ (h.name = pseudoMethod → C.validMethod h.value = true)
  else h.name.any isAsciiUppercase = false ∧ connectionSpecific h.name h.value = false ∧
    (h.isField = true → C.validHeaderName h.name = true ∧ C.validHeaderValue h.value = true)

/-- What the scan of the slow path reads from a list. -/
@[mk_iff]
structure SlowRead (C : HttpCrate) (s : SlowScan) (hs : List H3Header) (s' : SlowScan) : Prop where
  allowed : ∀ h ∈ hs, SlowAllowed C h
  ordered : PseudoFirst hs ∧ (s.regularSeen = true → ∀ h ∈ hs, h.isPseudo = false)
  method : Fills s.method (fieldValues hs pseudoMethod) s'.method
  scheme : Fills s.scheme (fieldValues hs pseudoScheme) s'.scheme
  authority : Fills s.authority (fieldValues hs pseudoAuthority) s'.authority
  path : Fills s.path (fieldValues hs pseudoPath) s'.path
  regularSeen : (s.regularSeen || hs.any fun h => !h.isPseudo) = s'.regularSeen
  regular : s.regular ++ regularFields hs = s'.regular

lemma regularFields_singleton (h : H3Header) :
    regularFields [h] = if h.isField then [(h.name, h.value)] else [] := by
  rw [regularFields_cons]
  simp [regularFields]

lemma context_eq_ok {α : Type} {message : String} {o : Option α} {x : α} :
    context message o = .ok x ↔ o = some x := by
  cases o <;> simp [context]

lemma slowStep_eq_ok_iff {s s' : SlowScan} {h : H3Header} :
    slowStep C s h = .ok s' ↔ SlowRead C s [h] s' := by
  obtain ⟨m, sc, a, p, seen, reg⟩ := s
  obtain ⟨m', sc', a', p', seen', reg'⟩ := s'
  obtain ⟨name, value⟩ := h
  have hdist := pseudoNames_nodup
  simp only [pseudoNames, List.nodup_cons, List.mem_cons, List.not_mem_nil, or_false, not_or] at hdist
  obtain ⟨⟨h12, h13, h14⟩, ⟨h23, h24⟩, h34, -⟩ := hdist
  simp only [slowRead_iff, List.mem_singleton, forall_eq, fieldValues_singleton, SlowAllowed, slowStep,
    regularFields_singleton, PseudoFirst, List.pairwise_singleton, true_and, List.any_cons, List.any_nil,
    Bool.or_false]
  by_cases hp : (H3Header.mk name value).isPseudo = true
  · have hf : (H3Header.mk name value).isField = false := by simp [H3Header.isField, hp]
    simp only [hp, hf, if_true]
    by_cases hn : name ∈ pseudoNames
    · simp only [hn, true_and]
      simp only [pseudoNames, List.mem_cons, List.not_mem_nil, or_false] at hn
      rcases hn with rfl | rfl | rfl | rfl
      · cases m <;> cases seen <;>
          simp [h12, h13, h14, except_bind_eq_ok, context_eq_ok, HttpCrate.methodFromBytes]
      · cases sc <;> cases seen <;> simp [Ne.symm h12, h23, h24]
      · cases a <;> cases seen <;> simp [Ne.symm h13, Ne.symm h23, h34]
      · cases p <;> cases seen <;> simp [Ne.symm h14, Ne.symm h24, Ne.symm h34]
    · simp only [hn, false_and, iff_false]
      simp only [pseudoNames, List.mem_cons, List.not_mem_nil, or_false, not_or] at hn
      cases seen <;> simp [hn]
  · have hn : name ∉ pseudoNames := fun hn => hp (isPseudo_of_mem hn)
    simp only [pseudoNames, List.mem_cons, List.not_mem_nil, or_false, not_or] at hn
    by_cases hu : name.any isAsciiUppercase = true
    · simp [hp, hu]
    · have hname := toAsciiLowercase_of_lower (by simpa using hu)
      by_cases hh : name = hostName
      · subst hh
        have hf : (H3Header.mk hostName value).isField = false := by simp [H3Header.isField]
        have hforb : forbiddenRequestHeader hostName value = false := connectionSpecific_host value
        have hvalid : C.validHeaderName hostName = true := C.validHeaderName_host
        simp [hp, hf, hu, hn, hname, hforb, hvalid, connectionSpecific_host, except_bind_eq_ok, context_eq_ok,
          HttpCrate.headerNameFromBytes]
      · have hf : (H3Header.mk name value).isField = true := by simp [H3Header.isField, hp, hh]
        have hforb : forbiddenRequestHeader name value = connectionSpecific name value := rfl
        cases hc : connectionSpecific name value <;>
          simp [hp, hf, hu, hh, hn, hname, hforb, hc, except_bind_eq_ok, context_eq_ok, HttpCrate.headerNameFromBytes,
            HttpCrate.headerValueFromBytes, and_assoc]

lemma slowRead_cons {s s' : SlowScan} {h : H3Header} {hs : List H3Header} :
    SlowRead C s (h :: hs) s' ↔ ∃ t, SlowRead C s [h] t ∧ SlowRead C t hs s' := by
  simp only [slowRead_iff, fieldValues_cons h hs, regularFields_cons h hs, ← fieldValues_singleton,
    ← regularFields_singleton, fills_append, List.forall_mem_cons, PseudoFirst, List.pairwise_cons,
    List.any_cons, List.any_nil, Bool.or_false]
  constructor
  · rintro ⟨⟨hh, hhs⟩, ⟨⟨hord, hords⟩, hseen⟩, ⟨m, hm, hm'⟩, ⟨sc, hsc, hsc'⟩, ⟨a, ha, ha'⟩,
      ⟨p, hp, hp'⟩, hreg, hfields⟩
    refine ⟨⟨m, sc, a, p, s.regularSeen || !h.isPseudo, s.regular ++ regularFields [h]⟩,
      ⟨⟨hh, by simp⟩, ⟨⟨by simp, .nil⟩, fun hs => ⟨(hseen hs).1, by simp⟩⟩, hm, hsc, ha, hp, rfl, rfl⟩,
      hhs, ⟨hords, fun ht x hx => ?_⟩, hm', hsc', ha', hp', ?_, ?_⟩
    · -- either a regular field was seen before, or `h` is one and `x` comes after it
      rcases Bool.or_eq_true _ _ ▸ ht with hs | hreg
      · exact (hseen hs).2 x hx
      · rw [Bool.eq_false_iff]
        intro hps
        simp [hord x hx hps] at hreg
    · simpa [Bool.or_assoc] using hreg
    · simpa using hfields
  · rintro ⟨t, ⟨⟨hh, -⟩, ⟨-, hseen⟩, hm, hsc, ha, hp, hreg, hfields⟩, hhs, ⟨hords, hseen'⟩, hm', hsc',
      ha', hp', hreg', hfields'⟩
    refine ⟨⟨hh, hhs⟩, ⟨⟨fun x hx hps => ?_, hords⟩, fun hs => ⟨(hseen hs).1, hseen' ?_⟩⟩, ⟨_, hm, hm'⟩,
      ⟨_, hsc, hsc'⟩, ⟨_, ha, ha'⟩, ⟨_, hp, hp'⟩, ?_, ?_⟩
    · by_contra hreg''
      have hx := hseen' (by simp [← hreg, hreg'']) x hx
      simp [hps] at hx
    · simp [← hreg, hs]
    · rw [← hreg', ← hreg, Bool.or_assoc]
    · rw [← hfields', ← hfields, List.append_assoc]

lemma slowScan_eq_ok_iff {s s' : SlowScan} {hs : List H3Header} :
    slowScan C s hs = .ok s' ↔ SlowRead C s hs s' := by
  induction hs generalizing s with
  | nil =>
    obtain ⟨m, sc, a, p, seen, reg⟩ := s
    obtain ⟨m', sc', a', p', seen', reg'⟩ := s'
    simp [slowScan, slowRead_iff, fieldValues, regularFields, PseudoFirst]
  | cons h hs ih =>
    rw [slowRead_cons, slowScan, except_bind_eq_ok]
    simp only [slowStep_eq_ok_iff, ih]

/-! ### Acceptance -/

lemma withoutFragment_withoutFragment (p : Bytes) :
    withoutFragment (withoutFragment p) = withoutFragment p :=
  List.takeWhile_idem

lemma buildHttpsUri_eq_some_iff {authority path : Bytes} {uri : Uri} :
    buildHttpsUri C authority path = some uri ↔
      C.validAuthority authority = true ∧ C.validPathAndQuery (withoutFragment path) = true ∧
        uri = ⟨true, some authority, withoutFragment path⟩ := by
  unfold buildHttpsUri HttpCrate.pathAndQuery
  by_cases hp : C.validPathAndQuery (withoutFragment path) = true
  · by_cases ha : C.validAuthority authority = true
    · simpa [hp, ha] using eq_comm (a := Uri.mk true (some authority) (withoutFragment path))
    · simp [ha]
  · simp only [hp, Option.bind_eq_bind]
    simp

lemma buildNoCase_of_valid {method path : Bytes}
    (h : C.validPathAndQuery (withoutFragment path) = true) :
    RequestHeader.buildNoCase C method path =
      .ok ⟨method, ⟨false, none, withoutFragment path⟩, .http11, []⟩ := by
  unfold RequestHeader.buildNoCase HttpCrate.pathAndQuery
  rw [withoutFragment_withoutFragment]
  simp only [h, if_true]

lemma fastRead_iff_wellFormed {headers : List H3Header} {m a p : Bytes} :
    FastRead ⟨none, false, none, none⟩ headers ⟨some m, true, some a, some p⟩ ↔
      (∀ h ∈ headers, h.isPseudo = true → h.name ∈ pseudoNames) ∧
      (∀ h ∈ headers, h.isPseudo = false → h.name.any isAsciiUppercase = false) ∧
      (∀ h ∈ headers, h.isPseudo = false → connectionSpecific h.name h.value = false) ∧
      fieldValues headers pseudoMethod = [m] ∧
      (∃ scheme, fieldValues headers pseudoScheme = [scheme] ∧
        eqIgnoreAsciiCase scheme (ascii "https") = true) ∧
      fieldValues headers pseudoAuthority = [a] ∧ fieldValues headers pseudoPath = [p] := by
  have hmem : ∀ scheme, scheme ∈ fieldValues headers pseudoScheme ↔
      ∃ h ∈ headers, h.name = pseudoScheme ∧ h.value = scheme := by
    simp [fieldValues, and_assoc]
  have hpseudo : ∀ h : H3Header, h.name = pseudoScheme → h.isPseudo = true :=
    fun h hn => isPseudo_of_mem (by simp [pseudoNames, hn])
  simp only [fastRead_iff, fills_none_some, Bool.toNat_false, Bool.toNat_true, zero_add,
    List.length_eq_one_iff]
  constructor
  · rintro ⟨hall, hm, ⟨scheme, hs⟩, ha, hp⟩
    obtain ⟨h, hh, hn, hv⟩ := (hmem scheme).mp (by simp [hs])
    have hhttps := hall h hh
    simp only [FastAllowed, hpseudo h hn, if_true] at hhttps
    refine ⟨fun h hh hps => ?_, fun h hh hps => ?_, fun h hh hps => ?_, hm,
      ⟨scheme, hs, hv ▸ hhttps.2 hn⟩, ha, hp⟩ <;> have hok := hall h hh <;>
      simp only [FastAllowed, hps, if_true, Bool.false_eq_true, if_false] at hok
    · exact hok.1
    · exact hok.1
    · exact hok.2
  · rintro ⟨hknown, hlow, hunf, hm, ⟨scheme, hs, hhttps⟩, ha, hp⟩
    refine ⟨fun h hh => ?_, hm, ⟨scheme, hs⟩, ha, hp⟩
    unfold FastAllowed
    split_ifs with hps
    · refine ⟨hknown h hh hps, fun hn => ?_⟩
      have hval := (hmem h.value).mpr ⟨h, hh, hn, rfl⟩
      rw [hs, List.mem_singleton] at hval
      rw [hval, hhttps]
    · exact ⟨hlow h hh (by simpa using hps), hunf h hh (by simpa using hps)⟩

/-- The fast path accepts the well-formed lists of at most 32 headers. -/
lemma decodeRequestHeadersFast_eq_ok_iff {headers : List H3Header} {r : RequestHeader} :
    decodeRequestHeadersFast C headers = some (.ok r) ↔ headers.length ≤ 32 ∧
      ∃ m a p, WellFormed C headers m a p ∧ r = requestOf headers m a p := by
  unfold decodeRequestHeadersFast
  constructor
  · intro h
    split_ifs at h with hlen
    simp only [Bool.or_eq_true, List.isEmpty_iff, decide_eq_true_eq, not_or, not_lt] at hlen
    refine ⟨hlen.2, ?_⟩
    split at h
    · simp at h
    · simp at h
    · rename_i s hscan
      simp only [Option.bind_eq_bind, Option.bind_eq_some_iff] at h
      obtain ⟨m, hm, method, hmethod, h⟩ := h
      split_ifs at h with hscheme
      simp only [Option.bind_eq_some_iff, Option.filter_eq_some_iff] at h
      obtain ⟨authority, ⟨ha, hutfa⟩, path, ⟨hp, hutfp⟩, h⟩ := h
      split_ifs at h with horigin
      · simp at h
      simp only [Option.bind_eq_some_iff] at h
      obtain ⟨host, hhost, uri, huri, req, hreq, req', hcopy, hr⟩ := h
      simp only [HttpCrate.methodFromBytes, Option.ite_none_right_eq_some, Option.some.injEq] at hmethod
      simp only [HttpCrate.headerValueFromStr, Option.ite_none_right_eq_some, Option.some.injEq] at hhost
      obtain ⟨hvm, rfl⟩ := hmethod
      obtain ⟨hvh, rfl⟩ := hhost
      obtain ⟨hva, hvp, rfl⟩ := buildHttpsUri_eq_some_iff.mp huri
      rw [buildNoCase_of_valid hvp] at hreq
      obtain rfl := Option.some.inj hreq
      obtain rfl := Except.ok.inj (Option.some.inj hr)
      have hs : s = ⟨some m, true, some authority, some path⟩ := by
        cases s
        simp_all
      rw [hs] at hscan
      obtain ⟨hknown, hlow, hunf, hfm, hfs, hfa, hfp⟩ :=
        fastRead_iff_wellFormed.mp (fastScan_eq_ok_iff.mp hscan)
      obtain ⟨hfields, rfl⟩ := (fastCopy_eq_some_iff hlow).mp hcopy
      exact ⟨m, authority, path, ⟨hknown, hlow, hunf, hfields, hfm, hfs, hfa, hfp, hvm,
        ⟨hutfa, hutfp⟩, by simpa using horigin, hvh, hva, hvp⟩, rfl⟩
  · rintro ⟨hlen, m, a, p, hw, rfl⟩
    have hne : headers ≠ [] := by
      rintro rfl
      have hm := hw.methodField
      simp [fieldValues] at hm
    have hscan := fastScan_eq_ok_iff.mpr (fastRead_iff_wellFormed.mpr ⟨hw.known, hw.lower, hw.unforbidden,
      hw.methodField, hw.schemeField, hw.authorityField, hw.pathField⟩)
    have huri := buildHttpsUri_eq_some_iff.mpr ⟨hw.validUri.1, hw.validUri.2, rfl⟩
    rw [if_neg (by simp [hne]; omega), hscan]
    simp only [HttpCrate.methodFromBytes, HttpCrate.headerValueFromStr, hw.validMethod, hw.utf8.1,
      hw.utf8.2, hw.originForm, hw.validHost, huri, buildNoCase_of_valid hw.validUri.2, Option.filter,
      Except.toOption, Option.bind_eq_bind, Option.bind_some, if_true, Bool.not_true, Bool.false_eq_true,
      if_false]
    rw [(fastCopy_eq_some_iff hw.lower).mpr ⟨hw.fields, rfl⟩]
    rfl

lemma foldl_insertTypedHeader (ps : List (Bytes × Bytes)) (r : RequestHeader) :
    ps.foldl (fun r p => r.insertTypedHeader p.1 p.2) r =
      { r with headers := MultiMap.insertAll r.headers ps } := by
  induction ps generalizing r with
  | nil => rfl
  | cons p ps ih => exact ih _

lemma pathAndQueryStr_withoutFragment {p : Bytes} (h : (ascii "/").isPrefixOf p = true) :
    pathAndQueryStr (withoutFragment p) = withoutFragment p := by
  have hslash : byte '/' ≠ byte '#' := by decide
  cases p with
  | nil => simp [ascii] at h
  | cons b p =>
    have hb : b = byte '/' := by
      have hp : (byte '/' == b && ([] : Bytes).isPrefixOf p) = true := h
      simp only [Bool.and_eq_true, beq_iff_eq] at hp
      exact hp.1.symm
    simp [pathAndQueryStr, withoutFragment, hb, hslash]

lemma slowAllowed_iff {headers : List H3Header} {m : Bytes}
    (hm : fieldValues headers pseudoMethod = [m]) :
    (∀ h ∈ headers, SlowAllowed C h) ↔
      (∀ h ∈ headers, h.isPseudo = true → h.name ∈ pseudoNames) ∧
      (∀ h ∈ headers, h.isPseudo = false → h.name.any isAsciiUppercase = false) ∧
      (∀ h ∈ headers, h.isPseudo = false → connectionSpecific h.name h.value = false) ∧
      (∀ h ∈ headers, h.isField = true →
        C.validHeaderName h.name = true ∧ C.validHeaderValue h.value = true) ∧
      C.validMethod m = true := by
  have hmem : ∀ v, v ∈ fieldValues headers pseudoMethod ↔
      ∃ h ∈ headers, h.name = pseudoMethod ∧ h.value = v := by
    simp [fieldValues, and_assoc]
  constructor
  · intro hall
    refine ⟨fun h hh hps => ?_, fun h hh hps => ?_, fun h hh hps => ?_, fun h hh hf => ?_, ?_⟩
    · have hok := hall h hh
      simp only [SlowAllowed, hps, if_true] at hok
      exact hok.1
    · have hok := hall h hh
      simp only [SlowAllowed, hps, Bool.false_eq_true, if_false] at hok
      exact hok.1
    · have hok := hall h hh
      simp only [SlowAllowed, hps, Bool.false_eq_true, if_false] at hok
      exact hok.2.1
    · have hps : h.isPseudo = false := by
        simp only [H3Header.isField, Bool.and_eq_true, Bool.not_eq_true'] at hf
        exact hf.1
      have hok := hall h hh
      simp only [SlowAllowed, hps, Bool.false_eq_true, if_false] at hok
      exact hok.2.2 hf
    · obtain ⟨h, hh, hn, hv⟩ := (hmem m).mp (by simp [hm])
      have hok := hall h hh
      simp only [SlowAllowed, isPseudo_of_mem (show h.name ∈ pseudoNames by simp [pseudoNames, hn]),
        if_true] at hok
      exact hv ▸ hok.2 hn
  · rintro ⟨hknown, hlow, hunf, hfields, hvm⟩ h hh
    unfold SlowAllowed
    split_ifs with hps
    · refine ⟨hknown h hh hps, fun hn => ?_⟩
      have hval := (hmem h.value).mpr ⟨h, hh, hn, rfl⟩
      rw [hm, List.mem_singleton] at hval
      rw [hval, hvm]
    · have hps : h.isPseudo = false := by simpa using hps
      exact ⟨hlow h hh hps, hunf h hh hps, hfields h hh⟩

lemma wellFormed_of_slow {headers : List H3Header} {r : RequestHeader}
    (h : decodeRequestHeadersSlow C headers = .ok r) :
    PseudoFirst headers ∧ ∃ m a p, WellFormed C headers m a p ∧ r = requestOf headers m a p := by
  simp only [decodeRequestHeadersSlow, except_bind_eq_ok, context_eq_ok] at h
  obtain ⟨s, hscan, m, hm, scheme, hsc, h⟩ := h
  split_ifs at h with hhttps
  simp only [except_bind_eq_ok, context_eq_ok, Option.filter_eq_some_iff, Option.some.injEq] at h
  obtain ⟨a, ha, _, ⟨rfl, hutfa⟩, host, hhost, p, hp, _, ⟨rfl, hutfp⟩, h⟩ := h
  split_ifs at h with horigin
  have horigin : (ascii "/").isPrefixOf p = true := by simpa using horigin
  simp only [except_bind_eq_ok, context_eq_ok, HttpCrate.pathAndQuery,
    Option.ite_none_right_eq_some, Option.some.injEq] at h
  obtain ⟨_, ⟨hvp, rfl⟩, uri, huri, req, hreq, h⟩ := h
  obtain rfl := Except.ok.inj h
  rw [pathAndQueryStr_withoutFragment horigin] at huri hreq
  simp only [HttpCrate.headerValueFromStr, Option.ite_none_right_eq_some, Option.some.injEq] at hhost
  obtain ⟨hvh, rfl⟩ := hhost
  obtain ⟨hva, -, rfl⟩ := buildHttpsUri_eq_some_iff.mp huri
  have hvp' : C.validPathAndQuery (withoutFragment (withoutFragment p)) = true := by
    rw [withoutFragment_withoutFragment, hvp]
  rw [buildNoCase_of_valid hvp', Except.mapError] at hreq
  obtain rfl := Except.ok.inj hreq
  obtain ⟨hallowed, ⟨hord, -⟩, hfm, hfs, hfa, hfp, -, hreg⟩ := slowScan_eq_ok_iff.mp hscan
  rw [hm, fills_none_some] at hfm
  rw [hsc, fills_none_some] at hfs
  rw [ha, fills_none_some] at hfa
  rw [hp, fills_none_some] at hfp
  obtain ⟨hknown, hlow, hunf, hfields, hvm⟩ := (slowAllowed_iff hfm).mp hallowed
  refine ⟨hord, m, a, p, ⟨hknown, hlow, hunf, hfields, hfm, ⟨scheme, hfs, by simpa using hhttps⟩, hfa,
    hfp, hvm, ⟨hutfa, hutfp⟩, horigin, hvh, hva, hvp⟩, ?_⟩
  rw [foldl_insertTypedHeader, ← hreg, requestOf]
  simp [RequestHeader.insertTypedHeader, RequestHeader.setUri, RequestHeader.setVersion,
    MultiMap.insert, withoutFragment_withoutFragment]

lemma WellFormed.slow {headers : List H3Header} {m a p : Bytes} (hw : WellFormed C headers m a p)
    (hord : PseudoFirst headers) :
    decodeRequestHeadersSlow C headers = .ok (requestOf headers m a p) := by
  obtain ⟨scheme, hfs, hhttps⟩ := hw.schemeField
  have hscan : slowScan C ⟨none, none, none, none, false, []⟩ headers =
      .ok ⟨some m, some scheme, some a, some p, headers.any fun h => !h.isPseudo, regularFields headers⟩ :=
    slowScan_eq_ok_iff.mpr ⟨(slowAllowed_iff hw.methodField).mpr ⟨hw.known, hw.lower, hw.unforbidden,
      hw.fields, hw.validMethod⟩, ⟨hord, by simp⟩, fills_none_some.mpr hw.methodField,
      fills_none_some.mpr hfs, fills_none_some.mpr hw.authorityField, fills_none_some.mpr hw.pathField,
      by simp, by simp⟩
  have hpq : C.pathAndQuery p = some (withoutFragment p) := by
    simp [HttpCrate.pathAndQuery, hw.validUri.2]
  have hvp : C.validPathAndQuery (withoutFragment (withoutFragment p)) = true := by
    rw [withoutFragment_withoutFragment, hw.validUri.2]
  have huri := buildHttpsUri_eq_some_iff.mpr ⟨hw.validUri.1, hvp, rfl⟩
  unfold decodeRequestHeadersSlow
  simp only [hscan, context, bind, Except.bind, hhttps, hw.utf8.1, hw.utf8.2, hw.originForm, hpq,
    HttpCrate.headerValueFromStr, hw.validHost, pathAndQueryStr_withoutFragment hw.originForm, huri,
    buildNoCase_of_valid hvp, Except.mapError, Option.filter, Bool.not_true, Bool.false_eq_true,
    if_true, if_false]
  rw [foldl_insertTypedHeader]
  simp [RequestHeader.insertTypedHeader, RequestHeader.setUri, RequestHeader.setVersion, requestOf,
    MultiMap.insert, withoutFragment_withoutFragment]

end Pingola
