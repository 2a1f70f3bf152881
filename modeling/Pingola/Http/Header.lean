import Pingola.Lib.ByteText
import Pingola.Lib.MultiMap

/-!
# Request headers

The parts of the `http` and `pingora_http` crates that the gateway builds on. A validated
text is the text itself; which texts are valid is left to `HttpCrate`.
-/

namespace Pingola
open ByteText

/-- What the `http` crate accepts. -/
structure HttpCrate where
  validMethod : Bytes → Bool
  validHeaderName : Bytes → Bool
  validHeaderValue : Bytes → Bool
  validHeaderValueStr : Bytes → Bool
  validAuthority : Bytes → Bool
  validPathAndQuery : Bytes → Bool
  validHeaderName_host : validHeaderName (ascii "host") = true

/-- A request target up to its fragment. -/
def withoutFragment (p : Bytes) : Bytes := p.takeWhile (· ≠ byte '#')

namespace HttpCrate

variable (C : HttpCrate)

/-- `Method::from_bytes`. -/
def methodFromBytes (b : Bytes) : Option Bytes := if C.validMethod b then some b else none

/-- `HeaderName::from_bytes`, which folds case. -/
def headerNameFromBytes (b : Bytes) : Option Bytes :=
  if C.validHeaderName b then some (toAsciiLowercase b) else none

/-- `HeaderValue::from_bytes`. -/
def headerValueFromBytes (b : Bytes) : Option Bytes := if C.validHeaderValue b then some b else none

/-- `HeaderValue::from_str`. -/
def headerValueFromStr (b : Bytes) : Option Bytes := if C.validHeaderValueStr b then some b else none

/-- `PathAndQuery::try_from`, which drops a fragment. -/
def pathAndQuery (p : Bytes) : Option Bytes :=
  if C.validPathAndQuery (withoutFragment p) then some (withoutFragment p) else none

def isTokenByte (b : UInt8) : Bool :=
  decide (97 ≤ b ∧ b ≤ 122) || isAsciiUppercase b || isAsciiDigit b ||
    (ascii "!#$%&'*+-.^_`|~").contains b

/-- The grammar of tokens and field values, with plain host names and printable targets. -/
def reference : HttpCrate where
  validMethod b := !b.isEmpty && b.all isTokenByte
  validHeaderName b := !b.isEmpty && b.all isTokenByte
  validHeaderValue b := b.all fun c => decide (32 ≤ c ∧ c ≠ 127 ∨ c = 9)
  validHeaderValueStr b := b.all fun c => decide (32 ≤ c ∧ c ≠ 127 ∨ c = 9)
  validAuthority b := !b.isEmpty && b.all fun c => isTokenByte c || c == byte ':'
  validPathAndQuery b := b.all fun c => decide (33 ≤ c ∧ c ≠ 127)
  validHeaderName_host := by decide

end HttpCrate

/-- `PathAndQuery::as_str`. -/
def pathAndQueryStr (q : Bytes) : Bytes := if q.isEmpty then ascii "/" else q

inductive Version where
  | http09
  | http10
  | http11
  | http2
  | http3
  deriving DecidableEq

structure Uri where
  https : Bool
  authority : Option Bytes
  pathAndQuery : Bytes
  deriving DecidableEq

namespace Uri

variable (u : Uri)

/-- `Uri::path_and_query`, absent only for a target that is an authority. -/
def pathAndQueryText : Option Bytes :=
  if u.https || u.authority.isNone then some (pathAndQueryStr u.pathAndQuery) else none

/-- `Uri::path`. -/
def path : Bytes :=
  if u.https || !u.pathAndQuery.isEmpty then
    let p := u.pathAndQuery.takeWhile (· ≠ byte '?')
    if p.isEmpty then ascii "/" else p
  else []

/-- `Uri::query`. -/
def query : Option Bytes := (splitOnce (byte '?') u.pathAndQuery).map Prod.snd

end Uri

/-- `Uri::builder()` with the scheme `https`, an authority and a path. -/
def buildHttpsUri (C : HttpCrate) (authority path : Bytes) : Option Uri := do
  let q ← C.pathAndQuery path
  if C.validAuthority authority then some ⟨true, some authority, q⟩ else none

abbrev HeaderMap := List (Bytes × Bytes)

/-- `HeaderMap::get`: the first value. -/
def HeaderMap.get (m : HeaderMap) (name : Bytes) : Option Bytes := (MultiMap.getAll m name).head?

/-- `HeaderValue::to_str`: visible ASCII, blanks and tabs. -/
def headerValueToStr (v : Bytes) : Option Bytes :=
  if v.all fun b => decide (32 ≤ b ∧ b < 127 ∨ b = 9) then some v else none

lemma headerValueToStr_eq_some {value text : Bytes} (h : headerValueToStr value = some text) : text = value := by
  unfold headerValueToStr at h
  split_ifs at h
  exact (Option.some.inj h).symm

lemma headerValueToStr_isSome_iff {value : Bytes} :
    (headerValueToStr value).isSome = true ↔ ∀ b ∈ value, 32 ≤ b ∧ b < 127 ∨ b = 9 := by
  unfold headerValueToStr
  split_ifs with hall
  · simpa using hall
  · simpa using hall

structure RequestHeader where
  method : Bytes
  uri : Uri
  version : Version
  headers : HeaderMap
  deriving DecidableEq

lemma except_bind_eq_ok {α β ε : Type} {x : Except ε α} {f : α → Except ε β} {r : β} :
    (x >>= f) = .ok r ↔ ∃ a, x = .ok a ∧ f a = .ok r := by
  cases x <;> simp [bind, Except.bind]

lemma except_map_eq_ok {α β ε : Type} {x : Except ε α} {f : α → β} {r : β} :
    x.map f = .ok r ↔ ∃ a, x = .ok a ∧ f a = r := by
  cases x <;> simp [Except.map]

lemma except_bind_eq_error {α β ε : Type} {x : Except ε α} {f : α → Except ε β} {e : ε} :
    x >>= f = .error e ↔ x = .error e ∨ ∃ a, x = .ok a ∧ f a = .error e := by
  cases x <;> simp [bind, Except.bind]

lemma exists_error_iff {α ε : Type} {x : Except ε α} : (∃ e, x = .error e) ↔ ¬∃ a, x = .ok a := by
  cases x <;> simp

lemma exists_of_mem_mapM_ok {α β ε : Type} {f : α → Except ε β} {l : List α} {r : List β} {b : β}
    (h : l.mapM f = .ok r) (hb : b ∈ r) : ∃ a ∈ l, f a = .ok b := by
  induction l generalizing r with
  | nil =>
    obtain rfl := Except.ok.inj h
    cases hb
  | cons a l ih =>
    rw [List.mapM_cons] at h
    obtain ⟨b', hb', h⟩ := except_bind_eq_ok.mp h
    obtain ⟨r', hr', h⟩ := except_bind_eq_ok.mp h
    obtain rfl := Except.ok.inj h
    rcases List.mem_cons.mp hb with rfl | hb
    · exact ⟨a, List.mem_cons_self, hb'⟩
    · obtain ⟨c, hc, hfc⟩ := ih hr' hb
      exact ⟨c, List.mem_cons_of_mem a hc, hfc⟩

lemma exists_mapM_ok {α β ε : Type} {f : α → Except ε β} {l : List α} (h : ∀ a ∈ l, ∃ b, f a = .ok b) :
    ∃ r, l.mapM f = .ok r := by
  induction l with
  | nil => exact ⟨[], rfl⟩
  | cons a l ih =>
    obtain ⟨b, hb⟩ := h a List.mem_cons_self
    obtain ⟨r, hr⟩ := ih fun a' ha' => h a' (List.mem_cons_of_mem _ ha')
    refine ⟨b :: r, ?_⟩
    rw [List.mapM_cons, hb, hr]
    rfl

/-- The first result of a kind comes from the first element of the kind. -/
lemma find_of_mapM_ok {α β ε : Type} {f : α → Except ε β} {p : α → Bool} {q : β → Bool} {l : List α}
    {r : List β} (h : l.mapM f = .ok r) (hpq : ∀ a b, f a = .ok b → q b = p a) {a : α}
    (ha : l.find? p = some a) : ∃ b, f a = .ok b ∧ r.find? q = some b := by
  induction l generalizing r with
  | nil => cases ha
  | cons first l ih =>
    rw [List.mapM_cons] at h
    obtain ⟨b, hb, h⟩ := except_bind_eq_ok.mp h
    obtain ⟨rest, hrest, h⟩ := except_bind_eq_ok.mp h
    obtain rfl := Except.ok.inj h
    cases hp : p first with
    | true =>
      rw [List.find?_cons_of_pos hp] at ha
      obtain rfl := Option.some.inj ha
      exact ⟨b, hb, List.find?_cons_of_pos ((hpq first b hb).trans hp)⟩
    | false =>
      rw [List.find?_cons_of_neg (by simp [hp])] at ha
      obtain ⟨b', hb', hfind⟩ := ih hrest ha
      refine ⟨b', hb', (List.find?_cons_of_neg ?_).trans hfind⟩
      simp [hpq first b hb, hp]

lemma forM_eq_ok {α ε : Type} {f : α → Except ε Unit} {l : List α} (h : l.forM f = .ok ()) {a : α}
    (ha : a ∈ l) : f a = .ok () := by
  induction l with
  | nil => cases ha
  | cons first l ih =>
    obtain ⟨⟨⟩, hfirst, h⟩ := except_bind_eq_ok.mp h
    rcases List.mem_cons.mp ha with rfl | ha
    · exact hfirst
    · exact ih h ha

/-- `RequestHeader::build_no_case` for a target in origin form: the fragment is cut off and the
rest becomes the path of the URI. -/
def RequestHeader.buildNoCase (C : HttpCrate) (method path : Bytes) : Except Bytes RequestHeader :=
  match C.pathAndQuery (withoutFragment path) with
  | some q => .ok ⟨method, ⟨false, none, q⟩, .http11, []⟩
  | none => .error (ascii "invalid uri " ++ withoutFragment path)

def RequestHeader.setVersion (r : RequestHeader) (version : Version) : RequestHeader :=
  { r with version := version }

def RequestHeader.setUri (r : RequestHeader) (uri : Uri) : RequestHeader := { r with uri := uri }

/-- `insert_typed_header`: replaces every value under the name. -/
def RequestHeader.insertTypedHeader (r : RequestHeader) (name value : Bytes) : RequestHeader :=
  { r with headers := MultiMap.insert r.headers name value }

structure ResponseHeader where
  status : ℕ
  headers : HeaderMap
  deriving DecidableEq

def ResponseHeader.insertTypedHeader (r : ResponseHeader) (name value : Bytes) : ResponseHeader :=
  { r with headers := MultiMap.insert r.headers name value }

def ResponseHeader.removeHeader (r : ResponseHeader) (name : Bytes) : ResponseHeader :=
  { r with headers := r.headers.filter fun p => p.1 ≠ name }

end Pingola
