import Pingola.Config
import Pingola.Http.Header
import Pingola.Lib.CaseFold
import Pingola.Lib.Runs

/-!
# The client address

`session_client_ip` and `resolve_client_ip` of `gateway.rs` and the trust cache of `config.rs`. Parsing
an address and the containment in a network are those of the standard library and of `ipnet`, and are
arguments; of the parser only the bytes of its texts matter, and of a network nothing. Each configuration has an id of its own, so the entries of
different configurations in the cache of a thread do not mix.
-/

namespace Pingola
open ByteText

/-- The networks of `ipnet`. -/
structure IpNetCrate where
  Net : Type
  contains : Net → IpAddr → Bool

structure IpNet where
  network : IpAddr
  prefixLen : ℕ

/-- The first bits of the address are those of the network. -/
def IpNet.contains (net : IpNet) (ip : IpAddr) : Bool :=
  match net.network, ip with
  | .v4 n, .v4 a => n >>> (32 - net.prefixLen) == a >>> (32 - net.prefixLen)
  | .v6 n, .v6 a => n >>> (128 - net.prefixLen) == a >>> (128 - net.prefixLen)
  | _, _ => false

def IpNetCrate.reference : IpNetCrate := ⟨IpNet, IpNet.contains⟩

/-- Hexadecimal digits, dots and colons. -/
def isAddressByte (b : UInt8) : Bool :=
  isAsciiDigit b || decide (97 ≤ b ∧ b ≤ 102) || decide (65 ≤ b ∧ b ≤ 70) || b == byte '.' || b == byte ':'

/-- `IpAddr::from_str`. -/
structure AddressParser where
  parse : Bytes → Option IpAddr
  alphabet : ∀ text ip, parse text = some ip → text.all isAddressByte = true

structure TrustedProxyCacheEntry where
  configId : ℕ
  ip : IpAddr
  trusted : Bool

def trustedProxyCacheSlots : ℕ := 4

abbrev TrustedProxyCache := Fin trustedProxyCacheSlots → Option TrustedProxyCacheEntry

def TrustedProxyCache.empty : TrustedProxyCache := fun _ => none

def trustedProxyCacheSlot (ip : IpAddr) : Fin trustedProxyCacheSlots :=
  let value := match ip with
    | .v4 a => a.toNat
    | .v6 a => a.toNat
  let folded := value ^^^ (value >>> 64) ^^^ (value >>> 32)
  ⟨folded % trustedProxyCacheSlots, Nat.mod_lt _ (by decide)⟩

/-- What `RuntimeConfig` holds for the question whom to trust. -/
structure ProxyTrust (N : IpNetCrate) where
  trustedProxyCacheId : ℕ
  trustedProxies : List N.Net

namespace ProxyTrust

variable {N : IpNetCrate} (A : AddressParser) (runtime : ProxyTrust N)

/-- The address lies in one of the networks. -/
def trusts (ip : IpAddr) : Bool := runtime.trustedProxies.any fun network => N.contains network ip

def isTrustedProxy (cache : TrustedProxyCache) (ip : IpAddr) : Bool × TrustedProxyCache :=
  let slot := trustedProxyCacheSlot ip
  match (cache slot).filter fun entry => entry.configId == runtime.trustedProxyCacheId && entry.ip == ip with
  | some entry => (entry.trusted, cache)
  | none =>
    let trusted := runtime.trusts ip
    (trusted, Function.update cache slot (some ⟨runtime.trustedProxyCacheId, ip, trusted⟩))

/-- The loop over the entries of the header, the last one first. -/
def resolveLoop (peerIp : IpAddr) : TrustedProxyCache → IpAddr → List Bytes → IpAddr × TrustedProxyCache
  | cache, selected, [] => (selected, cache)
  | cache, _, candidate :: candidates =>
    match A.parse (trim candidate) with
    | none => (peerIp, cache)
    | some ip =>
      match runtime.isTrustedProxy cache ip with
      | (true, cache) => resolveLoop peerIp cache ip candidates
      | (false, cache) => (ip, cache)

def resolveClientIp (cache : TrustedProxyCache) (peerIp : IpAddr) (forwardedFor : Option Bytes) :
    IpAddr × TrustedProxyCache :=
  match runtime.isTrustedProxy cache peerIp with
  | (false, cache) => (peerIp, cache)
  | (true, cache) =>
    match forwardedFor.filter fun value => value.length ≤ 4096 with
    | none => (peerIp, cache)
    | some value =>
      if (value.splitOn (byte ','))[32]?.isSome then (peerIp, cache)
      else runtime.resolveLoop A peerIp cache peerIp (value.splitOn (byte ',')).reverse

end ProxyTrust

def canonicalForwardedFor (headers : HeaderMap) : Except Unit (Option Bytes) :=
  match MultiMap.getAll headers (ascii "x-forwarded-for") with
  | [] => .ok none
  | [value] =>
    match headerValueToStr value with
    | some value => .ok (some value)
    | none => .error ()
  | _ => .error ()

/-- `session_client_ip`; a peer without an internet address counts as unspecified. -/
def ProxyTrust.sessionClientIp {N : IpNetCrate} (A : AddressParser) (runtime : ProxyTrust N)
    (cache : TrustedProxyCache) (clientAddr : Option IpAddr) (headers : HeaderMap) : Option IpAddr × TrustedProxyCache :=
  let peerIp := clientAddr.getD (.v4 0)
  match runtime.isTrustedProxy cache peerIp with
  | (false, cache) => (some peerIp, cache)
  | (true, cache) =>
    match canonicalForwardedFor headers with
    | .error _ => (none, cache)
    | .ok none => (some peerIp, cache)
    | .ok (some forwardedFor) =>
      let resolved := runtime.resolveClientIp A cache peerIp (some forwardedFor)
      (some resolved.1, resolved.2)

/-! ### The trust cache -/

/-- Every entry says what the networks of its configuration say. -/
def TrustedProxyCache.Coherent {N : IpNetCrate} (proxies : ℕ → List N.Net) (cache : TrustedProxyCache) : Prop :=
  ∀ slot entry, cache slot = some entry →
    entry.trusted = (proxies entry.configId).any fun network => N.contains network entry.ip

/-- A cache that any calls of any configurations on the thread lead to; `proxies` are the trusted proxies
of the configuration with each id. -/
def TrustedProxyCache.Reached {N : IpNetCrate} (proxies : ℕ → List N.Net) (cache : TrustedProxyCache) : Prop :=
  Runs.Reaches (fun cache (call : ProxyTrust N × IpAddr) cache' =>
    proxies call.1.trustedProxyCacheId = call.1.trustedProxies ∧
      cache' = (call.1.isTrustedProxy cache call.2).2) TrustedProxyCache.empty cache

section

variable {N : IpNetCrate} {proxies : ℕ → List N.Net} {runtime : ProxyTrust N} {cache : TrustedProxyCache}

/-- With a coherent cache the answer is that of the networks, and the cache stays coherent. -/
lemma ProxyTrust.isTrustedProxy_spec (hid : proxies runtime.trustedProxyCacheId = runtime.trustedProxies)
    (h : cache.Coherent proxies) (ip : IpAddr) :
    (runtime.isTrustedProxy cache ip).1 = runtime.trusts ip ∧
      (runtime.isTrustedProxy cache ip).2.Coherent proxies := by
  unfold isTrustedProxy
  dsimp only
  split
  · rename_i entry hentry
    obtain ⟨hslot, hmatch⟩ := Option.filter_eq_some_iff.mp hentry
    simp only [Bool.and_eq_true, beq_iff_eq] at hmatch
    refine ⟨?_, h⟩
    rw [h _ _ hslot, hmatch.1, hmatch.2, hid, trusts]
  · refine ⟨rfl, fun slot entry hentry => ?_⟩
    dsimp only at hentry
    by_cases hslot : slot = trustedProxyCacheSlot ip
    · subst hslot
      rw [Function.update_self] at hentry
      obtain rfl := Option.some.inj hentry
      simp only [hid, trusts]
    · rw [Function.update_of_ne hslot] at hentry
      exact h _ _ hentry

lemma TrustedProxyCache.Reached.coherent (h : cache.Reached proxies) : cache.Coherent proxies := by
  obtain ⟨calls, hrun⟩ := h
  refine hrun.invariant (fun _ cache => cache.Coherent proxies) ?_ ?_
  · rintro _ cache ⟨runtime, ip⟩ _ ⟨hid, rfl⟩ hcache
    exact (ProxyTrust.isTrustedProxy_spec hid hcache ip).2
  · intro slot entry hentry
    cases hentry

lemma ProxyTrust.exists_isTrustedProxy (hid : proxies runtime.trustedProxyCacheId = runtime.trustedProxies)
    (h : cache.Coherent proxies) (ip : IpAddr) :
    ∃ cache', runtime.isTrustedProxy cache ip = (runtime.trusts ip, cache') ∧ cache'.Coherent proxies := by
  obtain ⟨hanswer, hcoherent⟩ := isTrustedProxy_spec hid h ip
  exact ⟨_, Prod.ext hanswer rfl, hcoherent⟩

/-- The answers to calls that follow one another on a thread. -/
def TrustedProxyCache.answers : TrustedProxyCache → List (ProxyTrust N × IpAddr) → List Bool
  | _, [] => []
  | cache, (runtime, ip) :: calls =>
    (runtime.isTrustedProxy cache ip).1 :: answers (runtime.isTrustedProxy cache ip).2 calls

lemma TrustedProxyCache.Coherent.answers (h : cache.Coherent proxies) {calls : List (ProxyTrust N × IpAddr)}
    (hids : ∀ call ∈ calls, proxies call.1.trustedProxyCacheId = call.1.trustedProxies) :
    cache.answers calls = calls.map fun call => call.1.trusts call.2 := by
  induction calls generalizing cache with
  | nil => rfl
  | cons call calls ih =>
    obtain ⟨hanswer, hcoherent⟩ := ProxyTrust.isTrustedProxy_spec (hids call List.mem_cons_self) h call.2
    rw [TrustedProxyCache.answers, List.map_cons, hanswer,
      ih hcoherent fun call hcall => hids call (List.mem_cons_of_mem _ hcall)]

/-- Whichever configurations and addresses the calls of a thread mix, every answer is that of the
networks of its configuration. -/
theorem answers_eq_uncached {ι : Type} (runtimes : ι → ProxyTrust N)
    (hids : Function.Injective fun i => (runtimes i).trustedProxyCacheId) (calls : List (ι × IpAddr)) :
    TrustedProxyCache.empty.answers (calls.map fun call => (runtimes call.1, call.2)) =
      calls.map fun call => (runtimes call.1).trustedProxies.any fun network => N.contains network call.2 := by
  -- the networks of the configuration with a given id
  let networks : ℕ → List N.Net := Function.extend (fun i => (runtimes i).trustedProxyCacheId)
    (fun i => (runtimes i).trustedProxies) fun _ => []
  have hempty : TrustedProxyCache.empty.Coherent networks := by
    intro slot entry hentry
    cases hentry
  rw [hempty.answers, List.map_map]
  · rfl
  · intro call hcall
    obtain ⟨⟨i, ip⟩, -, rfl⟩ := List.mem_map.mp hcall
    exact hids.extend_apply _ _ i

/-- Trusts the local network or nobody. -/
def localTrust (b : Bool) : ProxyTrust .reference := ⟨b.toNat, if b then [(⟨.v4 0x7F000000, 8⟩ : IpNet)] else []⟩

/-- Two configurations that disagree about one address, and an address that shares its slot. -/
theorem answers_two_configurations :
    TrustedProxyCache.empty.answers
        ([(true, IpAddr.v4 0x7F000001), (false, .v4 0x7F000001), (true, .v6 1), (true, .v4 0x7F000001)].map
          fun call => (localTrust call.1, call.2)) =
      [true, false, false, true] := by
  refine (answers_eq_uncached localTrust ?_ _).trans ?_
  · intro a b hab
    revert a b
    decide
  · decide

end

/-! ### The entries of a chain -/

/-- What the proxies after the client make of the text that the client sent: each appends the address it
got the request from. -/
def forwardedChain (text : Bytes) (appended : List Bytes) : Bytes :=
  text ++ appended.flatMap fun entry => ascii ", " ++ entry

/-- The entries of a chain are those of the text that the client sent, and the appended ones. -/
lemma splitOn_forwardedChain (text : Bytes) {appended : List Bytes} (h : ∀ entry ∈ appended, byte ',' ∉ entry) :
    (forwardedChain text appended).splitOn (byte ',') =
      text.splitOn (byte ',') ++ appended.map fun entry => byte ' ' :: entry := by
  induction appended generalizing text with
  | nil => simp [forwardedChain]
  | cons entry appended ih =>
    have hshift : forwardedChain text (entry :: appended) =
        forwardedChain (text ++ byte ',' :: (byte ' ' :: entry)) appended := by
      simp [forwardedChain, show ascii ", " = [byte ',', byte ' '] by decide]
    have hentry : byte ',' ∉ byte ' ' :: entry := by
      have hne : byte ',' ≠ byte ' ' := by decide
      simp [hne, h entry List.mem_cons_self]
    rw [hshift, ih _ fun e he => h e (List.mem_cons_of_mem _ he), List.splitOn_append_cons_self,
      List.splitOn_eq_singleton hentry]
    simp

lemma visible_of_isAddressByte {b : UInt8} (h : isAddressByte b = true) : Visible b ∧ b ≠ byte ',' := by
  have hall : ∀ n < 256, isAddressByte (UInt8.ofNat n) = true →
      Visible (UInt8.ofNat n) ∧ UInt8.ofNat n ≠ byte ',' := by
    decide +kernel
  have hb := hall b.toNat b.toNat_lt
  rw [UInt8.ofNat_toNat] at hb
  exact hb h

section

variable {A : AddressParser} {N : IpNetCrate} {proxies : ℕ → List N.Net} {runtime : ProxyTrust N}
  {cache : TrustedProxyCache}

lemma AddressParser.comma_notMem {text : Bytes} {ip : IpAddr} (h : A.parse text = some ip) : byte ',' ∉ text := by
  intro hmem
  exact (visible_of_isAddressByte (List.all_eq_true.mp (A.alphabet text ip h) _ hmem)).2 rfl

/-- An appended entry is read as its address. -/
lemma AddressParser.parse_entry {text : Bytes} {ip : IpAddr} (h : A.parse text = some ip) :
    A.parse (trim (byte ' ' :: text)) = some ip := by
  have hvisible : ∀ b ∈ text, Visible b := fun b hb =>
    (visible_of_isAddressByte (List.all_eq_true.mp (A.alphabet text ip h) b hb)).1
  rw [show byte ' ' = 0x20 by decide, trim_space_cons, trim_visible hvisible, h]

/-- The scan passes over trusted entries and stops at the first one that is not trusted. -/
lemma ProxyTrust.resolveLoop_stops (hid : proxies runtime.trustedProxyCacheId = runtime.trustedProxies)
    {peerIp client selected : IpAddr} {text : Bytes} {trusted rest : List Bytes} (h : cache.Coherent proxies)
    (htrusted : ∀ entry ∈ trusted, ∃ ip, A.parse entry = some ip ∧ runtime.trusts ip = true)
    (hclient : A.parse text = some client) (hnot : runtime.trusts client = false) :
    (runtime.resolveLoop A peerIp cache selected
      (trusted.map (fun entry => byte ' ' :: entry) ++ (byte ' ' :: text) :: rest)).1 = client := by
  induction trusted generalizing cache selected with
  | nil =>
    obtain ⟨cache', hcall, -⟩ := exists_isTrustedProxy hid h client
    simp [resolveLoop, A.parse_entry hclient, hcall, hnot]
  | cons entry trusted ih =>
    obtain ⟨ip, hparse, htrust⟩ := htrusted entry List.mem_cons_self
    obtain ⟨cache', hcall, hcache⟩ := exists_isTrustedProxy hid h ip
    simp only [List.map_cons, List.cons_append, resolveLoop, A.parse_entry hparse, hcall, htrust]
    exact ih hcache fun e he => htrusted e (List.mem_cons_of_mem _ he)

/-- A chain that ends in trusted proxies resolves to the address before them, within the limits of the
header. -/
lemma ProxyTrust.resolveClientIp_chain (hid : proxies runtime.trustedProxyCacheId = runtime.trustedProxies)
    {peerIp client : IpAddr} (attacker : Bytes) {text : Bytes} {trusted : List Bytes} (h : cache.Coherent proxies)
    (hpeer : runtime.trusts peerIp = true)
    (htrusted : ∀ entry ∈ trusted, ∃ ip, A.parse entry = some ip ∧ runtime.trusts ip = true)
    (hclient : A.parse text = some client) (hnot : runtime.trusts client = false) :
    (runtime.resolveClientIp A cache peerIp (some (forwardedChain attacker (text :: trusted)))).1 =
      if (forwardedChain attacker (text :: trusted)).count (byte ',') + 1 ≤ 32 ∧
          (forwardedChain attacker (text :: trusted)).length ≤ 4096 then client else peerIp := by
  obtain ⟨cache', hcall, hcache⟩ := exists_isTrustedProxy hid h peerIp
  have hcomma : ∀ entry ∈ text :: trusted, byte ',' ∉ entry := by
    intro entry hentry
    rcases List.mem_cons.mp hentry with rfl | hentry
    · exact A.comma_notMem hclient
    · obtain ⟨ip, hparse, -⟩ := htrusted entry hentry
      exact A.comma_notMem hparse
  have hentries := splitOn_forwardedChain attacker hcomma
  have hcount := length_splitOn (byte ',') (forwardedChain attacker (text :: trusted))
  generalize forwardedChain attacker (text :: trusted) = value at hentries hcount ⊢
  have hmany : (value.splitOn (byte ','))[32]?.isSome = true ↔ ¬value.count (byte ',') + 1 ≤ 32 := by
    rw [isSome_getElem?, hcount, not_le]
  simp only [resolveClientIp, hcall, hpeer, Option.filter_some, decide_eq_true_eq]
  by_cases hlen : value.length ≤ 4096
  · rw [if_pos hlen]
    by_cases hfew : value.count (byte ',') + 1 ≤ 32
    · have hscan : (value.splitOn (byte ',')).reverse = trusted.reverse.map (fun entry => byte ' ' :: entry) ++
          (byte ' ' :: text) :: (attacker.splitOn (byte ',')).reverse := by
        rw [hentries]
        simp
      dsimp only
      rw [if_neg fun h => hmany.mp h hfew, if_pos ⟨hfew, hlen⟩, hscan]
      exact resolveLoop_stops hid hcache (fun entry hentry => htrusted entry (List.mem_reverse.mp hentry))
        hclient hnot
    · dsimp only
      rw [if_pos (hmany.mpr hfew), if_neg fun hboth => hfew hboth.1]
  · rw [if_neg hlen, if_neg fun hboth => hlen hboth.2]

lemma count_forwardedChain (text : Bytes) (appended : List Bytes) (b : UInt8) :
    (forwardedChain text appended).count b = text.count b + (forwardedChain [] appended).count b := by
  simp [forwardedChain, List.count_append]

lemma length_forwardedChain (text : Bytes) (appended : List Bytes) :
    (forwardedChain text appended).length = text.length + (forwardedChain [] appended).length := by
  simp [forwardedChain]

end

/-- The client is the peer unless the peer is a trusted proxy, and then it is the address before the
trusted end of the chain, or the peer if the header is too long. What the client put in front matters only
by its length and its commas. -/
theorem client_address_unspoofable (A : AddressParser) (N : IpNetCrate) (proxies : ℕ → List N.Net)
    (runtime : ProxyTrust N) (hid : proxies runtime.trustedProxyCacheId = runtime.trustedProxies) (cache : TrustedProxyCache)
    (hcache : cache.Reached proxies) (peerIp : IpAddr) :
    (runtime.trusts peerIp = false →
      (∀ forwardedFor, (runtime.resolveClientIp A cache peerIp forwardedFor).1 = peerIp) ∧
        ∀ headers, (runtime.sessionClientIp A cache (some peerIp) headers).1 = some peerIp) ∧
    (runtime.trusts peerIp = true → ∀ (text : Bytes) (client : IpAddr) (trusted : List Bytes),
      A.parse text = some client → runtime.trusts client = false →
      (∀ entry ∈ trusted, ∃ ip, A.parse entry = some ip ∧ runtime.trusts ip = true) →
      (∀ attacker, (runtime.resolveClientIp A cache peerIp (some (forwardedChain attacker (text :: trusted)))).1 =
        if (forwardedChain attacker (text :: trusted)).count (byte ',') + 1 ≤ 32 ∧
            (forwardedChain attacker (text :: trusted)).length ≤ 4096 then client else peerIp) ∧
      ∀ attacker attacker' : Bytes, attacker.length = attacker'.length →
        attacker.count (byte ',') = attacker'.count (byte ',') →
        (runtime.resolveClientIp A cache peerIp (some (forwardedChain attacker (text :: trusted)))).1 =
          (runtime.resolveClientIp A cache peerIp (some (forwardedChain attacker' (text :: trusted)))).1) := by
  have hcoherent := hcache.coherent
  obtain ⟨cache', hcall, -⟩ := ProxyTrust.exists_isTrustedProxy hid hcoherent peerIp
  constructor
  · intro hpeer
    rw [hpeer] at hcall
    constructor
    · intro forwardedFor
      simp [ProxyTrust.resolveClientIp, hcall]
    · intro headers
      simp [ProxyTrust.sessionClientIp, hcall]
  · intro hpeer text client trusted hclient hnot htrusted
    have hchain := fun attacker : Bytes =>
      ProxyTrust.resolveClientIp_chain hid attacker hcoherent hpeer htrusted hclient hnot
    refine ⟨hchain, fun attacker attacker' hlength hcount => ?_⟩
    rw [hchain, hchain, count_forwardedChain attacker, count_forwardedChain attacker', length_forwardedChain attacker,
      length_forwardedChain attacker', hlength, hcount]

/-- The addresses with four decimal parts. -/
def AddressParser.reference : AddressParser where
  parse text :=
    if text.all isAddressByte then
      match (text.splitOn (byte '.')).mapM (parseUnsigned 256) with
      | some [a, b, c, d] => some (.v4 (BitVec.ofNat 32 (((a * 256 + b) * 256 + c) * 256 + d)))
      | _ => none
    else none
  alphabet text ip h := by
    by_contra hnot
    simp [hnot] at h

/-- Trusts the proxies of a private network. -/
def privateTrust : ProxyTrust .reference := ⟨1, [(⟨.v4 0x0A000000, 8⟩ : IpNet)]⟩

theorem client_address_unspoofable_behind_proxy :
    (privateTrust.resolveClientIp .reference TrustedProxyCache.empty (.v4 0xC0000201)
      (some (ascii "203.0.113.7"))).1 = .v4 0xC0000201 ∧
    (privateTrust.resolveClientIp .reference TrustedProxyCache.empty (.v4 0x0A000001)
      (some (forwardedChain (ascii "203.0.113.7, x") [ascii "192.0.2.10", ascii "10.0.0.4"]))).1 =
        .v4 0xC000020A := by
  have hreached : TrustedProxyCache.empty.Reached fun _ => privateTrust.trustedProxies := .refl _
  have htrusted : ∀ entry ∈ [ascii "10.0.0.4"], ∃ ip, AddressParser.reference.parse entry = some ip ∧
      privateTrust.trusts ip = true := by
    intro entry hentry
    obtain rfl := List.mem_singleton.mp hentry
    exact ⟨.v4 0x0A000004, by decide +kernel, by decide +kernel⟩
  constructor
  · exact ((client_address_unspoofable .reference .reference _ _ rfl _ hreached _).1 (by decide +kernel)).1 _
  · refine (((client_address_unspoofable .reference .reference _ _ rfl _ hreached _).2 (by decide +kernel) _
      (.v4 0xC000020A) _ (by decide +kernel) (by decide +kernel) htrusted).1 _).trans (if_pos ?_)
    decide +kernel

end Pingola
