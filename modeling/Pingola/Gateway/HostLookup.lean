import Pingola.Gateway.Transparency
import Pingola.Lib.CaseFold

/-!
# Lookup of the host of an authority

`validate` compares domains by their normalised names, `Gateway::with_shared` files each host under
the domain as it is written, and `Gateway::host` looks up the authority as it is and then its
normalised name. The results say which spellings of a declared domain reach its host.
-/

namespace Pingola
open ByteText

/-! ### Normalised names -/

/-- The last part of `normalized_host`: the host of an authority that was trimmed. -/
def hostOf (authority : Bytes) : Bytes :=
  match stripPrefix [byte '['] authority with
  | some stripped => ((splitOnce (byte ']') stripped).map Prod.fst).getD authority
  | none =>
    match rsplitOnce (byte ':') authority with
    | some (host, port) => if (parseUnsigned 65536 port).isSome then host else authority
    | none => authority

lemma normalizedHost_eq (authority : Bytes) : normalizedHost authority =
    toAsciiLowercase (hostOf ((trim authority).rdropWhile (· == byte '.'))) := rfl

lemma hostOf_toAsciiLowercase (authority : Bytes) :
    hostOf (toAsciiLowercase authority) = toAsciiLowercase (hostOf authority) := by
  have hopen : ∀ b ∈ [byte '['], Caseless b := by decide +kernel
  have hclose : Caseless (byte ']') := by decide
  have hcolon : Caseless (byte ':') := by decide
  rw [hostOf, hostOf, stripPrefix_toAsciiLowercase hopen]
  cases stripPrefix [byte '['] authority with
  | some stripped =>
    simp only [Option.map_some, splitOnce_toAsciiLowercase hclose]
    cases splitOnce (byte ']') stripped <;> rfl
  | none =>
    simp only [Option.map_none, rsplitOnce_toAsciiLowercase hcolon]
    cases rsplitOnce (byte ':') authority with
    | none => rfl
    | some p =>
      simp only [Option.map_some, Prod.map_apply', parseUnsigned_toAsciiLowercase]
      split_ifs <;> rfl

/-- Letter case does not matter to the normalised name. -/
lemma normalizedHost_toAsciiLowercase (authority : Bytes) :
    normalizedHost (toAsciiLowercase authority) = normalizedHost authority := by
  rw [normalizedHost_eq, trim_toAsciiLowercase, rdropWhile_toAsciiLowercase (by decide),
    hostOf_toAsciiLowercase, toAsciiLowercase_toAsciiLowercase, normalizedHost_eq]

lemma hostOf_eq_or_length_lt (authority : Bytes) :
    hostOf authority = authority ∨ (hostOf authority).length < authority.length := by
  rw [hostOf]
  cases hopen : stripPrefix [byte '['] authority with
  | some stripped =>
    cases hclose : splitOnce (byte ']') stripped with
    | none => exact .inl (by simp [hclose])
    | some p =>
      have hlen : stripped.length ≤ authority.length := by
        rw [stripPrefix] at hopen
        split_ifs at hopen
        obtain rfl := Option.some.inj hopen
        simp
      have hsplit := congrArg List.length (splitOnce_eq_some_iff.mp hclose).1
      simp only [List.length_append, List.length_cons] at hsplit
      refine .inr ?_
      simp only [hclose, Option.map_some, Option.getD_some]
      omega
  | none =>
    cases hcolon : rsplitOnce (byte ':') authority with
    | none => exact .inl rfl
    | some p =>
      have hsplit := congrArg List.length (rsplitOnce_eq_some_iff.mp hcolon).1
      simp only [List.length_append, List.length_cons] at hsplit
      dsimp only
      split_ifs
      · exact .inr (by omega)
      · exact .inl rfl

/-- A text whose normalised name is its own lower case, as `validate` asks of a domain. -/
def Canonical (domain : Bytes) : Prop :=
  domain ≠ [] ∧ normalizedHost domain = toAsciiLowercase domain

lemma Canonical.of_toAsciiLowercase_eq {domain spelling : Bytes} (h : Canonical domain)
    (hcase : toAsciiLowercase spelling = toAsciiLowercase domain) : Canonical spelling := by
  refine ⟨fun hnil => h.1 ?_, ?_⟩
  · subst hnil
    exact List.map_eq_nil_iff.mp hcase.symm
  · rw [← normalizedHost_toAsciiLowercase, hcase, normalizedHost_toAsciiLowercase, h.2]

/-- No step of the normalisation takes anything away from a canonical text. -/
lemma Canonical.steps {domain : Bytes} (h : Canonical domain) :
    trim domain = domain ∧ domain.rdropWhile (· == byte '.') = domain ∧ hostOf domain = domain := by
  have hlen := congrArg List.length h.2
  rw [normalizedHost_eq, length_toAsciiLowercase, length_toAsciiLowercase] at hlen
  have htrim := trim_sublist domain
  have hdots := List.rdropWhile_prefix (· == byte '.') (trim domain)
  have hhost := hostOf_eq_or_length_lt ((trim domain).rdropWhile (· == byte '.'))
  have hshort : (hostOf ((trim domain).rdropWhile (· == byte '.'))).length ≤
      ((trim domain).rdropWhile (· == byte '.')).length := by
    rcases hhost with hsame | hlt
    · rw [hsame]
    · exact hlt.le
  have hdotsLe := hdots.length_le
  have htrimLe := htrim.length_le
  have htrimmed : trim domain = domain := htrim.eq_of_length (by omega)
  have hkept : (trim domain).rdropWhile (· == byte '.') = trim domain := hdots.eq_of_length (by omega)
  rw [hkept, htrimmed] at hhost hlen
  rw [htrimmed] at hkept
  refine ⟨htrimmed, hkept, hhost.resolve_right ?_⟩
  omega

/-! ### Spellings of a domain -/

/-- A decimal port from 0 to 65535. -/
structure IsPort (port : Bytes) : Prop where
  nonempty : port ≠ []
  digits : ∀ b ∈ port, isAsciiDigit b = true
  small : decimal port < 65536

/-- An authority: a name, an optional trailing dot and an optional port. -/
def authorityOf (name : Bytes) (dot : Bool) (port : Option Bytes) : Bytes :=
  name ++ (if dot then [byte '.'] else []) ++ (port.elim [] fun p => byte ':' :: p)

lemma IsPort.parseUnsigned_isSome {port : Bytes} (h : IsPort port) :
    (parseUnsigned 65536 port).isSome = true := by
  obtain ⟨b, rest, rfl⟩ := List.exists_cons_of_ne_nil h.nonempty
  have hplus : stripPrefix [byte '+'] (b :: rest) = none := by
    have hne : byte '+' ≠ b := by
      rintro rfl
      exact absurd (h.digits _ List.mem_cons_self) (by decide)
    simp [stripPrefix, hne]
  have hall : (b :: rest).all isAsciiDigit = true := List.all_eq_true.mpr h.digits
  have hsmall := h.small
  simp only [parseUnsigned, hplus, Option.filter_none, Option.getD_none, hall]
  simp [hsmall]

lemma visible_of_isAsciiDigit {b : UInt8} (h : isAsciiDigit b = true) : Visible b := by
  intro w hw hb
  have hall : (whitespace.all fun w => w.all fun b => !isAsciiDigit b) = true := by decide +kernel
  have hnone : isAsciiDigit b = false := by
    simpa using List.all_eq_true.mp (List.all_eq_true.mp hall w hw) b hb
  rw [hnone] at h
  cases h

/-- A bracket that is not closed hides the port. -/
lemma hostOf_append_port {name port : Bytes} (hname : name ≠ []) (hport : IsPort port)
    (hclose : name.head? = some (byte '[') → byte ']' ∉ name) :
    hostOf (name ++ byte ':' :: port) =
      if name.head? = some (byte '[') then name ++ byte ':' :: port else name := by
  obtain ⟨b, rest, rfl⟩ := List.exists_cons_of_ne_nil hname
  simp only [List.head?_cons, Option.some.injEq] at hclose ⊢
  rw [hostOf]
  split_ifs with hb
  · have hstrip : stripPrefix [byte '['] (b :: rest ++ byte ':' :: port) =
        some (rest ++ byte ':' :: port) := by
      simp [stripPrefix, hb]
    have hnot : byte ']' ∉ rest ++ byte ':' :: port := by
      intro hmem
      rcases List.mem_append.mp hmem with hmem | hmem
      · exact hclose hb (List.mem_cons_of_mem _ hmem)
      · rcases List.mem_cons.mp hmem with heq | hmem
        · exact absurd heq (by decide)
        · exact absurd (hport.digits _ hmem) (by decide)
    simp only [hstrip, splitOnce_eq_none_iff.mpr hnot, Option.map_none, Option.getD_none]
  · have hstrip : stripPrefix [byte '['] (b :: rest ++ byte ':' :: port) = none := by
      simp [stripPrefix, Ne.symm hb]
    have hsplit : rsplitOnce (byte ':') (b :: rest ++ byte ':' :: port) = some (b :: rest, port) := by
      refine rsplitOnce_eq_some_iff.mpr ⟨rfl, fun hmem => ?_⟩
      exact absurd (hport.digits _ hmem) (by decide)
    simp only [hstrip, hsplit, hport.parseUnsigned_isSome, if_true]

lemma Canonical.not_mem_close {domain : Bytes} (h : Canonical domain)
    (hopen : domain.head? = some (byte '[')) : byte ']' ∉ domain := by
  obtain ⟨b, rest, rfl⟩ := List.exists_cons_of_ne_nil h.1
  obtain rfl : b = byte '[' := by simpa using hopen
  have hkept := h.steps.2.2
  intro hmem
  have hrest : byte ']' ∈ rest := by
    rcases List.mem_cons.mp hmem with heq | hmem
    · exact absurd heq (by decide)
    · exact hmem
  have hstrip : stripPrefix [byte '['] (byte '[' :: rest) = some rest := by simp [stripPrefix]
  cases hsplit : splitOnce (byte ']') rest with
  | none => exact splitOnce_eq_none_iff.mp hsplit hrest
  | some p =>
    have hlen := congrArg List.length (splitOnce_eq_some_iff.mp hsplit).1
    rw [hostOf, hstrip] at hkept
    simp only [hsplit, Option.map_some, Option.getD_some] at hkept
    rw [hkept] at hlen
    simp at hlen
    omega

lemma Canonical.normalizedHost_authorityOf {name : Bytes} (h : Canonical name) (dot : Bool)
    {port : Option Bytes} (hport : ∀ p ∈ port, IsPort p) :
    normalizedHost (authorityOf name dot port) = toAsciiLowercase
      (if port = none then name
        else if name.head? = some (byte '[') then authorityOf name dot port else authorityOf name dot none) := by
  obtain ⟨htrim, hdots, hhost⟩ := h.steps
  have hdot : ∀ b ∈ (if dot then [byte '.'] else [] : Bytes), Visible b := by
    cases dot <;> decide +kernel
  cases port with
  | none =>
    cases dot with
    | false => simpa [authorityOf] using h.2
    | true =>
      have hkept : trim (name ++ [byte '.']) = name ++ [byte '.'] := trim_append htrim (by simp) hdot
      have hdrop : (name ++ [byte '.']).rdropWhile (· == byte '.') = name := by
        rw [List.rdropWhile_concat_pos _ _ _ (by decide), hdots]
      simp only [authorityOf, if_true, Option.elim_none, List.append_nil]
      rw [normalizedHost_eq, hkept, hdrop, hhost]
  | some p =>
    have hp := hport p rfl
    have hform : authorityOf name dot (some p) = authorityOf name dot none ++ byte ':' :: p := by
      simp [authorityOf]
    have hname : authorityOf name dot none ≠ [] := by simp [authorityOf, h.1]
    have hhead : (authorityOf name dot none).head? = name.head? := by
      obtain ⟨b, rest, rfl⟩ := List.exists_cons_of_ne_nil h.1
      rfl
    have hclose : (authorityOf name dot none).head? = some (byte '[') →
        byte ']' ∉ authorityOf name dot none := by
      intro hopen hmem
      rw [hhead] at hopen
      simp only [authorityOf, Option.elim_none, List.append_nil, List.mem_append] at hmem
      rcases hmem with hmem | hmem
      · exact h.not_mem_close hopen hmem
      · cases dot <;> simp at hmem
        exact absurd hmem (by decide)
    have hkept : trim (authorityOf name dot (some p)) = authorityOf name dot (some p) := by
      rw [authorityOf, List.append_assoc]
      refine trim_append htrim (by simp) fun b hb => ?_
      rcases List.mem_append.mp hb with hb | hb
      · exact hdot b hb
      · rcases List.mem_cons.mp hb with rfl | hb
        · decide
        · exact visible_of_isAsciiDigit (hp.digits b hb)
    have hdrop : (authorityOf name dot (some p)).rdropWhile (· == byte '.') =
        authorityOf name dot (some p) := by
      obtain ⟨init, last, rfl⟩ : ∃ init last, p = init ++ [last] :=
        ⟨p.dropLast, p.getLast hp.nonempty, (List.dropLast_append_getLast _).symm⟩
      have hlast : last ≠ byte '.' := by
        rintro rfl
        exact absurd (hp.digits (byte '.') (by simp)) (by decide)
      rw [hform, ← List.cons_append, ← List.append_assoc, List.rdropWhile_concat_neg _ _ _ (by simpa using hlast)]
    rw [normalizedHost_eq, hkept, hdrop, hform, hostOf_append_port hname hp hclose, hhead]
    simp

/-- A spelling has the domain as its normalised name unless the domain has capital letters or its
port is hidden. -/
lemma Canonical.normalizedHost_eq_iff {domain spelling : Bytes} (h : Canonical domain)
    (hcase : toAsciiLowercase spelling = toAsciiLowercase domain) (dot : Bool) {port : Option Bytes}
    (hport : ∀ p ∈ port, IsPort p) :
    normalizedHost (authorityOf spelling dot port) = domain ↔
      toAsciiLowercase domain = domain ∧
        (port = none ∨ dot = false ∧ domain.head? ≠ some (byte '[')) := by
  have hspelling := h.of_toAsciiLowercase_eq hcase
  have hlength : spelling.length = domain.length := by
    simpa using congrArg List.length hcase
  have hhead : spelling.head? = some (byte '[') ↔ domain.head? = some (byte '[') := by
    rw [← head?_toAsciiLowercase_eq_iff (by decide), hcase, head?_toAsciiLowercase_eq_iff (by decide)]
  rw [hspelling.normalizedHost_authorityOf dot hport]
  split_ifs with hnone hopen
  · simp [hnone, hcase]
  · have hlong : toAsciiLowercase (authorityOf spelling dot port) ≠ domain := by
      intro heq
      have hlen := congrArg List.length heq
      obtain ⟨p, rfl⟩ := Option.ne_none_iff_exists'.mp hnone
      simp [authorityOf] at hlen
      omega
    simp [hlong, hnone, hhead.mp hopen]
  · have hopen' : domain.head? ≠ some (byte '[') := fun hd => hopen (hhead.mpr hd)
    cases dot with
    | false => simp [authorityOf, hcase, hnone, hopen']
    | true =>
      have hlong : toAsciiLowercase (authorityOf spelling true none) ≠ domain := by
        intro heq
        have hlen := congrArg List.length heq
        simp [authorityOf] at hlen
        omega
      simp [hlong, hnone]

/-! ### What validation and construction say about domains -/

lemma bailIf_eq_ok {c : Bool} {message : Bytes} : bailIf c message = .ok () ↔ c = false := by
  cases c <;> simp [bailIf]

lemma checkDomains_spec {name : Bytes} {seen seen' : List (Bytes × Bytes)} {domains : List Bytes}
    (h : checkDomains name seen domains = .ok seen') (hseen : (seen.map Prod.fst).Nodup) :
    (∀ domain ∈ domains, Canonical domain) ∧
      seen'.map Prod.fst = (domains.map normalizedHost).reverse ++ seen.map Prod.fst ∧
      (seen'.map Prod.fst).Nodup := by
  induction domains generalizing seen with
  | nil =>
    obtain rfl := Except.ok.inj h
    exact ⟨by simp, by simp, hseen⟩
  | cons domain domains ih =>
    rw [checkDomains] at h
    obtain ⟨⟨⟩, hbail, h⟩ := except_bind_eq_ok.mp h
    have hpasses := bailIf_eq_ok.mp hbail
    simp only [Bool.or_eq_false_iff, bne_eq_false_iff_eq, List.isEmpty_eq_false_iff] at hpasses
    have hcanonical : Canonical domain := by
      refine ⟨fun hnil => hpasses.1 ?_, hpasses.2⟩
      rw [hpasses.2, hnil]
      rfl
    cases hfind : seen.find? fun p => p.1 = normalizedHost domain with
    | some previous => simp [hfind] at h
    | none =>
      simp only [hfind] at h
      have hnew : normalizedHost domain ∉ seen.map Prod.fst := by
        intro hmem
        obtain ⟨p, hp, heq⟩ := List.mem_map.mp hmem
        have hnot := List.find?_eq_none.mp hfind p hp
        simp [heq] at hnot
      obtain ⟨hall, hkeys, hnodup⟩ := ih h (by simpa using ⟨by simpa using hnew, hseen⟩)
      refine ⟨fun d hd => ?_, ?_, hnodup⟩
      · rcases List.mem_cons.mp hd with rfl | hd
        · exact hcanonical
        · exact hall d hd
      · rw [hkeys]
        simp

lemma validateHosts_spec {upstreams : SortedMap Bytes UpstreamConfig} {seen : List (Bytes × Bytes)}
    {hosts : List (Bytes × HostConfig)} (h : validateHosts upstreams seen hosts = .ok ())
    (hseen : (seen.map Prod.fst).Nodup) :
    (∀ domain ∈ hosts.flatMap fun p => p.2.domains, Canonical domain) ∧
      (((hosts.flatMap fun p => p.2.domains).map normalizedHost).reverse ++ seen.map Prod.fst).Nodup := by
  induction hosts generalizing seen with
  | nil => exact ⟨by simp, by simpa using hseen⟩
  | cons p hosts ih =>
    obtain ⟨name, host⟩ := p
    rw [validateHosts] at h
    obtain ⟨-, -, h⟩ := except_bind_eq_ok.mp h
    obtain ⟨seen', hdomains, h⟩ := except_bind_eq_ok.mp h
    obtain ⟨hall, hkeys, hnodup⟩ := checkDomains_spec hdomains hseen
    obtain ⟨hrest, hdisjoint⟩ := ih h hnodup
    refine ⟨fun d hd => ?_, ?_⟩
    · rw [List.flatMap_cons] at hd
      rcases List.mem_append.mp hd with hd | hd
      · exact hall d hd
      · exact hrest d hd
    · rw [hkeys] at hdisjoint
      simpa using hdisjoint

/-- The domains of a configuration, in the order in which the gateway prepares them. -/
def domains (config : Config) : List Bytes := (hostDomains config).map fun entry => entry.2.2

lemma domains_eq (config : Config) : domains config = config.hosts.entries.flatMap fun p => p.2.domains := by
  simp [domains, hostDomains, List.map_flatMap, Function.comp_def]

/-- `validate` admits canonical domains only, and no two that normalise to one name. -/
lemma RuntimeConfig.domains_spec {parseSocketAddr : Bytes → Option SocketAddr}
    (runtime : RuntimeConfig parseSocketAddr) :
    (∀ domain ∈ domains runtime.config, Canonical domain) ∧
      ((domains runtime.config).map normalizedHost).Nodup := by
  have h := runtime.valid
  rw [validate] at h
  obtain ⟨-, -, h⟩ := except_bind_eq_ok.mp h
  obtain ⟨-, -, h⟩ := except_bind_eq_ok.mp h
  obtain ⟨-, -, h⟩ := except_bind_eq_ok.mp h
  obtain ⟨⟨⟩, hhosts, -⟩ := except_bind_eq_ok.mp h
  obtain ⟨hall, hnodup⟩ := validateHosts_spec hhosts List.nodup_nil
  rw [domains_eq]
  exact ⟨hall, by simpa using hnodup⟩

/-- The host that `with_shared` prepares for a domain. -/
structure PreparedFor (entry : Bytes × HostConfig × Bytes) (prepared : PreparedHost) : Prop where
  domain : prepared.domain = entry.2.2
  name : prepared.name = entry.1
  handler : prepared.handler = entry.2.1.handler
  redirectHttp : prepared.redirectHttp = entry.2.1.redirectHttp

section
variable {env : Surroundings} {config : Config} {upstreams : List PreparedUpstream}
  {entries : List (Bytes × HostConfig × Bytes)} {routing routing' : PreparedRouting}

lemma prepareDomains_lookup_of_not_mem {domain : Bytes}
    (h : prepareDomains env config upstreams entries routing = .ok routing')
    (hdomain : domain ∉ entries.map fun entry => entry.2.2) :
    routing'.hosts.lookup domain = routing.hosts.lookup domain := by
  induction entries generalizing routing with
  | nil =>
    obtain rfl := Except.ok.inj h
    rfl
  | cons entry entries ih =>
    simp only [List.map_cons, List.mem_cons, not_or] at hdomain
    rw [prepareDomains] at h
    split_ifs at h
    rw [ih h hdomain.2, prepareDomain, AList.lookup_insert_ne hdomain.1]

lemma prepareDomains_lookup {entry : Bytes × HostConfig × Bytes}
    (h : prepareDomains env config upstreams entries routing = .ok routing') (hentry : entry ∈ entries)
    (hnodup : (entries.map fun entry => entry.2.2).Nodup) :
    ∃ prepared, routing'.hosts.lookup entry.2.2 = some prepared ∧ PreparedFor entry prepared := by
  induction entries generalizing routing with
  | nil => simp at hentry
  | cons first entries ih =>
    simp only [List.map_cons, List.nodup_cons] at hnodup
    rw [prepareDomains] at h
    split_ifs at h
    rcases List.mem_cons.mp hentry with rfl | hentry
    · rw [prepareDomains_lookup_of_not_mem h hnodup.1, prepareDomain, AList.lookup_insert]
      exact ⟨_, rfl, rfl, rfl, rfl, rfl⟩
    · exact ih h hentry hnodup.2

end

/-! ### Lookup -/

namespace Gateway

variable {env : Surroundings} (gateway : Gateway env)

lemma nodup_domains : (domains gateway.runtime.config).Nodup :=
  List.Nodup.of_map _ gateway.runtime.domains_spec.2

lemma lookup_of_mem {entry : Bytes × HostConfig × Bytes}
    (h : entry ∈ hostDomains gateway.runtime.config) :
    ∃ prepared, gateway.routing.hosts.lookup entry.2.2 = some prepared ∧ PreparedFor entry prepared := by
  obtain ⟨upstreams, -, hprepared⟩ := except_bind_eq_ok.mp gateway.prepared
  exact prepareDomains_lookup hprepared h gateway.nodup_domains

lemma lookup_eq_none {domain : Bytes} (h : domain ∉ domains gateway.runtime.config) :
    gateway.routing.hosts.lookup domain = none := by
  obtain ⟨upstreams, -, hprepared⟩ := except_bind_eq_ok.mp gateway.prepared
  rw [prepareDomains_lookup_of_not_mem hprepared h, AList.lookup_empty]

/-- The table files a host under its domain. -/
lemma domain_of_lookup {domain : Bytes} {prepared : PreparedHost}
    (h : gateway.routing.hosts.lookup domain = some prepared) :
    domain ∈ domains gateway.runtime.config ∧ prepared.domain = domain := by
  have hmem : domain ∈ domains gateway.runtime.config := by
    by_contra hnot
    rw [gateway.lookup_eq_none hnot] at h
    cases h
  obtain ⟨entry, hentry, rfl⟩ := List.mem_map.mp hmem
  obtain ⟨found, hfound, hfor⟩ := gateway.lookup_of_mem hentry
  rw [hfound] at h
  exact ⟨hmem, Option.some.inj h ▸ hfor.domain⟩

/-- An authority reaches the host of a domain under its own text or under its normalised name. -/
lemma host_eq_some_iff {domain : Bytes} {prepared : PreparedHost} (authority : Bytes)
    (h : gateway.routing.hosts.lookup domain = some prepared) :
    gateway.routing.host authority = some prepared ↔
      authority = domain ∨ normalizedHost authority = domain := by
  obtain ⟨hmem, hdomain⟩ := gateway.domain_of_lookup h
  have hkey : ∀ key, gateway.routing.hosts.lookup key = some prepared ↔ key = domain := by
    intro key
    constructor
    · intro hlookup
      rw [← (gateway.domain_of_lookup hlookup).2, hdomain]
    · rintro rfl
      exact h
  rw [PreparedRouting.host]
  cases hexact : gateway.routing.hosts.lookup authority with
  | some found =>
    have hauthority := (gateway.domain_of_lookup hexact).1
    have hcanonical := gateway.runtime.domains_spec.1
    dsimp only
    rw [← hexact, hkey]
    refine ⟨.inl, fun hor => hor.elim id fun hnormal => ?_⟩
    -- two declared domains with one normalised name are one domain
    refine List.inj_on_of_nodup_map gateway.runtime.domains_spec.2 hauthority hmem ?_
    have hlower : toAsciiLowercase domain = domain := by
      rw [← hnormal, (hcanonical authority hauthority).2, toAsciiLowercase_toAsciiLowercase]
    rw [hnormal, (hcanonical domain hmem).2, hlower]
  | none =>
    have hne : authority ≠ domain := by
      rintro rfl
      rw [h] at hexact
      cases hexact
    dsimp only
    split_ifs with hsame
    · simp [hsame, hne]
    · simp [hkey, hne]

/-- The spellings that reach the host of a declared domain, and the authorities for which the
shortcuts of the lookup do not matter. -/
theorem host_eq_iff :
    (∀ entry ∈ hostDomains gateway.runtime.config, ∃ prepared,
      gateway.routing.hosts.lookup entry.2.2 = some prepared ∧ PreparedFor entry prepared ∧
      ∀ spelling dot port, eqIgnoreAsciiCase spelling entry.2.2 = true → (∀ p ∈ port, IsPort p) →
        (gateway.routing.host (authorityOf spelling dot port) = some prepared ↔
          authorityOf spelling dot port = entry.2.2 ∨
            toAsciiLowercase entry.2.2 = entry.2.2 ∧
              (port = none ∨ dot = false ∧ entry.2.2.head? ≠ some (byte '[')))) ∧
    ∀ authority,
      gateway.routing.host authority = gateway.routing.hosts.lookup (normalizedHost authority) ↔
        (authority ∈ domains gateway.runtime.config → toAsciiLowercase authority = authority) := by
  have hcanonical := gateway.runtime.domains_spec.1
  refine ⟨fun entry hentry => ?_, fun authority => ?_⟩
  · obtain ⟨prepared, hlookup, hfor⟩ := gateway.lookup_of_mem hentry
    refine ⟨prepared, hlookup, hfor, fun spelling dot port hcase hport => ?_⟩
    have hdomain := hcanonical entry.2.2 (List.mem_map_of_mem hentry)
    rw [gateway.host_eq_some_iff _ hlookup, hdomain.normalizedHost_eq_iff (beq_iff_eq.mp hcase) dot hport]
  · by_cases hmem : authority ∈ domains gateway.runtime.config
    · obtain ⟨entry, hentry, rfl⟩ := List.mem_map.mp hmem
      obtain ⟨prepared, hlookup, hfor⟩ := gateway.lookup_of_mem hentry
      have hhost : gateway.routing.host entry.2.2 = some prepared :=
        (gateway.host_eq_some_iff _ hlookup).mpr (.inl rfl)
      rw [hhost, (hcanonical _ hmem).2]
      constructor
      · intro hsame _
        rw [← (gateway.domain_of_lookup hsame.symm).2, hfor.domain]
      · intro hlower
        rw [hlower hmem, hlookup]
    · rw [PreparedRouting.host, gateway.lookup_eq_none hmem]
      simp only [hmem, false_implies, iff_true]
      split_ifs with hsame
      · rw [hsame, gateway.lookup_eq_none hmem]
      · rfl

end Gateway

theorem host_eq_iff_upper_case :
    ∃ prepared, ((exampleGateway true).routing.host (ascii "MUSIC.tae00217.cloud:443") = some prepared) ∧
      prepared.domain = ascii "music.tae00217.cloud" := by
  have hentry : (ascii "navidrome_main",
      ({ domains := [ascii "music.tae00217.cloud"], handler := .navidromeMain,
         upstream := some (ascii "navidrome") } : HostConfig), ascii "music.tae00217.cloud") ∈
      hostDomains (exampleGateway true).runtime.config :=
    List.mem_of_getElem? (i := 2) rfl
  obtain ⟨prepared, -, hfor, hspellings⟩ := (exampleGateway true).host_eq_iff.1 _ hentry
  have hport : ∀ p ∈ some (ascii "443"), IsPort p := by
    rintro p ⟨⟩
    exact ⟨by decide, by decide +kernel, by decide⟩
  have hreaches := (hspellings (ascii "MUSIC.tae00217.cloud") false (some (ascii "443"))
    (by decide +kernel) hport).mpr (.inr ⟨by decide +kernel, .inr ⟨rfl, by decide +kernel⟩⟩)
  exact ⟨prepared, hreaches, hfor.domain⟩

/-- The deployed upstreams with one host whose domain starts with a capital letter. -/
def capitalConfig : Config :=
  { exampleConfig .adguardKorea with
    hosts := ⟨[(ascii "couchdb",
      { domains := [ascii "Sync.tae00217.cloud"]
        handler := .couchdb
        upstream := some (ascii "navidrome") })], by simp⟩ }

def capitalRuntime : RuntimeConfig exampleSurroundings.parseSocketAddr where
  config := capitalConfig
  valid := by decide +kernel

lemma capitalRuntime_isOk : (withShared exampleSurroundings capitalRuntime).isOk = true := by decide +kernel

def capitalGateway : Gateway exampleSurroundings where
  runtime := capitalRuntime
  routing := (withShared exampleSurroundings capitalRuntime).toOption.getD ⟨∅, []⟩
  prepared := by
    have hok := capitalRuntime_isOk
    cases h : withShared exampleSurroundings capitalRuntime with
    | error message => simp [h, Except.isOk, Except.toBool] at hok
    | ok routing => rfl

/-- Only its own spelling reaches a domain with a capital letter, for which the table does not hold
the normalised name; a dot before the port hides any domain. -/
theorem host_misses_declared_domain :
    ascii "Sync.tae00217.cloud" ∈ domains capitalGateway.runtime.config ∧
      capitalGateway.routing.host (ascii "sync.tae00217.cloud") = none ∧
      (capitalGateway.routing.host (ascii "Sync.tae00217.cloud")).isSome = true ∧
      capitalGateway.routing.hosts.lookup (normalizedHost (ascii "Sync.tae00217.cloud")) = none ∧
    ascii "music.tae00217.cloud" ∈ domains (exampleGateway true).runtime.config ∧
      (exampleGateway true).routing.host (ascii "music.tae00217.cloud.:443") = none := by
  refine ⟨by decide +kernel, Option.isNone_iff_eq_none.mp ?_, by decide +kernel,
    Option.isNone_iff_eq_none.mp ?_, by decide +kernel, Option.isNone_iff_eq_none.mp ?_⟩
  · decide +kernel
  · decide +kernel
  · decide +kernel

end Pingola
