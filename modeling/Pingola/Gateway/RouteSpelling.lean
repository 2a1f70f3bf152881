import Pingola.Lib.PercentEncoding
import Pingola.Routing

/-!
# Spellings of a path

The gateway classifies a path as it is spelled and forwards it so. Equivalent spellings of a path may differ
in escapes of unreserved characters. A rule of a handler reads as many bytes of a path as its text has, and
an escape there takes the path out of the class of the rule, to the default class of the handler.
-/

namespace Pingola
open ByteText

/-- How `classify_route` compares a path with the text of a rule. -/
inductive RouteRule where
  | starts (text : Bytes)
  /-- The path itself and everything below it. -/
  | below (text : Bytes)
  | equals (text : Bytes)

namespace RouteRule

def text : RouteRule → Bytes
  | .starts text | .below text | .equals text => text

def accepts : RouteRule → Bytes → Bool
  | .starts text, path => text.isPrefixOf path
  | .below text, path => path == text || (stripPrefix text path).any fun rest => rest.head? == some (byte '/')
  | .equals text, path => path == text

end RouteRule

def vaultwardenAuthPrefixes : List Bytes :=
  ["/api/accounts/login", "/api/accounts/prelogin", "/identity/connect/token"].map ascii

def navidromeRules : List (RouteRule × RouteClass) :=
  (streamPrefixes.map fun text => (.starts text, .navidromeStream)) ++
    coverPrefixes.map fun text => (.starts text, .navidromeCover)

/-- The rules of a handler, in the order of the source. -/
def routeRules : HandlerKind → List (RouteRule × RouteClass)
  | .static | .couchdb => []
  | .navidromeMain | .navidromeCdn => navidromeRules
  | .vaultwarden =>
    (vaultwardenAuthPrefixes.map fun text => (.below text, .vaultwardenAuth)) ++
      [(.starts (ascii "/notifications/hub"), .vaultwardenHub)]
  | .adguardDns | .adguardKorea => [(.equals (ascii "/dns-query"), .doh)]

/-- The class of a path that no rule of the handler matches. -/
def defaultRoute : HandlerKind → Option RouteClass
  | .static => none
  | .navidromeMain | .navidromeCdn => some .navidromeApi
  | .vaultwarden => some .vaultwarden
  | .couchdb => some .couchdb
  | .adguardDns | .adguardKorea => some .adguardUi

/-- The class of the first rule that matches. -/
def firstMatch (rules : List (RouteRule × RouteClass)) (path : Bytes) : Option RouteClass :=
  (rules.find? fun r => r.1.accepts path).map Prod.snd

/-- The path spells out a rule: its decoded form matches the rule, and no escape of an unreserved character
begins within the text of the rule. -/
def SpellsRule (handler : HandlerKind) (path : Bytes) : Prop :=
  ∃ r ∈ routeRules handler, r.1.accepts (decodeUnreserved path) = true ∧ LiteralWithin r.1.text.length path

/-! ### Rules and escapes -/

namespace RouteRule

variable {rule : RouteRule} {path : Bytes}

lemma accepts_below_iff {text : Bytes} : (below text).accepts path = true ↔
    path = text ∨ text <+: path ∧ (path.drop text.length).head? = some (byte '/') := by
  unfold accepts stripPrefix
  by_cases hpre : text <+: path
  · simp [hpre]
  · simp [hpre]

/-- A path that is literal as far as the rule reads it matches as its decoded form does. -/
lemma accepts_decode (h : LiteralWithin rule.text.length path) :
    rule.accepts (decodeUnreserved path) = rule.accepts path := by
  rw [Bool.eq_iff_iff]
  cases rule with
  | starts text =>
    simp only [accepts, List.isPrefixOf_iff_prefix]
    exact prefix_decodeUnreserved_iff h
  | below text =>
    change LiteralWithin text.length path at h
    rw [accepts_below_iff, accepts_below_iff, decodeUnreserved_eq_iff h, prefix_decodeUnreserved_iff h,
      drop_decodeUnreserved h, head?_decodeUnreserved_iff (by decide) (by decide)]
  | equals text =>
    simp only [accepts, beq_iff_eq]
    exact decodeUnreserved_eq_iff h

lemma prefix_of_accepts (h : rule.accepts path = true) : rule.text <+: path := by
  cases rule with
  | starts text => exact List.isPrefixOf_iff_prefix.mp h
  | below text =>
    rcases accepts_below_iff.mp h with rfl | ⟨hpre, -⟩
    · exact List.prefix_refl _
    · exact hpre
  | equals text =>
    rw [accepts, beq_iff_eq] at h
    rw [h]
    exact List.prefix_refl _

lemma literalWithin_of_accepts (hliteral : byte '%' ∉ rule.text) (h : rule.accepts path = true) :
    LiteralWithin rule.text.length path :=
  literalWithin_of_begins hliteral (prefix_of_accepts h)

end RouteRule

/-! ### The rules of a handler -/

lemma firstMatch_append (rules rest : List (RouteRule × RouteClass)) (path : Bytes) :
    firstMatch (rules ++ rest) path = (firstMatch rules path).or (firstMatch rest path) := by
  rw [firstMatch, List.find?_append, Option.map_or]
  rfl

/-- Rules for one class match if any of them does. -/
lemma firstMatch_map (rule : Bytes → RouteRule) (route : RouteClass) (texts : List Bytes) (path : Bytes) :
    firstMatch (texts.map fun text => (rule text, route)) path =
      if texts.any fun text => (rule text).accepts path then some route else none := by
  induction texts with
  | nil => rfl
  | cons text texts ih =>
    rw [List.map_cons, firstMatch, List.find?_cons]
    cases hmatch : (rule text).accepts path with
    | true => simp [hmatch]
    | false => simpa [hmatch, firstMatch] using ih

lemma classifyRoute_eq (handler : HandlerKind) (path : Bytes) :
    classifyRoute handler path = (firstMatch (routeRules handler) path).or (defaultRoute handler) := by
  have hnavidrome : classifyRoute .navidromeMain path = (firstMatch navidromeRules path).or (some .navidromeApi) := by
    rw [navidromeRules, firstMatch_append, firstMatch_map, firstMatch_map]
    simp only [classifyRoute, RouteRule.accepts]
    split_ifs <;> simp [*]
  have hadguard : classifyRoute .adguardDns path =
      (firstMatch [(.equals (ascii "/dns-query"), .doh)] path).or (some .adguardUi) := by
    rw [← List.map_singleton (f := fun text => (RouteRule.equals text, RouteClass.doh)), firstMatch_map]
    simp only [classifyRoute, RouteRule.accepts, List.any_cons, List.any_nil, Bool.or_false]
    split_ifs <;> simp [*]
  cases handler with
  | static => rfl
  | couchdb => rfl
  | navidromeMain => exact hnavidrome
  | navidromeCdn => exact hnavidrome
  | adguardDns => exact hadguard
  | adguardKorea => exact hadguard
  | vaultwarden =>
    rw [routeRules, firstMatch_append, firstMatch_map,
      ← List.map_singleton (f := fun text => (RouteRule.starts text, RouteClass.vaultwardenHub)), firstMatch_map]
    have hauth : vaultwardenAuthPath path =
        vaultwardenAuthPrefixes.any fun text => (RouteRule.below text).accepts path := rfl
    rw [classifyRoute, hauth]
    simp only [RouteRule.accepts, List.any_cons, List.any_nil, Bool.or_false, defaultRoute]
    by_cases hhub : (ascii "/notifications/hub").isPrefixOf path = true
    · split_ifs <;> simp [*]
    · split_ifs <;> simp [*]

/-- The texts are literal, and those of two classes do not extend each other. -/
lemma routeRules_apart (handler : HandlerKind) :
    (∀ r ∈ routeRules handler, byte '%' ∉ r.1.text ∧ some r.2 ≠ defaultRoute handler) ∧
    ∀ r ∈ routeRules handler, ∀ r' ∈ routeRules handler, r.2 ≠ r'.2 →
      r.1.text.isPrefixOf r'.1.text = false ∧ r'.1.text.isPrefixOf r.1.text = false := by
  cases handler <;> decide +kernel

section

variable {handler : HandlerKind} {path : Bytes} {r r' : RouteRule × RouteClass}

lemma route_eq_of_accepts (hr : r ∈ routeRules handler) (hr' : r' ∈ routeRules handler)
    (h : r.1.accepts path = true) (h' : r'.1.accepts path = true) : r.2 = r'.2 := by
  by_contra hne
  obtain ⟨hnot, hnot'⟩ := (routeRules_apart handler).2 r hr r' hr' hne
  rcases List.prefix_or_prefix_of_prefix (RouteRule.prefix_of_accepts h) (RouteRule.prefix_of_accepts h') with
    hle | hle
  · rw [List.isPrefixOf_iff_prefix.mpr hle] at hnot
    cases hnot
  · rw [List.isPrefixOf_iff_prefix.mpr hle] at hnot'
    cases hnot'

lemma classifyRoute_of_accepts (hr : r ∈ routeRules handler) (h : r.1.accepts path = true) :
    classifyRoute handler path = some r.2 := by
  obtain ⟨first, hfirst⟩ : ∃ first, (routeRules handler).find? (fun r => r.1.accepts path) = some first :=
    Option.isSome_iff_exists.mp (List.find?_isSome.mpr ⟨r, hr, h⟩)
  have haccepts : first.1.accepts path = true := by simpa using List.find?_some hfirst
  rw [classifyRoute_eq, firstMatch, hfirst, route_eq_of_accepts hr (List.mem_of_find?_eq_some hfirst) h haccepts]
  rfl

lemma classifyRoute_of_none (h : ¬ ∃ r ∈ routeRules handler, r.1.accepts path = true) :
    classifyRoute handler path = defaultRoute handler := by
  have hnone : (routeRules handler).find? (fun r => r.1.accepts path) = none :=
    List.find?_eq_none.mpr fun r hr hmatch => h ⟨r, hr, hmatch⟩
  rw [classifyRoute_eq, firstMatch, hnone]
  rfl

/-! ### What another spelling can do -/

/-- A path spells out a rule exactly if the rule matches it. -/
lemma spellsRule_iff : SpellsRule handler path ↔ ∃ r ∈ routeRules handler, r.1.accepts path = true := by
  constructor
  · rintro ⟨r, hr, hmatch, hliteral⟩
    exact ⟨r, hr, (RouteRule.accepts_decode hliteral).symm.trans hmatch⟩
  · rintro ⟨r, hr, hmatch⟩
    have hliteral := RouteRule.literalWithin_of_accepts ((routeRules_apart handler).1 r hr).1 hmatch
    exact ⟨r, hr, (RouteRule.accepts_decode hliteral).trans hmatch, hliteral⟩

lemma SpellsRule.classifyRoute_eq (h : SpellsRule handler path) :
    classifyRoute handler path = classifyRoute handler (decodeUnreserved path) ∧
      classifyRoute handler path ≠ defaultRoute handler := by
  obtain ⟨r, hr, hmatch, hliteral⟩ := h
  have hpath := classifyRoute_of_accepts hr ((RouteRule.accepts_decode hliteral).symm.trans hmatch)
  rw [hpath, classifyRoute_of_accepts hr hmatch]
  exact ⟨rfl, ((routeRules_apart handler).1 r hr).2⟩

lemma classifyRoute_of_not_spellsRule (h : ¬ SpellsRule handler path) :
    classifyRoute handler path = defaultRoute handler :=
  classifyRoute_of_none (mt spellsRule_iff.mpr h)

end

/-- Equivalent paths have the same class exactly if both or neither of them spell out a rule of the handler,
and any spelling has the class of its decoded form or the default class. -/
theorem route_class_of_spelling (handler : HandlerKind) :
    (∀ p q, decodeUnreserved p = decodeUnreserved q →
      (classifyRoute handler p = classifyRoute handler q ↔ (SpellsRule handler p ↔ SpellsRule handler q))) ∧
    ∀ p, classifyRoute handler p = classifyRoute handler (decodeUnreserved p) ∨
      classifyRoute handler p = defaultRoute handler := by
  refine ⟨fun p q heq => ?_, fun p => ?_⟩
  · by_cases hp : SpellsRule handler p
    · by_cases hq : SpellsRule handler q
      · simp only [hp, hq, iff_true]
        rw [hp.classifyRoute_eq.1, heq, hq.classifyRoute_eq.1]
      · simp only [hp, hq, iff_false, not_true_eq_false]
        rw [classifyRoute_of_not_spellsRule hq]
        exact hp.classifyRoute_eq.2
    · by_cases hq : SpellsRule handler q
      · simp only [hp, hq, iff_true, iff_false]
        rw [classifyRoute_of_not_spellsRule hp]
        exact fun hsame => hq.classifyRoute_eq.2 hsame.symm
      · simp only [hp, hq, iff_true]
        rw [classifyRoute_of_not_spellsRule hp, classifyRoute_of_not_spellsRule hq]
  · by_cases hp : SpellsRule handler p
    · exact .inl hp.classifyRoute_eq.1
    · exact .inr (classifyRoute_of_not_spellsRule hp)

/-- The escape begins behind the rule that matches, within the text of a longer one. -/
theorem route_class_of_spelling_auth :
    classifyRoute .vaultwarden (ascii "/api/accounts/login/%61") = some .vaultwardenAuth ∧
      classifyRoute .vaultwarden (ascii "/api/accounts/login/%61") =
        classifyRoute .vaultwarden (ascii "/api/accounts/login/a") := by
  have hspells : ∀ path ∈ [ascii "/api/accounts/login/%61", ascii "/api/accounts/login/a"],
      SpellsRule .vaultwarden path := by
    intro path hpath
    refine ⟨(.below (ascii "/api/accounts/login"), .vaultwardenAuth), List.mem_cons_self, ?_⟩
    revert path
    decide +kernel
  refine ⟨by decide +kernel, ((route_class_of_spelling .vaultwarden).1 _ _ (by decide +kernel)).mpr ?_⟩
  exact iff_of_true (hspells _ (by decide)) (hspells _ (by decide))

/-- With one escape in its last segment the token endpoint has the class without a limit. -/
theorem route_class_of_escaped_token :
    decodeUnreserved (ascii "/identity/connect/%74oken") = decodeUnreserved (ascii "/identity/connect/token") ∧
      classifyRoute .vaultwarden (ascii "/identity/connect/%74oken") = some .vaultwarden ∧
      classifyRoute .vaultwarden (ascii "/identity/connect/token") = some .vaultwardenAuth ∧
      RouteClass.vaultwarden.defaultRateLimit = none ∧
      RouteClass.vaultwardenAuth.defaultRateLimit = some (5 / 60, 3) := by
  decide +kernel

end Pingola
