import Flowie.Security.Realm

/-!
# Deny rules and wildcard subscriptions

A realm answers a subscription by containment: a rule is emitted when its filter covers the
requested one. A deny rule for a part of the requested topics therefore does not stop a wider
subscription, and what an allowed subscription may still deliver is exactly what
`subscribe_allowed_denies` says: the topics in an applicable deny filter that does not contain
the subscription. Retained replay and fan-out do not ask again.
-/

namespace Flowie.Security

open Mqtt LevelFilter List

/-- The matcher of `flowie_mqtt_security_matcher`. -/
def mqttMatcher [Vstr] : Matcher Leaf where
  compileLeaf := compileLeaf
  evaluateLeaf leaf request := evaluateLeaf leaf request.resourceType request.resource request.protocolContext

/-- The identity of a client: its principal, the domain it asks in, its user name and client id. -/
structure Client where
  principal : Principal
  domainId : Bytes
  username : Bytes
  clientId : Bytes
deriving DecidableEq, Repr

/-- The request of `flowie_security_authorize_span` for one entry of a SUBSCRIBE. -/
def subscribeRequest (client : Client) (filter : Bytes) : Request where
  headerValid := true
  principal := client.principal
  domainId := client.domainId
  action := actionSubscribe
  resourceType := .mqttTopic
  resource := filter
  protocolContext := .validated ⟨.topicFilter, client.username, client.clientId⟩ true filter

def SubscribeAllowed (realm : Realm Leaf) (client : Client) (now : UInt64) (filter : Bytes) : Prop :=
  ∃ decision, realmEvaluate realm (subscribeRequest client filter) now = .ok decision ∧ decision.effect = .allow

/-- The subscription is refused by a deny rule. -/
def SubscribeDenied (realm : Realm Leaf) (client : Client) (now : UInt64) (filter : Bytes) : Prop :=
  ∃ decision, realmEvaluate realm (subscribeRequest client filter) now = .ok decision ∧ decision.reason = .denyRule

def DenyRuleFor (client : Client) (rule : Rule) : Prop :=
  rule.effect = .deny ∧ ruleApplies (subscribeRequest client []) rule = true

/-- Adapter rules without placeholders. -/
def PlainAdapter (rules : List Rule) : Prop :=
  ∀ rule ∈ rules, rule.matchKind = .adapter ∧ (levels rule.pattern).any isPlaceholder = false

def requestedFilter (filter : Bytes) : LevelFilter Bytes := parseLevels (innerLevels (levels filter))

theorem ruleFilter_of_plain {pattern : Bytes} (h : (levels pattern).any isPlaceholder = false) :
    ruleFilter pattern = requestedFilter pattern := by
  have hmap : compiledLevels pattern = levels pattern := by
    rw [compiledLevels, ← map_id (levels pattern), map_map]
    apply map_congr_left
    intro segment hs
    have hp : isPlaceholder segment = false := by simpa using List.any_eq_false.1 h segment hs
    simp [compileSegment, hp]
  rw [ruleFilter, hmap, requestedFilter]

section

variable [Vstr] {config : RealmConfig Leaf} {realm : Realm Leaf}

/-- Without rules, or with the leaf compiled from all of them. -/
theorem realmCreate_plain (hm : config.matcher = some mqttMatcher) (hpln : PlainAdapter config.rules)
    (h : realmCreate config = .ok realm) :
    realm.rules = config.rules ∧ (config.rules = [] ∧ realm.compiledLeaf = none ∨ ∃ leaf,
      compileLeaf config.rules (List.range' 0 config.rules.length) = .ok leaf ∧
        realm.matcher = some mqttMatcher ∧ realm.compiledLeaf = some leaf ∧
        realm.matcherRuleIndices = List.range' 0 config.rules.length) := by
  have hind := adapterIndices_eq (fun rule hr => (hpln rule hr).1) 0
  rw [realmCreate, hm, hind] at h
  split at h
  next => cases h
  next =>
    dsimp only at h
    split at h
    next hnil =>
      obtain rfl := Except.ok.inj h
      exact ⟨rfl, .inl ⟨by simpa using hnil, rfl⟩⟩
    next =>
      split at h
      next => cases h
      next leaf hleaf =>
        obtain rfl := Except.ok.inj h
        exact ⟨rfl, .inr ⟨leaf, hleaf, rfl, rfl, rfl⟩⟩

variable {filter : Bytes}

/-- The matcher marks exactly the rules whose filter covers the requested one. -/
theorem adapterMarks_subscribe (hm : config.matcher = some mqttMatcher) (hpln : PlainAdapter config.rules)
    (h : realmCreate config = .ok realm) (client : Client) (hv : topicFilterValidate filter = true) :
    ∃ marks, adapterMarks realm (subscribeRequest client filter) = .ok marks ∧
      ∀ i rule, config.rules[i]? = some rule →
        (resourceMatches (subscribeRequest client filter) marks i rule = true ↔
          (requestedFilter rule.pattern).covers sysLevel (requestedFilter filter) = true) := by
  obtain ⟨hrules, ⟨hnil, hnone⟩ | ⟨leaf, hleaf, hmtr, hcompiled, hindices⟩⟩ := realmCreate_plain hm hpln h
  · exact ⟨none, by rw [adapterMarks, hnone], by simp [hnil]⟩
  obtain ⟨hok, hfrom⟩ := compileLeaf_ok hleaf
  have hne : filter ≠ [] := (levels_topicFilterInner hv).1
  have hresource : mqttSecurityResource filter
      (.validated ⟨.topicFilter, client.username, client.clientId⟩ true filter) =
      .ok ⟨filter, .topicFilter, true, some ⟨.topicFilter, client.username, client.clientId⟩⟩ := by
    simp [mqttSecurityResource, hne]
  obtain ⟨out, hout, hmem⟩ := mem_evaluateLeaf hok hresource hv
  have hlen : leaf.candidates.length = config.rules.length := by simpa using hfrom.length_eq.symm
  have hpos : ∀ p ∈ out, p < config.rules.length := by
    intro p hp
    obtain ⟨c, hc, -⟩ := (hmem p).1 hp
    rw [← hlen]
    exact (List.getElem?_eq_some_iff.1 hc).1
  obtain ⟨marks, hmarks, hmark⟩ := emitMatches_range (length_replicate (a := false)) hpos
  refine ⟨some marks, ?_, fun i rule hrule => ?_⟩
  · rw [adapterMarks, hcompiled, hmtr]
    dsimp only [mqttMatcher, subscribeRequest]
    rw [hout, hrules, hindices]
    dsimp only
    rw [hmarks]
  · have hpln' := hpln rule (mem_of_getElem? hrule)
    have hi : (List.range' 0 config.rules.length)[i]? = some i := by
      simp [(List.getElem?_eq_some_iff.1 hrule).1]
    have hc := compileLeaf_candidate hleaf hi hrule
    rw [resourceMatches, hpln'.1]
    rw [beq_iff_eq, hmark, hmem]
    rw [← ruleFilter_of_plain hpln'.2]
    constructor
    · intro h
      rcases h with h | ⟨c, hc', hcov, -⟩
      · simp [List.getElem?_replicate] at h
      · obtain rfl := Option.mem_unique hc hc'
        exact hcov
    · intro hcov
      refine .inr ⟨_, hc, hcov, fun huses => ?_⟩
      have : (candidateOf rule).usesPlaceholders = false := hpln'.2
      rw [this] at huses
      cases huses

variable {client : Client} {now : UInt64}

/-- A client past the checks on domain, expiry and policy version is refused by a deny rule
    exactly when the filter of one contains the requested filter. -/
theorem subscribeDenied_iff (hm : config.matcher = some mqttMatcher) (hpln : PlainAdapter config.rules)
    (h : realmCreate config = .ok realm) (hcli : requestValid (subscribeRequest client []) = true)
    (hpass : refusedBeforeRules realm (subscribeRequest client []) now = none) (hv : topicFilterValidate filter = true) :
    SubscribeDenied realm client now filter ↔
      ∃ rule ∈ config.rules, DenyRuleFor client rule ∧
        (requestedFilter rule.pattern).covers sysLevel (requestedFilter filter) = true := by
  obtain ⟨marks, hmarks, hmt⟩ := adapterMarks_subscribe hm hpln h client hv
  have hrules := (realmCreate_plain hm hpln h).1
  have heval : realmEvaluate realm (subscribeRequest client filter) now =
      .ok (evaluateRules (subscribeRequest client filter) marks 0 config.rules
        ⟨.deny, .defaultDeny, none, realm.policyVersion⟩) := by
    have hval : requestValid (subscribeRequest client filter) = true := hcli
    have hnone : refusedBeforeRules realm (subscribeRequest client filter) now = none := hpass
    simp only [realmEvaluate, hval, hnone, hmarks, hrules, Bool.not_true, Bool.false_eq_true, if_false]
  have hdenied : SubscribeDenied realm client now filter ↔
      ∃ k rule, config.rules[k]? = some rule ∧ ruleHits (subscribeRequest client filter) marks (0 + k) rule ∧
        rule.effect = .deny := by
    have hinit : (⟨.deny, .defaultDeny, none, realm.policyVersion⟩ : Decision).reason ≠ .denyRule := by simp
    rw [← evaluateRules_denied hinit]
    simp [SubscribeDenied, heval]
  rw [hdenied]
  constructor
  · intro ⟨k, rule, hrule, hit, hdeny⟩
    rw [Nat.zero_add] at hit
    exact ⟨rule, mem_of_getElem? hrule, ⟨hdeny, hit.1⟩, (hmt k rule hrule).1 hit.2⟩
  · intro ⟨rule, hmem, ⟨hdeny, happlies⟩, hcov⟩
    obtain ⟨k, hrule⟩ := List.getElem?_of_mem hmem
    refine ⟨k, rule, hrule, ⟨happlies, ?_⟩, hdeny⟩
    rw [Nat.zero_add]
    exact (hmt k rule hrule).2 hcov

omit [Vstr] in
/-- An allowed subscription passed the checks before the rules and no deny rule decided it. -/
theorem SubscribeAllowed.passed (h : SubscribeAllowed realm client now filter) :
    requestValid (subscribeRequest client []) = true ∧
      refusedBeforeRules realm (subscribeRequest client []) now = none ∧
      ¬SubscribeDenied realm client now filter := by
  obtain ⟨decision, heval, hallow⟩ := h
  have hdecision : ∀ d, realmEvaluate realm (subscribeRequest client filter) now = .ok d → d = decision := by
    intro d hd
    exact Except.ok.inj (hd.symm.trans heval)
  rw [realmEvaluate] at heval
  split at heval
  next => cases heval
  next hval =>
    split at heval
    next reason _ =>
      obtain rfl := Except.ok.inj heval
      cases hallow
    next hnone =>
      split at heval
      next => cases heval
      next marks _ =>
        have hval' : requestValid (subscribeRequest client filter) = true := by simpa using hval
        refine ⟨hval', hnone, ?_⟩
        intro ⟨d, hd, hrsn⟩
        obtain rfl := hdecision d hd
        obtain rfl := Except.ok.inj heval
        exact evaluateRules_allowed (by simp) hallow hrsn

variable {t : Bytes}

/-- The literal filter of a topic asks for that topic, unless it reads as a shared one. -/
theorem requestedFilter_literal (ht : topicNameValidate t = true) :
    requestedFilter t = literal (innerLevels (levels t)) := by
  obtain ⟨-, -, -, hp, hh⟩ := topicNameValidate_iff.1 ht
  apply parseLevels_literal
  intro l hl
  have hmem : l ∈ levels t := by
    revert hl
    rw [innerLevels.eq_def]
    split
    next hshare =>
      rw [hshare]
      split
      · intro hl
        exact mem_cons_of_mem _ (mem_cons_of_mem _ hl)
      · exact id
    next => exact id
  exact topic_levels_literal hp hh hmem

/-- A topic without share prefix is a valid literal filter for itself. -/
theorem topicFilterValidate_literal (ht : topicNameValidate t = true) (hs : sharePrefix.isPrefixOf t = false) :
    topicFilterValidate t = true ∧ innerLevels (levels t) = levels t := by
  obtain ⟨hne, hsize, hutf8, hp, hh⟩ := topicNameValidate_iff.1 ht
  have hshared : sharedFilter t = some t := by simp [sharedFilter, hs]
  refine ⟨topicFilterValidate_iff.2 ⟨hne, hsize, hutf8, t, hshared, ?_⟩, (levels_sharedFilter hshared).symm⟩
  apply levelsValid_literal
  intro l hl
  exact ⟨fun hm => hp (mem_of_mem_levels hl hm), fun hm => hh (mem_of_mem_levels hl hm)⟩

/-- What an allowed subscription says about the deny rules of the realm. None of those for the
    client contains the subscription. The literal subscription to a topic is refused by a deny
    rule exactly when the filter of one accepts the topic asked for, which is the topic itself
    unless it reads `$share/<group>/...`. So when no deny filter for the client overlaps the
    subscription, no topic it matches would be refused. -/
theorem subscribe_allowed_denies {config : RealmConfig Leaf} (hm : config.matcher = some mqttMatcher)
    (hpln : PlainAdapter config.rules) {realm : Realm Leaf} (hrealm : realmCreate config = .ok realm)
    {client : Client} {now : UInt64} {filter : Bytes} (hv : topicFilterValidate filter = true)
    (hallow : SubscribeAllowed realm client now filter) :
    (∀ rule ∈ config.rules, DenyRuleFor client rule →
      (requestedFilter rule.pattern).covers sysLevel (requestedFilter filter) = false) ∧
    (∀ t, topicNameValidate t = true → topicFilterValidate t = true →
      (SubscribeDenied realm client now t ↔ ∃ rule ∈ config.rules, DenyRuleFor client rule ∧
        (requestedFilter rule.pattern).accepts sysLevel (innerLevels (levels t)) = true)) ∧
    ((∀ rule ∈ config.rules, DenyRuleFor client rule →
        (requestedFilter rule.pattern).overlaps sysLevel (requestedFilter filter) = false) →
      ∀ t, topicNameValidate t = true → sharePrefix.isPrefixOf t = false → filterAccepts filter t = true →
        ¬SubscribeDenied realm client now t) := by
  obtain ⟨hcli, hpass, hnot⟩ := hallow.passed
  have hdenied : ∀ t, topicNameValidate t = true → topicFilterValidate t = true →
      (SubscribeDenied realm client now t ↔ ∃ rule ∈ config.rules, DenyRuleFor client rule ∧
        (requestedFilter rule.pattern).accepts sysLevel (innerLevels (levels t)) = true) := by
    intro t ht hlit
    rw [subscribeDenied_iff hm hpln hrealm hcli hpass hlit, requestedFilter_literal ht]
    simp only [covers_literal]
  refine ⟨fun rule hmem hrule => ?_, hdenied, fun hoverlap t ht hs hmt => ?_⟩
  · rw [subscribeDenied_iff hm hpln hrealm hcli hpass hv] at hnot
    by_contra hcov
    exact hnot ⟨rule, hmem, hrule, by simpa using hcov⟩
  · obtain ⟨hlit, hinner⟩ := topicFilterValidate_literal ht hs
    rw [hdenied t ht hlit, hinner]
    intro ⟨rule, hmem, hrule, haccepts⟩
    have hover : (requestedFilter rule.pattern).overlaps sysLevel (requestedFilter filter) = true :=
      overlaps_of_accepts haccepts hmt (levels_ne_nil t)
    rw [hoverlap rule hmem hrule] at hover
    cases hover

end

section Bypass

attribute [local instance] asciiVstr

/-- Everything directly below `a`, except `a/b`. -/
def exceptConfig : RealmConfig Leaf where
  headerValid := true
  policyVersion := 1
  rules := [⟨true, .allow, .any, [], text "d", actionSubscribe, .mqttTopic, .adapter, text "a/+"⟩,
    ⟨true, .deny, .any, [], text "d", actionSubscribe, .mqttTopic, .adapter, text "a/b"⟩]
  matcher := some mqttMatcher

/-- The realm of `exceptConfig`. -/
def exceptRealm : Realm Leaf where
  policyVersion := 1
  rules := exceptConfig.rules
  matcher := some mqttMatcher
  compiledLeaf := some
    ⟨⟨[(text "a", ⟨[(text "b", ⟨[], none, [1], []⟩)], some ⟨[], none, [0], []⟩, [], []⟩)], none, [], []⟩,
      [⟨text "a/+", false⟩, ⟨text "a/b", false⟩]⟩
  matcherRuleIndices := [0, 1]

def guest : Client :=
  ⟨⟨true, text "p", text "user", text "d", text "password", .self, [], [], 0, 1⟩, text "d", text "u", text "c"⟩

theorem exceptRealm_created : realmCreate exceptConfig = .ok exceptRealm := rfl

theorem subscribe_allowed_denies_below_a :
    SubscribeAllowed exceptRealm guest 0 (text "a/+") ∧
    (∀ t, topicNameValidate t = true → topicFilterValidate t = true →
      (SubscribeDenied exceptRealm guest 0 t ↔ ∃ rule ∈ exceptConfig.rules, DenyRuleFor guest rule ∧
        (requestedFilter rule.pattern).accepts sysLevel (innerLevels (levels t)) = true)) := by
  have hallow : SubscribeAllowed exceptRealm guest 0 (text "a/+") :=
    ⟨⟨.allow, .allowRule, some 0, 1⟩, by decide, rfl⟩
  exact ⟨hallow, (subscribe_allowed_denies rfl (by unfold PlainAdapter; decide) exceptRealm_created (by decide)
    hallow).2.1⟩

/-- The subscription to `a/+` is allowed although `a/b`, which it matches, is refused by the
    deny rule. -/
theorem subscribe_bypasses_deny :
    SubscribeAllowed exceptRealm guest 0 (text "a/+") ∧ filterAccepts (text "a/+") (text "a/b") = true ∧
      topicNameValidate (text "a/b") = true ∧ SubscribeDenied exceptRealm guest 0 (text "a/b") :=
  ⟨⟨⟨.allow, .allowRule, some 0, 1⟩, by decide, rfl⟩, by decide, by decide,
    ⟨.deny, .denyRule, some 1, 1⟩, by decide, rfl⟩

end Bypass

end Flowie.Security
