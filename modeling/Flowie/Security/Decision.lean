import Flowie.Security.DenyBypass

/-!
# The verdict of a realm

Whether a rule applies to a request depends on the two alone, also for an adapter rule, which is
matched through the topic index and the position of its candidate (`adapterMarks_eq`). The rule
loop then computes the verdict: a deny rule that applies, else an allow rule that applies, else
the default (`evaluateRules_verdict`). The verdict depends on the rules as a set, so their order
and repetition do not matter (`realm_verdict`).

A request for an MQTT topic whose resource is malformed is refused as such by a realm with adapter
rules, before any rule is looked at.
-/

namespace Flowie.Security

open Mqtt LevelFilter List

/-- The matcher relates the pattern to the requested resource: the compiled filter contains the
    request, and every placeholder stands for the identity found there. -/
def adapterMatches (request : Request) (pattern : Bytes) : Bool :=
  request.resourceType == .mqttTopic &&
    match mqttSecurityResource request.resource request.protocolContext with
    | .error _ => false
    | .ok r =>
      (ruleFilter pattern).covers sysLevel (parseLevels (requestLevels r.kind r.resource)) &&
        (!(levels pattern).any isPlaceholder || placeholdersMatch pattern r.resource r.context)

/-- The rule applies to the request: domain, action, resource type, subject and resource. Without
    a matcher no adapter rule does. -/
def applicable (matcher : Bool) (request : Request) (rule : Rule) : Bool :=
  ruleApplies request rule &&
    match rule.matchKind with
    | .exact => rule.pattern == request.resource
    | .pfx => rule.pattern.isPrefixOf request.resource
    | .adapter => matcher && adapterMatches request rule.pattern

/-- Deny wins over allow, and what no rule applies to is denied by default. -/
def verdict (applies : Rule → Bool) (rules : List Rule) (default : Effect × Reason) : Effect × Reason :=
  if rules.any fun rule => applies rule && rule.effect == .deny then (.deny, .denyRule)
  else if rules.any fun rule => applies rule && rule.effect == .allow then (.allow, .allowRule)
  else default

variable {applies : Rule → Bool} {rules : List Rule}

/-- The verdict depends on which rules there are. -/
theorem verdict_congr {rules' : List Rule} (h : ∀ rule, rule ∈ rules ↔ rule ∈ rules')
    (default : Effect × Reason) : verdict applies rules default = verdict applies rules' default := by
  have hany : ∀ p : Rule → Bool, rules.any p = rules'.any p := by
    intro p
    rw [Bool.eq_iff_iff, any_eq_true, any_eq_true]
    simp only [h]
  simp only [verdict, hany]

theorem evaluateRules_verdict {request : Request} {marks : Option (List Bool)} {i : Nat} {decision : Decision}
    (h : ∀ k rule, rules[k]? = some rule →
      (ruleApplies request rule && resourceMatches request marks (i + k) rule) = applies rule) :
    ((evaluateRules request marks i rules decision).effect, (evaluateRules request marks i rules decision).reason) =
      verdict applies rules (decision.effect, decision.reason) := by
  induction rules generalizing i decision with
  | nil => rfl
  | cons rule rest ih =>
    have hrule : (ruleApplies request rule && resourceMatches request marks i rule) = applies rule := h 0 rule rfl
    have hrest : ∀ k r, rest[k]? = some r →
        (ruleApplies request r && resourceMatches request marks (i + 1 + k) r) = applies r := by
      intro k r hr
      rw [show i + 1 + k = i + (k + 1) by omega]
      exact h (k + 1) r hr
    rw [evaluateRules, ← Bool.not_and, hrule]
    cases ha : applies rule with
    | false =>
      rw [if_pos (by rfl), ih hrest]
      simp [verdict, ha]
    | true =>
      rw [if_neg (by decide)]
      cases he : rule.effect with
      | deny => simp [verdict, ha, he]
      | allow =>
        rw [if_neg (by decide), ih hrest]
        simp [verdict, ha, he]

section

variable [Vstr]

/-- The resource of an MQTT request is one the protocol allows. -/
def WellFormed (request : Request) : Prop :=
  request.resourceType = .mqttTopic →
    ∃ r, mqttSecurityResource request.resource request.protocolContext = .ok r ∧ ResourceValid r.kind r.resource

/-- A resource that carries the provenance of the parser is one the parser accepted. -/
def ParserValidated (request : Request) : Prop :=
  ∀ r, mqttSecurityResource request.resource request.protocolContext = .ok r → r.validated = true →
    ResourceValid r.kind r.resource

omit [Vstr] in
theorem mqttSecurityResource_error {raw : Bytes} {pc : ProtocolContext} {e : Errno}
    (h : mqttSecurityResource raw pc = .error e) : e = .eproto := by
  cases pc with
  | absent => cases h
  | short => exact (Except.error.inj h).symm
  | kindOnly | full =>
    rw [mqttSecurityResource] at h
    split at h
    · exact (Except.error.inj h).symm
    · cases h
  | validated context trusted copy =>
    rw [mqttSecurityResource] at h
    split at h
    · exact (Except.error.inj h).symm
    split at h
    · exact (Except.error.inj h).symm
    · cases h

variable {request : Request}

/-- A malformed resource is refused by the matcher. -/
theorem evaluateLeaf_malformed (leaf : Leaf) (hparser : ParserValidated request) (h : ¬WellFormed request) :
    evaluateLeaf leaf request.resourceType request.resource request.protocolContext = .error .eproto := by
  rw [WellFormed, Classical.not_imp] at h
  obtain ⟨htype, hnone⟩ := h
  rw [evaluateLeaf, if_neg (by simp [htype])]
  cases hr : mqttSecurityResource request.resource request.protocolContext with
  | error e => rw [mqttSecurityResource_error hr]
  | ok r =>
    have hinvalid : ¬ResourceValid r.kind r.resource := fun hv => hnone ⟨r, hr, hv⟩
    have hraw : r.validated = false := by
      cases hval : r.validated with
      | false => rfl
      | true => exact absurd (hparser r hr hval) hinvalid
    dsimp only
    cases hk : r.kind with
    | topicFilter =>
      rw [hk] at hinvalid
      have hfil : topicFilterValidate r.resource = false := by simpa [ResourceValid] using hinvalid
      simp [hraw, hfil]
    | topic =>
      rw [hk] at hinvalid
      have hname : topicNameValidate r.resource = false := by simpa [ResourceValid] using hinvalid
      simp [hraw, hname]
    | unknown =>
      rw [hk] at hinvalid
      have hname : topicNameValidate r.resource = false := by simpa [ResourceValid] using hinvalid
      simp [hraw, hname]

variable {leaf : Leaf}

/-- A well-formed request emits the candidates whose pattern the matcher relates to it. -/
theorem evaluateLeaf_wellFormed (hok : LeafOk leaf) (h : WellFormed request) :
    ∃ out, evaluateLeaf leaf request.resourceType request.resource request.protocolContext = .ok out ∧
      ∀ p, p ∈ out ↔ ∃ c, leaf.candidates[p]? = some c ∧ adapterMatches request c.pattern = true := by
  by_cases htype : request.resourceType = .mqttTopic
  · obtain ⟨r, hr, hv⟩ := h htype
    obtain ⟨out, hout, hmem⟩ := mem_evaluateLeaf hok hr hv
    refine ⟨out, by rw [htype]; exact hout, ?_⟩
    intro p
    rw [hmem]
    refine exists_congr fun c => and_congr_right fun hc => ?_
    rw [hok.uses c (mem_of_getElem? hc), adapterMatches, htype, hr]
    cases (levels c.pattern).any isPlaceholder <;> simp
  · refine ⟨[], by rw [evaluateLeaf, if_pos htype], ?_⟩
    intro p
    simp [adapterMatches, htype]

def HasLeaf (config : RealmConfig Leaf) : Prop :=
  config.matcher.isSome = true ∧ ∃ rule ∈ config.rules, rule.matchKind = .adapter

/-- The matcher of the configuration is the one of the MQTT adapter, if there is one. -/
def MqttConfig (config : RealmConfig Leaf) : Prop := ∀ matcher, config.matcher = some matcher → matcher = mqttMatcher

variable {rules : List Rule}

omit [Vstr] in
theorem adapterIndices_eq_nil : adapterIndices 0 rules = [] ↔ ∀ rule ∈ rules, rule.matchKind ≠ .adapter := by
  rw [eq_nil_iff_forall_not_mem]
  constructor
  · intro h rule hmem had
    obtain ⟨j, hj⟩ := List.getElem?_of_mem hmem
    exact h j (mem_adapterIndices.2 ⟨j, rule, by omega, hj, had⟩)
  · intro h k hk
    obtain ⟨j, rule, -, hj, had⟩ := mem_adapterIndices.1 hk
    exact h rule (mem_of_getElem? hj) had

variable {config : RealmConfig Leaf} {realm : Realm Leaf}

/-- What a created realm is made of. -/
theorem realmCreate_ok (hm : MqttConfig config) (h : realmCreate config = .ok realm) :
    realm.rules = config.rules ∧ realm.policyVersion = config.policyVersion ∧
      (¬HasLeaf config ∧ realm.compiledLeaf = none ∨
        HasLeaf config ∧ ∃ leaf, compileLeaf config.rules (adapterIndices 0 config.rules) = .ok leaf ∧
          realm.compiledLeaf = some leaf ∧ realm.matcher = some mqttMatcher ∧
          realm.matcherRuleIndices = adapterIndices 0 config.rules) := by
  rw [realmCreate] at h
  split at h
  next => cases h
  next =>
    cases hmtr : config.matcher with
    | none =>
      rw [hmtr] at h
      obtain rfl := Except.ok.inj h
      exact ⟨rfl, rfl, .inl ⟨fun hl => by simp [HasLeaf, hmtr] at hl, rfl⟩⟩
    | some matcher =>
      obtain rfl := hm matcher hmtr
      rw [hmtr] at h
      dsimp only at h
      split at h
      next hnil =>
        obtain rfl := Except.ok.inj h
        have hno := adapterIndices_eq_nil.1 (List.isEmpty_iff.1 hnil)
        refine ⟨rfl, rfl, .inl ⟨?_, rfl⟩⟩
        rintro ⟨-, rule, hmem, had⟩
        exact hno rule hmem had
      next hsome =>
        split at h
        next => cases h
        next leaf hleaf =>
          obtain rfl := Except.ok.inj h
          have hhas : ∃ rule ∈ config.rules, rule.matchKind = .adapter := by
            by_contra hno
            exact hsome (List.isEmpty_iff.2 (adapterIndices_eq_nil.2 fun rule hmem ha => hno ⟨rule, hmem, ha⟩))
          exact ⟨rfl, rfl, .inr ⟨⟨by simp [hmtr], hhas⟩, leaf, hleaf, rfl, rfl, rfl⟩⟩

/-- The marks agree with applicability; a malformed request gets none from a compiled leaf. -/
theorem adapterMarks_eq (hm : MqttConfig config) (h : realmCreate config = .ok realm) (hparser : ParserValidated request) :
    (HasLeaf config ∧ ¬WellFormed request → adapterMarks realm request = .error .eproto) ∧
    (¬HasLeaf config ∨ WellFormed request → ∃ marks, adapterMarks realm request = .ok marks ∧
      ∀ i rule, config.rules[i]? = some rule →
        (ruleApplies request rule && resourceMatches request marks i rule) =
          applicable config.matcher.isSome request rule) := by
  obtain ⟨hrules, -, ⟨hno, hnone⟩ | ⟨hhas, leaf, hleaf, hcompiled, hmtr, hindices⟩⟩ := realmCreate_ok hm h
  · refine ⟨fun hc => absurd hc.1 hno, fun _ => ⟨none, by rw [adapterMarks, hnone], ?_⟩⟩
    intro i rule hrule
    rw [applicable, resourceMatches]
    cases hkind : rule.matchKind with
    | exact => rfl
    | pfx => rfl
    | adapter =>
      -- an adapter rule without a leaf: there is no matcher
      have hmnone : config.matcher.isSome = false := by
        by_contra hsome
        exact hno ⟨by rwa [Bool.not_eq_false] at hsome, rule, mem_of_getElem? hrule, hkind⟩
      simp [hmnone]
  · obtain ⟨hok, hfrom⟩ := compileLeaf_ok hleaf
    constructor
    · intro hc
      rw [adapterMarks, hcompiled, hmtr]
      simp only [mqttMatcher, evaluateLeaf_malformed leaf hparser hc.2]
    · intro hc
      have hwell : WellFormed request := hc.resolve_left fun hno => hno hhas
      obtain ⟨out, hout, hmem⟩ := evaluateLeaf_wellFormed hok hwell
      have hpos : ∀ p ∈ out, ∃ i, (adapterIndices 0 config.rules)[p]? = some i ∧ i < config.rules.length := by
        intro p hp
        obtain ⟨c, hc, -⟩ := (hmem p).1 hp
        have hlt : p < (adapterIndices 0 config.rules).length :=
          hfrom.length_eq ▸ (List.getElem?_eq_some_iff.1 hc).1
        obtain ⟨j, rule, hj, hrule, -⟩ := mem_adapterIndices.1 (getElem_mem hlt)
        refine ⟨_, List.getElem?_eq_getElem hlt, ?_⟩
        rw [hj, Nat.zero_add]
        exact (List.getElem?_eq_some_iff.1 hrule).1
      obtain ⟨marks, hmarks, hmark⟩ := emitMatches_spec (length_replicate (a := false)) hpos
      refine ⟨some marks, ?_, ?_⟩
      · rw [adapterMarks, hcompiled, hmtr]
        simp only [mqttMatcher, hout, hrules, hindices, hmarks]
      intro i rule hrule
      rw [applicable, resourceMatches]
      cases hkind : rule.matchKind with
      | exact => rfl
      | pfx => rfl
      | adapter =>
        -- the candidate at any position of the rule carries its pattern
        have hiff : marks[i]? = some true ↔ adapterMatches request rule.pattern = true := by
          rw [hmark]
          constructor
          · rintro (hfls | ⟨p, hp, hix⟩)
            · simp [List.getElem?_replicate] at hfls
            obtain ⟨c, hc, hmt⟩ := (hmem p).1 hp
            rw [compileLeaf_candidate hleaf hix hrule] at hc
            rwa [← Option.some.inj hc] at hmt
          · intro hmt
            have hi : i ∈ adapterIndices 0 config.rules := mem_adapterIndices.2 ⟨i, rule, by omega, hrule, hkind⟩
            obtain ⟨p, hix⟩ := List.getElem?_of_mem hi
            exact .inr ⟨p, (hmem p).2 ⟨_, compileLeaf_candidate hleaf hix hrule, hmt⟩, hix⟩
        have heq : (marks[i]? == some true) = adapterMatches request rule.pattern := by
          rw [Bool.eq_iff_iff, beq_iff_eq, hiff]
        simp only [heq, hhas.1, Bool.true_and]

def Compilable (rule : Rule) : Prop :=
  rule.headerValid = true ∧ rule.resourceType = .mqttTopic ∧
    ∃ filter uses, filterCompile rule.pattern (patternMax + 1) = .ok (filter, uses) ∧ topicFilterValidate filter = true

/-- Compilation succeeds when every candidate compiles, whatever the others are. -/
theorem compileLeafLoop_isOk {indices : List Nat} :
    (∃ leaf', compileLeafLoop rules leaf indices = .ok leaf') ↔
      ∀ index ∈ indices, ∃ rule, rules[index]? = some rule ∧ rule.matchKind = .adapter ∧ Compilable rule := by
  induction indices generalizing leaf with
  | nil => simp [compileLeafLoop]
  | cons index rest ih =>
    rw [compileLeafLoop, forall_mem_cons]
    cases hrule : rules[index]? with
    | none => simp
    | some rule =>
      dsimp only
      by_cases hkind : (!rule.headerValid || rule.matchKind != .adapter || rule.resourceType != .mqttTopic) = true
      · rw [if_pos hkind]
        refine iff_of_false (by simp) ?_
        rintro ⟨⟨rule', hsome, had, hhdr, htype, -⟩, -⟩
        obtain rfl := Option.some.inj hsome
        simp [had, hhdr, htype] at hkind
      · rw [if_neg hkind]
        have hrulekind : rule.headerValid = true ∧ rule.matchKind = .adapter ∧ rule.resourceType = .mqttTopic := by
          simpa [and_assoc] using hkind
        have hthis : (∃ rule', some rule = some rule' ∧ rule'.matchKind = .adapter ∧ Compilable rule') ↔
            ∃ filter uses, filterCompile rule.pattern (patternMax + 1) = .ok (filter, uses) ∧
              topicFilterValidate filter = true := by
          simp [Compilable, hrulekind]
        rw [hthis]
        cases hcompile : filterCompile rule.pattern (patternMax + 1) with
        | error e => simp
        | ok compiled =>
          obtain ⟨filter, uses⟩ := compiled
          by_cases hval : topicFilterValidate filter = true
          · obtain ⟨root', b, hins, -⟩ := topicIndexInsertBound_spec hval leaf.topics leaf.candidates.length
            simp only [hval, Bool.not_true, Bool.false_eq_true, if_false, hins, ih]
            simp [hval]
          · simp [hval]

/-- A realm is created from any number of rules within the limit, when the adapter rules compile. -/
theorem realmCreate_isOk (hm : MqttConfig config) :
    (∃ realm, realmCreate config = .ok realm) ↔
      config.headerValid = true ∧ config.rules.length ≤ maxRules ∧ (config.rules ≠ [] → config.policyVersion ≠ 0) ∧
        (config.matcher.isSome = true → ∀ rule ∈ config.rules, rule.matchKind = .adapter → Compilable rule) := by
  have hcompile : adapterIndices 0 config.rules ≠ [] →
      ((∃ leaf, compileLeaf config.rules (adapterIndices 0 config.rules) = .ok leaf) ↔
        ∀ rule ∈ config.rules, rule.matchKind = .adapter → Compilable rule) := by
    intro hne
    have hrules : config.rules ≠ [] := by
      intro hnil
      rw [hnil] at hne
      exact hne rfl
    rw [compileLeaf, if_neg (by simp [hrules, hne]), compileLeafLoop_isOk]
    constructor
    · intro hall rule hmem had
      obtain ⟨j, hj⟩ := List.getElem?_of_mem hmem
      obtain ⟨rule', hrule', -, hc⟩ := hall j (mem_adapterIndices.2 ⟨j, rule, by omega, hj, had⟩)
      rwa [Option.mem_unique hj hrule']
    · intro hall k hk
      obtain ⟨j, rule, hkj, hj, had⟩ := mem_adapterIndices.1 hk
      rw [Nat.zero_add] at hkj
      exact ⟨rule, hkj ▸ hj, had, hall rule (mem_of_getElem? hj) had⟩
  rw [realmCreate]
  by_cases hguard : (!config.headerValid || decide (config.rules.length > maxRules) ||
      (!config.rules.isEmpty && config.policyVersion == 0)) = true
  · rw [if_pos hguard]
    refine iff_of_false (by simp) ?_
    rintro ⟨hhdr, hlen, hver, -⟩
    simp only [hhdr, Bool.not_true, Bool.false_or, Bool.or_eq_true, decide_eq_true_eq, Bool.and_eq_true,
      Bool.not_eq_true', isEmpty_eq_false_iff, beq_iff_eq] at hguard
    rcases hguard with hlong | ⟨hne, hzero⟩
    · omega
    · exact hver hne hzero
  · rw [if_neg hguard]
    have hpass : config.headerValid = true ∧ config.rules.length ≤ maxRules ∧
        (config.rules ≠ [] → config.policyVersion ≠ 0) := by
      simpa [not_or, and_assoc] using hguard
    rw [and_iff_right hpass.1, and_iff_right hpass.2.1, and_iff_right hpass.2.2]
    cases hmtr : config.matcher with
    | none => simp
    | some matcher =>
      obtain rfl := hm matcher hmtr
      dsimp only
      by_cases hempty : adapterIndices 0 config.rules = []
      · have hno := adapterIndices_eq_nil.1 hempty
        simp only [hempty, isEmpty_nil, if_true]
        exact iff_of_true ⟨_, rfl⟩ fun _ rule hmem had => absurd had (hno rule hmem)
      · rw [if_neg (by simpa using hempty), ← hcompile hempty]
        cases hleaf : compileLeaf config.rules (adapterIndices 0 config.rules) with
        | error e => simp [mqttMatcher, hleaf]
        | ok leaf => simp [mqttMatcher, hleaf]

/-- A request of a principal whose own domain it is in, that has not expired and knows the policy
    version. -/
structure Current (config : RealmConfig Leaf) (request : Request) (now : UInt64) : Prop where
  valid : requestValid request = true
  domain : request.domainId = request.principal.domainId
  unexpired : request.principal.expiresAt = 0 ∨ now < request.principal.expiresAt
  version : request.principal.policyVersion = config.policyVersion

/-- The checks before the rules pass, so the marks or the rules decide. -/
theorem realmEvaluate_verdict (hm : MqttConfig config) (hrealm : realmCreate config = .ok realm) {now : UInt64}
    (hcur : Current config request now) (hparser : ParserValidated request) :
    (HasLeaf config ∧ ¬WellFormed request → realmEvaluate realm request now = .error .eproto) ∧
    (¬HasLeaf config ∨ WellFormed request → ∃ decision, realmEvaluate realm request now = .ok decision ∧
      (decision.effect, decision.reason) =
        verdict (applicable config.matcher.isSome request) config.rules (.deny, .defaultDeny)) := by
  obtain ⟨hrules, hpolicy, -⟩ := realmCreate_ok hm hrealm
  obtain ⟨hbad, hgood⟩ := adapterMarks_eq hm hrealm hparser
  have hval := hcur.valid
  have hlive : ¬(request.principal.expiresAt ≠ 0 ∧ request.principal.expiresAt ≤ now) := by
    rintro ⟨hne, hle⟩
    rcases hcur.unexpired with h | h
    · exact hne h
    · exact absurd hle (UInt64.not_le.2 h)
  have hpass : refusedBeforeRules realm request now = none := by
    rw [refusedBeforeRules, if_neg (by simp [hcur.domain]), if_neg hlive, if_neg (by simp [hpolicy, hcur.version])]
  constructor
  · intro hc
    simp only [realmEvaluate, hval, hpass, hbad hc, Bool.not_true, Bool.false_eq_true, if_false]
  intro hc
  obtain ⟨marks, hmarks, happlies⟩ := hgood hc
  refine ⟨evaluateRules request marks 0 config.rules ⟨.deny, .defaultDeny, none, realm.policyVersion⟩, ?_, ?_⟩
  · simp only [realmEvaluate, hval, hpass, hmarks, hrules, Bool.not_true, Bool.false_eq_true, if_false]
  · exact evaluateRules_verdict fun k rule hrule => by rw [Nat.zero_add]; exact happlies k rule hrule

/-- The rules of a realm decide every current request. A deny rule that applies wins, then an
    allow rule that applies, and else the default denies; only a malformed MQTT resource is refused
    without a decision, when there are adapter rules. Any rules with the same members, so any
    reordering and repetition within the limit, make a realm that decides alike. -/
theorem realm_verdict {config : RealmConfig Leaf} (hm : MqttConfig config) {realm : Realm Leaf}
    (hrealm : realmCreate config = .ok realm) {request : Request} {now : UInt64} (hcur : Current config request now)
    (hparser : ParserValidated request) :
    (HasLeaf config ∧ ¬WellFormed request → realmEvaluate realm request now = .error .eproto) ∧
    (¬HasLeaf config ∨ WellFormed request → ∃ decision, realmEvaluate realm request now = .ok decision ∧
      (decision.effect, decision.reason) =
        verdict (applicable config.matcher.isSome request) config.rules (.deny, .defaultDeny)) ∧
    ∀ rules, (∀ rule, rule ∈ rules ↔ rule ∈ config.rules) → rules.length ≤ maxRules →
      ∃ realm', realmCreate { config with rules := rules } = .ok realm' ∧
        (realmEvaluate realm' request now).map (·.effect) = (realmEvaluate realm request now).map (·.effect) := by
  obtain ⟨hbad, hgood⟩ := realmEvaluate_verdict hm hrealm hcur hparser
  refine ⟨hbad, hgood, ?_⟩
  intro rules hsame hlen
  have hm' : MqttConfig { config with rules := rules } := hm
  have hcur' : Current { config with rules := rules } request now :=
    ⟨hcur.valid, hcur.domain, hcur.unexpired, hcur.version⟩
  have hleaf : HasLeaf { config with rules := rules } ↔ HasLeaf config := by simp [HasLeaf, hsame]
  obtain ⟨realm', hrealm'⟩ : ∃ realm', realmCreate { config with rules := rules } = .ok realm' := by
    obtain ⟨hhdr, -, hpolicy, hcompilable⟩ := (realmCreate_isOk hm).1 ⟨realm, hrealm⟩
    refine (realmCreate_isOk hm').2 ⟨hhdr, hlen, ?_, ?_⟩
    · intro hne
      obtain ⟨rule, hmem⟩ := exists_mem_of_ne_nil _ hne
      exact hpolicy (ne_nil_of_mem ((hsame rule).1 hmem))
    · intro hsome rule hmem
      exact hcompilable hsome rule ((hsame rule).1 hmem)
  obtain ⟨hbad', hgood'⟩ := realmEvaluate_verdict hm' hrealm' hcur' hparser
  refine ⟨realm', hrealm', ?_⟩
  by_cases hc : HasLeaf config ∧ ¬WellFormed request
  · rw [hbad hc, hbad' ⟨hleaf.2 hc.1, hc.2⟩]
  have hok : ¬HasLeaf config ∨ WellFormed request := by
    by_cases hw : WellFormed request
    · exact .inr hw
    · exact .inl fun hh => hc ⟨hh, hw⟩
  obtain ⟨decision, heval, hverdict⟩ := hgood hok
  obtain ⟨decision', heval', hverdict'⟩ := hgood' (hok.imp_left fun h => fun hh => h (hleaf.1 hh))
  rw [verdict_congr hsame, ← hverdict] at hverdict'
  rw [heval, heval']
  exact congrArg Except.ok (Prod.mk.inj hverdict').1

end

section Examples

attribute [local instance] asciiVstr

/-- The realm of `exceptConfig` decides the subscription of `guest` to `a/b`. -/
theorem realm_verdict_except : ∃ decision,
    realmEvaluate exceptRealm (subscribeRequest guest (text "a/b")) 0 = .ok decision ∧
      (decision.effect, decision.reason) = verdict (applicable true (subscribeRequest guest (text "a/b")))
        exceptConfig.rules (.deny, .defaultDeny) := by
  have hresource : mqttSecurityResource (text "a/b") (subscribeRequest guest (text "a/b")).protocolContext =
      .ok ⟨text "a/b", .topicFilter, true, some ⟨.topicFilter, text "u", text "c"⟩⟩ := rfl
  have hm : MqttConfig exceptConfig := fun matcher h => (Option.some.inj h).symm
  have hcur : Current exceptConfig (subscribeRequest guest (text "a/b")) 0 := ⟨rfl, rfl, .inl rfl, rfl⟩
  have hparser : ParserValidated (subscribeRequest guest (text "a/b")) := by
    intro r hr _
    obtain rfl := Except.ok.inj (hresource.symm.trans hr)
    exact show topicFilterValidate (text "a/b") = true by decide
  have hwell : WellFormed (subscribeRequest guest (text "a/b")) :=
    fun _ => ⟨_, hresource, show topicFilterValidate (text "a/b") = true by decide⟩
  exact (realm_verdict hm exceptRealm_created hcur hparser).2.1 (.inr hwell)

/-- A deny rule for a resource that is no topic, and an adapter rule. -/
def strictConfig : RealmConfig Leaf where
  headerValid := true
  policyVersion := 1
  rules := [⟨true, .deny, .any, [], text "d", actionSubscribe, .mqttTopic, .exact, text "a+b"⟩,
    ⟨true, .allow, .any, [], text "d", actionSubscribe, .mqttTopic, .adapter, text "x"⟩]
  matcher := some mqttMatcher

/-- A request for that resource that the parser has not seen. -/
def rawRequest : Request := { subscribeRequest guest (text "a+b") with protocolContext := .absent }

/-- The deny rule applies to the malformed request, which gets no decision. -/
theorem malformed_request_undecided :
    Current strictConfig rawRequest 0 ∧
    (∃ rule ∈ strictConfig.rules, rule.effect = .deny ∧ applicable true rawRequest rule = true) ∧
    ∃ realm, realmCreate strictConfig = .ok realm ∧ realmEvaluate realm rawRequest 0 = .error .eproto :=
  ⟨⟨rfl, rfl, .inl rfl, rfl⟩, ⟨_, mem_cons_self, rfl, by decide⟩, _, rfl, rfl⟩

end Examples

end Flowie.Security
