import Flowie.Security.Emission

/-!
# The authorization realm

`flowie_security.c`: a realm compiles its adapter rules with the injected matcher and decides a
request by the rules in order. A matching deny rule ends the loop, so it wins over every allow
rule (`evaluateRules_denied`, `evaluateRules_allowed`).

The matcher is a parameter of the realm, as in the source, with its three function pointers set
together or not at all; `mqttMatcher` is the adapter of `flowie.c`. The remote authorization
provider and the policy source text are not part of a realm here, and allocation succeeds.
-/

namespace Flowie.Security

open Mqtt LevelFilter

inductive Scope where
  | self | group | domain | system | unknown
deriving DecidableEq, Repr

/-- `flowie_security_principal_t`; the roles and groups are those below `role_count` and
    `group_count`. -/
structure Principal where
  headerValid : Bool
  principalId : Bytes
  principalType : Bytes
  domainId : Bytes
  authMethod : Bytes
  scope : Scope
  roles : List Bytes
  groups : List Bytes
  expiresAt : UInt64
  policyVersion : UInt64
deriving DecidableEq, Repr

/-- `flowie_security_request_t`. -/
structure Request where
  headerValid : Bool
  principal : Principal
  domainId : Bytes
  action : UInt32
  resourceType : ResourceType
  resource : Bytes
  protocolContext : ProtocolContext
deriving DecidableEq, Repr

inductive Reason where
  | defaultDeny | allowRule | denyRule | domainMismatch | principalExpired | policyVersionMismatch
deriving DecidableEq, Repr

/-- `flowie_security_decision_t`; the initial matched rule `SIZE_MAX` is `none`. -/
structure Decision where
  effect : Effect
  reason : Reason
  matchedRule : Option Nat
  policyVersion : UInt64
deriving DecidableEq, Repr

/-- `flowie_security_matcher_t` with a compiled leaf of type `α`. Evaluation gives the candidate
    positions handed to `emit`, in order. -/
structure Matcher (α : Type) where
  compileLeaf : List Rule → List Nat → Except Errno α
  evaluateLeaf : α → Request → Except Errno (List Nat)

/-- `flowie_security_realm_config_t`. -/
structure RealmConfig (α : Type) where
  headerValid : Bool
  policyVersion : UInt64
  rules : List Rule
  matcher : Option (Matcher α)

/-- `flowie_security_realm_t`. -/
structure Realm (α : Type) where
  policyVersion : UInt64
  rules : List Rule
  matcher : Option (Matcher α)
  compiledLeaf : Option α
  matcherRuleIndices : List Nat

def maxRoles : Nat := 8
def maxGroups : Nat := 16
def maxRules : Nat := 4096

/-- `FLOWIE_SECURITY_ACTION_SUBSCRIBE`. -/
def actionSubscribe : UInt32 := 0x4

/-- `flowie_security_principal_valid`. -/
def principalValid (principal : Principal) : Bool :=
  principal.headerValid && !principal.principalId.isEmpty && !principal.principalType.isEmpty &&
    !principal.authMethod.isEmpty && principal.scope != .unknown && decide (principal.roles.length ≤ maxRoles) &&
    decide (principal.groups.length ≤ maxGroups) && principal.policyVersion != 0

/-- `flowie_security_request_valid`. -/
def requestValid (request : Request) : Bool := request.headerValid && principalValid request.principal

/-- `flowie_security_subject_matches`. -/
def subjectMatches (rule : Rule) (principal : Principal) : Bool :=
  match rule.subjectKind with
  | .any => true
  | .principal => rule.subject == principal.principalId
  | .role => principal.roles.any (rule.subject == ·)
  | .group => principal.groups.any (rule.subject == ·)

/-- The loop of `flowie_security_realm_create` that collects the adapter rules from index `i` on. -/
def adapterIndices (i : Nat) : List Rule → List Nat
  | [] => []
  | rule :: rest =>
    if rule.matchKind = .adapter then i :: adapterIndices (i + 1) rest else adapterIndices (i + 1) rest

/-- `flowie_security_emit_match`: marks the rule of a candidate position. -/
def emitMatch (ruleCount : Nat) (candidateRuleIndices : List Nat) (marks : List Bool) (position : Nat) :
    Except Errno (List Bool) :=
  match candidateRuleIndices[position]? with
  | none => .error .eproto
  | some ruleIndex => if ruleIndex ≥ ruleCount then .error .eproto else .ok (marks.set ruleIndex true)

/-- `flowie_security_emit_match` on every position the matcher emits. -/
def emitMatches (ruleCount : Nat) (candidateRuleIndices : List Nat) : List Bool → List Nat → Except Errno (List Bool)
  | marks, [] => .ok marks
  | marks, position :: rest =>
    match emitMatch ruleCount candidateRuleIndices marks position with
    | .error e => .error e
    | .ok marks => emitMatches ruleCount candidateRuleIndices marks rest

/-- The rule speaks about the domain, action, resource type and subject of the request. -/
def ruleApplies (request : Request) (rule : Rule) : Bool :=
  rule.domainId == request.domainId && rule.actionMask &&& request.action != 0 &&
    rule.resourceType == request.resourceType && subjectMatches rule request.principal

/-- The rule at index `i` matches the requested resource, given the marks of the matcher. -/
def resourceMatches (request : Request) (adapterMatches : Option (List Bool)) (i : Nat) (rule : Rule) : Bool :=
  match rule.matchKind with
  | .exact => rule.pattern == request.resource
  | .pfx => rule.pattern.isPrefixOf request.resource
  | .adapter =>
    match adapterMatches with
    | none => false
    | some marks => marks[i]? == some true

/-- The rule loop of `flowie_security_realm_evaluate` from index `i` on. -/
def evaluateRules (request : Request) (adapterMatches : Option (List Bool)) : Nat → List Rule → Decision → Decision
  | _, [], decision => decision
  | i, rule :: rest, decision =>
    if !ruleApplies request rule || !resourceMatches request adapterMatches i rule then
      evaluateRules request adapterMatches (i + 1) rest decision
    else
      let decision : Decision :=
        { decision with
          matchedRule := some i
          effect := rule.effect
          reason := if rule.effect = .allow then .allowRule else .denyRule }
      if rule.effect = .deny then decision else evaluateRules request adapterMatches (i + 1) rest decision

section

variable {α : Type}

/-- `flowie_security_realm_create`. -/
def realmCreate (config : RealmConfig α) : Except Errno (Realm α) :=
  if !config.headerValid || decide (config.rules.length > maxRules) ||
      (!config.rules.isEmpty && config.policyVersion == 0) then .error .einval
  else
    let indices := adapterIndices 0 config.rules
    match config.matcher with
    | none => .ok ⟨config.policyVersion, config.rules, none, none, []⟩
    | some matcher =>
      if indices.isEmpty then .ok ⟨config.policyVersion, config.rules, some matcher, none, []⟩
      else
        match matcher.compileLeaf config.rules indices with
        | .error e => .error e
        | .ok leaf => .ok ⟨config.policyVersion, config.rules, some matcher, some leaf, indices⟩

/-- The adapter marks of a request: none when the realm has no compiled leaf. -/
def adapterMarks (realm : Realm α) (request : Request) : Except Errno (Option (List Bool)) :=
  match realm.compiledLeaf, realm.matcher with
  | some leaf, some matcher =>
    match matcher.evaluateLeaf leaf request with
    | .error e => .error e
    | .ok positions =>
      match emitMatches realm.rules.length realm.matcherRuleIndices (List.replicate realm.rules.length false)
        positions with
      | .error e => .error e
      | .ok marks => .ok (some marks)
  | _, _ => .ok none

/-- The checks of `flowie_security_realm_evaluate` that come before the rules. -/
def refusedBeforeRules (realm : Realm α) (request : Request) (now : UInt64) : Option Reason :=
  if request.domainId ≠ request.principal.domainId ∧ request.principal.scope ≠ .system then some .domainMismatch
  else if request.principal.expiresAt ≠ 0 ∧ request.principal.expiresAt ≤ now then some .principalExpired
  else if request.principal.policyVersion ≠ realm.policyVersion then some .policyVersionMismatch
  else none

/-- `flowie_security_realm_evaluate`. -/
def realmEvaluate (realm : Realm α) (request : Request) (now : UInt64) : Except Errno Decision :=
  let decision : Decision := ⟨.deny, .defaultDeny, none, realm.policyVersion⟩
  if !requestValid request then .error .einval
  else
    match refusedBeforeRules realm request now with
    | some reason => .ok { decision with reason := reason }
    | none =>
      match adapterMarks realm request with
      | .error e => .error e
      | .ok marks => .ok (evaluateRules request marks 0 realm.rules decision)

end

/-- The rule at index `i` decides about the request. -/
def ruleHits (request : Request) (marks : Option (List Bool)) (i : Nat) (rule : Rule) : Prop :=
  ruleApplies request rule = true ∧ resourceMatches request marks i rule = true

variable {i : Nat} {rules : List Rule} {request : Request} {marks : Option (List Bool)} {decision : Decision}

/-- The reason is a deny rule exactly when some deny rule hits. -/
theorem evaluateRules_denied (hd : decision.reason ≠ .denyRule) :
    (evaluateRules request marks i rules decision).reason = .denyRule ↔
      ∃ k rule, rules[k]? = some rule ∧ ruleHits request marks (i + k) rule ∧ rule.effect = .deny := by
  induction rules generalizing i decision with
  | nil => simpa [evaluateRules] using hd
  | cons rule rest ih =>
    -- the rules after the first keep their index
    have hshift : (∃ k r, (rule :: rest)[k]? = some r ∧ ruleHits request marks (i + k) r ∧ r.effect = .deny) ↔
        (ruleHits request marks i rule ∧ rule.effect = .deny) ∨
          ∃ k r, rest[k]? = some r ∧ ruleHits request marks (i + 1 + k) r ∧ r.effect = .deny := by
      constructor
      · intro ⟨k, r, hr, hit, hdeny⟩
        cases k with
        | zero =>
          obtain rfl := Option.some.inj hr
          exact Or.inl ⟨hit, hdeny⟩
        | succ k => exact Or.inr ⟨k, r, hr, by rwa [show i + 1 + k = i + (k + 1) by omega], hdeny⟩
      · intro h
        cases h with
        | inl h => exact ⟨0, rule, rfl, h.1, h.2⟩
        | inr h =>
          obtain ⟨k, r, hr, hit, hdeny⟩ := h
          exact ⟨k + 1, r, hr, by rwa [show i + (k + 1) = i + 1 + k by omega], hdeny⟩
    rw [hshift, evaluateRules]
    split
    next hmiss =>
      have hno : ¬(ruleHits request marks i rule ∧ rule.effect = .deny) := by
        intro ⟨⟨h1, h2⟩, _⟩
        simp [h1, h2] at hmiss
      rw [ih hd]
      exact ⟨Or.inr, fun h => h.resolve_left hno⟩
    next hhit =>
      dsimp only
      have hits : ruleHits request marks i rule := by simpa [ruleHits] using hhit
      split
      next hdeny => simp [hdeny, hits]
      next hallow =>
        have heff : rule.effect = .allow := by
          cases h : rule.effect with
          | deny => exact absurd h hallow
          | allow => rfl
        rw [ih (by simp [heff])]
        exact ⟨Or.inr, fun h => h.resolve_left fun h => hallow h.2⟩

/-- An allowing decision is never one of a deny rule. -/
theorem evaluateRules_allowed (hd : decision.effect = .allow → decision.reason ≠ .denyRule)
    (h : (evaluateRules request marks i rules decision).effect = .allow) :
    (evaluateRules request marks i rules decision).reason ≠ .denyRule := by
  induction rules generalizing i decision with
  | nil => exact hd h
  | cons rule rest ih =>
    rw [evaluateRules] at h ⊢
    split at h
    next hmiss =>
      rw [if_pos hmiss]
      exact ih hd h
    next hhit =>
      rw [if_neg hhit]
      dsimp only at h ⊢
      split at h
      next hdeny => simp [hdeny] at h
      next hallow =>
        rw [if_neg hallow]
        exact ih (fun heff => by simpa using heff) h

/-- In a realm of adapter rules every rule is a candidate, at the position of its index. -/
theorem adapterIndices_eq (h : ∀ rule ∈ rules, rule.matchKind = .adapter) (i : Nat) :
    adapterIndices i rules = List.range' i rules.length := by
  induction rules generalizing i with
  | nil => rfl
  | cons rule rest ih =>
    rw [adapterIndices, if_pos (h rule (by simp)), ih (fun r hr => h r (by simp [hr])), List.length_cons,
      List.range'_succ]

/-- The adapter rules are the candidates. -/
theorem mem_adapterIndices {k : Nat} :
    k ∈ adapterIndices i rules ↔ ∃ j rule, k = i + j ∧ rules[j]? = some rule ∧ rule.matchKind = .adapter := by
  induction rules generalizing i with
  | nil => simp [adapterIndices]
  | cons rule rest ih =>
    -- a rule of the rest is one place further on
    have hrest : k ∈ adapterIndices (i + 1) rest ↔
        ∃ j r, k = i + (j + 1) ∧ rest[j]? = some r ∧ r.matchKind = .adapter := by
      rw [ih]
      simp only [Nat.add_assoc, Nat.add_comm 1]
    have hspl : (∃ j r, k = i + j ∧ (rule :: rest)[j]? = some r ∧ r.matchKind = .adapter) ↔
        (k = i ∧ rule.matchKind = .adapter) ∨ k ∈ adapterIndices (i + 1) rest := by
      rw [hrest]
      constructor
      · rintro ⟨j, r, hk, hr, had⟩
        cases j with
        | zero =>
          obtain rfl := Option.some.inj hr
          exact Or.inl ⟨hk, had⟩
        | succ j => exact Or.inr ⟨j, r, hk, hr, had⟩
      · rintro (⟨hk, had⟩ | ⟨j, r, hk, hr, had⟩)
        · exact ⟨0, rule, hk, rfl, had⟩
        · exact ⟨j + 1, r, hk, hr, had⟩
    rw [hspl, adapterIndices]
    split
    next had => simp [had]
    next hoth => simp [hoth]

variable {n : Nat} {positions : List Nat}

/-- The marks after emitting positions whose candidates are rules. -/
theorem emitMatches_spec {indices : List Nat} {marks : List Bool}
    (hlen : marks.length = n) (h : ∀ p ∈ positions, ∃ i, indices[p]? = some i ∧ i < n) :
    ∃ out, emitMatches n indices marks positions = .ok out ∧
      ∀ i, out[i]? = some true ↔ marks[i]? = some true ∨ ∃ p ∈ positions, indices[p]? = some i := by
  induction positions generalizing marks with
  | nil => exact ⟨marks, rfl, by simp⟩
  | cons p rest ih =>
    obtain ⟨k, hk, hkn⟩ := h p (by simp)
    obtain ⟨out, hout, hmem⟩ := ih (by simpa using hlen : (marks.set k true).length = n) fun q hq => h q (by simp [hq])
    refine ⟨out, ?_, fun i => ?_⟩
    · rw [emitMatches, emitMatch, hk]
      dsimp only
      rw [if_neg (by omega)]
      exact hout
    · rw [hmem, List.getElem?_set]
      by_cases hi : k = i
      · subst hi
        simp [hlen, hkn, hk]
      · simp [hi, hk]

/-- The marks after emitting positions that are rule indices. -/
theorem emitMatches_range {marks : List Bool} (hlen : marks.length = n) (h : ∀ p ∈ positions, p < n) :
    ∃ out, emitMatches n (List.range' 0 n) marks positions = .ok out ∧
      ∀ i, out[i]? = some true ↔ marks[i]? = some true ∨ i ∈ positions := by
  have hrng : ∀ p ∈ positions, (List.range' 0 n)[p]? = some p := by
    intro p hp
    simp [h p hp]
  obtain ⟨out, hout, hmem⟩ := emitMatches_spec hlen fun p hp => ⟨p, hrng p hp, h p hp⟩
  refine ⟨out, hout, ?_⟩
  intro i
  rw [hmem]
  refine or_congr_right ⟨?_, fun hi => ⟨i, hi, hrng i hi⟩⟩
  rintro ⟨p, hp, hpi⟩
  rw [hrng p hp] at hpi
  rwa [← Option.some.inj hpi]

end Flowie.Security
