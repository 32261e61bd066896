import Flowie.TopicIndex.Visit

/-!
# The MQTT rule matcher

The adapter of `flowie.c` that compiles the topic rules of a realm into a topic index and
evaluates a request against it. A rule pattern may hold placeholder levels (`%u`, `%c`,
`%<role>`). The compiled filter has `+` in their place; a candidate the index visits is
emitted only after `placeholdersMatch` has walked the raw pattern along the raw resource.

Text fields are C strings, given without their terminator. The `size` and `abi_version` tests
of a rule are its `headerValid`; the layouts of the protocol context, told apart by its `size`
field, are the constructors of `ProtocolContext`.
-/

namespace Flowie.Security

open Mqtt

inductive Effect where
  | deny | allow
deriving DecidableEq, Repr

inductive SubjectKind where
  | any | principal | role | group
deriving DecidableEq, Repr

inductive ResourceType where
  | generic | mqttTopic | flowResource | sqlObject | secret
deriving DecidableEq, Repr

inductive MatchKind where
  | exact | pfx | adapter
deriving DecidableEq, Repr

/-- `flowie_security_rule_t`. -/
structure Rule where
  headerValid : Bool
  effect : Effect
  subjectKind : SubjectKind
  subject : Bytes
  domainId : Bytes
  actionMask : UInt32
  resourceType : ResourceType
  matchKind : MatchKind
  pattern : Bytes
deriving DecidableEq, Repr

inductive ResourceKind where
  | topic | topicFilter | unknown
deriving DecidableEq, Repr

/-- `flowie_mqtt_security_context_t`; an absent identity is an empty span. -/
structure SecurityContext where
  kind : ResourceKind
  username : Bytes
  clientId : Bytes
deriving DecidableEq, Repr

/-- The protocol context of a request: none, one too short for its kind, one that ends before
    the identities, a public one, or the parser-validated one with its own copy of the
    resource, whose version, provenance and borrowed pointer are as expected when `trusted`. -/
inductive ProtocolContext where
  | absent
  | short
  | kindOnly (kind : ResourceKind)
  | full (context : SecurityContext)
  | validated (context : SecurityContext) (trusted : Bool) (resource : Bytes)
deriving DecidableEq, Repr

/-- The resource of a request, its kind, whether the parser validated it, and the context with
    identities if the request has one. -/
structure Resource where
  resource : Bytes
  kind : ResourceKind
  validated : Bool
  context : Option SecurityContext
deriving DecidableEq, Repr

/-- `flowie_mqtt_security_resource`. -/
def mqttSecurityResource (resource : Bytes) : ProtocolContext → Except Errno Resource
  | .absent => .ok ⟨resource, .topic, false, none⟩
  | .short => .error .eproto
  | .kindOnly kind => if kind = .unknown then .error .eproto else .ok ⟨resource, kind, false, none⟩
  | .full context =>
    if context.kind = .unknown then .error .eproto else .ok ⟨resource, context.kind, false, some context⟩
  | .validated context trusted copy =>
    if context.kind = .unknown then .error .eproto
    else if !trusted || copy.isEmpty then .error .eproto
    else .ok ⟨copy, context.kind, true, some context⟩

/-- A level of the form `%...`, at least two bytes long. -/
def isPlaceholder (segment : Bytes) : Bool := decide (1 < segment.length) && segment.head? == some percent

/-- A level of a pattern in the compiled filter. -/
def compileSegment (segment : Bytes) : Bytes := if isPlaceholder segment then [plus] else segment

/-- The loop of `flowie_mqtt_security_filter_compile` over the levels of the pattern, with the
    output written so far. -/
def filterCompileLoop (capacity : Nat) : Bytes → List Bytes → Except Errno Bytes
  | out, [] => .ok out
  | out, segment :: rest =>
    if (compileSegment segment).length > capacity - 1 - out.length then .error .enospc
    else
      let out := out ++ compileSegment segment
      if rest.isEmpty then .ok out
      else if out.length ≥ capacity - 1 then .error .enospc
      else filterCompileLoop capacity (out ++ [slash]) rest

/-- `flowie_mqtt_security_filter_compile`: the compiled filter and whether placeholders occur. -/
def filterCompile (pattern : Bytes) (capacity : Nat) : Except Errno (Bytes × Bool) :=
  if pattern.isEmpty || capacity = 0 then .error .einval
  else
    match filterCompileLoop capacity [] (levels pattern) with
    | .error e => .error e
    | .ok filter => .ok (filter, (levels pattern).any isPlaceholder)

/-- `flowie_mqtt_security_identity_segment_valid`. -/
def identitySegmentValid (value : Bytes) : Bool :=
  !value.isEmpty && value.all fun ch => ch != slash && ch != plus && ch != hash

/-- `flowie_mqtt_security_role_client_id`: the client id without its `-<role>` suffix. -/
def roleClientId (clientId role : Bytes) : Option Bytes :=
  if role.isEmpty || clientId.length ≤ role.length + 1 || !identitySegmentValid clientId then none
  else if !identitySegmentValid role then none
  else
    let roleOffset := clientId.length - role.length
    if clientId[roleOffset - 1]? != some '-'.toUInt8 || clientId.drop roleOffset != role then none
    else
      let base := clientId.take (roleOffset - 1)
      if identitySegmentValid base then some base else none

def expectedIdentity (context : SecurityContext) (segment : Bytes) : Option Bytes :=
  if segment = text "%u" then
    if identitySegmentValid context.username then some context.username else none
  else if segment = text "%c" then
    if identitySegmentValid context.clientId then some context.clientId else none
  else roleClientId context.clientId segment.tail

/-- The loop of `flowie_mqtt_security_placeholders_match`: pattern levels against resource
    levels, of which only those under a placeholder are compared. -/
def placeholdersMatchLoop (context : SecurityContext) : List Bytes → List Bytes → Bool
  | [], _ => true
  | _ :: _, [] => false
  | segment :: pattern, level :: resource =>
    if isPlaceholder segment && expectedIdentity context segment != some level then false
    else if pattern.isEmpty then true
    else if resource.isEmpty then false
    else placeholdersMatchLoop context pattern resource

/-- `flowie_mqtt_security_placeholders_match`. -/
def placeholdersMatch (pattern resource : Bytes) : Option SecurityContext → Bool
  | none => false
  | some context => placeholdersMatchLoop context (levels pattern) (levels resource)

/-- `flowie_mqtt_security_candidate_t`. -/
structure Candidate where
  pattern : Bytes
  usesPlaceholders : Bool
deriving DecidableEq, Repr

/-- `flowie_mqtt_security_leaf_t`. -/
structure Leaf where
  topics : TopicNode
  candidates : List Candidate

/-- `FLOWIE_SECURITY_PATTERN_MAX`. -/
def patternMax : Nat := 511

section Leaf

variable [Vstr]

/-- The loop of `flowie_mqtt_security_compile_leaf`; the position of a candidate is the number
    of candidates compiled before it. -/
def compileLeafLoop (rules : List Rule) : Leaf → List Nat → Except Errno Leaf
  | leaf, [] => .ok leaf
  | leaf, ruleIndex :: rest =>
    match rules[ruleIndex]? with
    | none => .error .eproto
    | some rule =>
      if !rule.headerValid || rule.matchKind != .adapter || rule.resourceType != .mqttTopic then .error .eproto
      else
        match filterCompile rule.pattern (patternMax + 1) with
        | .error e => .error e
        | .ok (filter, usesPlaceholders) =>
          if !topicFilterValidate filter then .error .eproto
          else
            match topicIndexInsertBound leaf.topics filter leaf.candidates.length with
            | .error e => .error e
            | .ok (topics, _) =>
              compileLeafLoop rules ⟨topics, leaf.candidates ++ [⟨rule.pattern, usesPlaceholders⟩]⟩ rest

/-- `flowie_mqtt_security_compile_leaf`. -/
def compileLeaf (rules : List Rule) (candidateRuleIndices : List Nat) : Except Errno Leaf :=
  if rules.isEmpty || candidateRuleIndices.isEmpty then .error .einval
  else compileLeafLoop rules ⟨TopicNode.empty, []⟩ candidateRuleIndices

/-- `flowie_mqtt_security_emit_candidate` on the visited entries in turn: the positions handed
    to the caller's `emit`. -/
def emitCandidates (leaf : Leaf) (resource : Bytes) (security : Option SecurityContext) :
    List Nat → Except Errno (List Nat)
  | [] => .ok []
  | position :: rest =>
    match leaf.candidates[position]? with
    | none => .error .eproto
    | some candidate =>
      match emitCandidates leaf resource security rest with
      | .error e => .error e
      | .ok emitted =>
        if candidate.usesPlaceholders && !placeholdersMatch candidate.pattern resource security then .ok emitted
        else .ok (position :: emitted)

/-- `flowie_mqtt_security_evaluate_leaf`: the candidate positions emitted for a request. -/
def evaluateLeaf (leaf : Leaf) (resourceType : ResourceType) (resource : Bytes)
    (protocolContext : ProtocolContext) : Except Errno (List Nat) :=
  if resourceType ≠ .mqttTopic then .ok []
  else
    match mqttSecurityResource resource protocolContext with
    | .error e => .error e
    | .ok r =>
      match r.kind with
      | .topicFilter =>
        if !r.validated && !topicFilterValidate r.resource then .error .eproto
        else
          match topicIndexVisitValidatedContainingFilters leaf.topics r.resource with
          | .error e => .error e
          | .ok visited => emitCandidates leaf r.resource r.context visited
      | _ =>
        if !r.validated && !topicNameValidate r.resource then .error .eproto
        else
          match topicIndexVisitValidatedTopic leaf.topics r.resource with
          | .error e => .error e
          | .ok visited => emitCandidates leaf r.resource r.context visited

end Leaf

end Flowie.Security
