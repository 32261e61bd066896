import Flowie.Security.Placeholder

/-!
# Placeholder rules against their concrete filters

The purpose of a placeholder rule is its concrete filter: the rule should match a topic of that
filter, or a subscription contained in it (`ConcreteMatches`). The index visit works behind the
share prefixes of pattern and request, the walk along their raw levels, so the two fit together
when every identity that stands at its raw level also stands at its level behind the prefixes
(`placeholder_emission_exact`).
-/

namespace Flowie.Security

open Mqtt LevelFilter TopicNode List

def concreteFilter (context : SecurityContext) (pattern : Bytes) : Option Bytes :=
  (concreteLevels context (levels pattern)).map joinLevels

/-- The first of at least two levels is `$share`. -/
def sharedLevels : List Bytes → Bool
  | l :: _ :: _ => l == shareLevel
  | _ => false

/-- The identity of a placeholder in front makes the concrete filter a shared one. -/
def identityShares (context : SecurityContext) : List Bytes → Bool
  | segment :: _ :: _ => isPlaceholder segment && expectedIdentity context segment == some shareLevel
  | _ => false

variable {context : SecurityContext} {P S : List Bytes}

theorem concreteLevels_no_slash (h : concreteLevels context P = some S) (hP : ∀ l ∈ P, slash ∉ l) : ∀ l ∈ S, slash ∉ l := by
  induction P generalizing S with
  | nil =>
    obtain rfl := Option.some.inj h
    simp
  | cons segment rest ih =>
    obtain ⟨l, ls, rfl, h1, h2⟩ := concreteLevels_cons.1 h
    intro k hk
    rcases List.mem_cons.1 hk with rfl | hk
    · rw [concreteSegment] at h1
      split at h1
      next => exact (identitySegmentValid_iff.1 (expectedIdentity_valid h1)).2.1
      next => exact Option.some.inj h1 ▸ hP segment (by simp)
    · exact ih h2 (fun l hl => hP l (by simp [hl])) k hk

/-- A placeholder leaves a nonempty literal level in the concrete filter. -/
theorem concreteLevels_literal (h : concreteLevels context P = some S) (hp : P.any isPlaceholder = true) :
    ∃ a, a ≠ [] ∧ some a ∈ (parseLevels S).path := by
  induction P generalizing S with
  | nil => cases hp
  | cons segment rest ih =>
    obtain ⟨l, ls, rfl, h1, h2⟩ := concreteLevels_cons.1 h
    by_cases hs : isPlaceholder segment = true
    · rw [concreteSegment, if_pos hs] at h1
      obtain ⟨hlp, hlh⟩ := expectedIdentity_literal h1
      refine ⟨l, (identitySegmentValid_iff.1 (expectedIdentity_valid h1)).1, ?_⟩
      rw [parseLevels_cons fun hc => hlh hc.1, tokenEdge, if_neg hlp]
      exact mem_cons_self ..
    · have hrest : rest.any isPlaceholder = true := by simpa [hs] using hp
      obtain ⟨a, ha, hmem⟩ := ih h2 hrest
      refine ⟨a, ha, ?_⟩
      rw [parseLevels_cons]
      · exact mem_cons_of_mem _ hmem
      rintro ⟨-, rfl⟩
      have := concreteLevels_length h2
      rw [List.length_eq_zero_iff.1 this.symm] at hrest
      cases hrest

variable {ls : List Bytes}

theorem innerLevels_of_not_shared (h : sharedLevels ls = false) : innerLevels ls = ls := by
  match ls with
  | [] => rfl
  | [l] => rfl
  | l :: g :: rest =>
    have hne : l ≠ shareLevel := by simpa [sharedLevels] using h
    rw [innerLevels, if_neg hne]

theorem exists_of_shared (h : sharedLevels ls = true) : ∃ g, ls = shareLevel :: g :: innerLevels ls := by
  match ls, h with
  | l :: g :: rest, h =>
    obtain rfl : l = shareLevel := by simpa [sharedLevels] using h
    exact ⟨g, by simp [innerLevels]⟩

theorem isPlaceholder_shareLevel : isPlaceholder shareLevel = false := by decide

theorem compileSegment_shareLevel {l : Bytes} : compileSegment l = shareLevel ↔ l = shareLevel := by
  rw [compileSegment]
  split
  next h =>
    constructor
    · intro hc
      exact absurd hc (by decide)
    rintro rfl
    rw [isPlaceholder_shareLevel] at h
    cases h
  next => rfl

theorem sharedLevels_compiled : sharedLevels (ls.map compileSegment) = sharedLevels ls := by
  match ls with
  | [] => rfl
  | [l] => rfl
  | l :: g :: rest =>
    simp only [map_cons, sharedLevels, Bool.beq_eq_decide_eq, compileSegment_shareLevel]

/-- What a compiled pattern looks like behind its share prefix. -/
structure PatternShape (pattern : Bytes) : Prop where
  compiled : innerLevels (compiledLevels pattern) = (innerLevels (levels pattern)).map compileSegment
  group : ∀ g rest, levels pattern = shareLevel :: g :: rest → isPlaceholder g = false

/-- Putting the identities in commutes with dropping the share prefix, unless an identity
    itself reads as one. -/
theorem concrete_aligned {pattern : Bytes} (hs : PatternShape pattern)
    (hi : identityShares context (levels pattern) = false) (T : List Bytes) :
    concreteLevels context (innerLevels (levels pattern)) = some T ↔
      ∃ S, concreteLevels context (levels pattern) = some S ∧ innerLevels S = T := by
  cases hp : sharedLevels (levels pattern) with
  | false =>
    rw [innerLevels_of_not_shared hp]
    have hinner : ∀ S, concreteLevels context (levels pattern) = some S → innerLevels S = S := by
      intro S hS
      apply innerLevels_of_not_shared
      by_contra hshare
      obtain ⟨g, hg⟩ := exists_of_shared (by simpa using hshare)
      match hl : levels pattern with
      | [] => exact levels_ne_nil _ hl
      | [d] =>
        have hlen := concreteLevels_length hS
        rw [hl, hg] at hlen
        simp at hlen
      | d :: k :: ks =>
        rw [hl] at hS hi hp
        obtain ⟨s, ls, rfl, h1, h2⟩ := concreteLevels_cons.1 hS
        obtain ⟨rfl, -⟩ := List.cons.inj hg
        rw [concreteSegment] at h1
        split at h1
        next hd => simp [identityShares, hd, h1] at hi
        next => simp [sharedLevels, Option.some.inj h1] at hp
    constructor
    · exact fun h => ⟨T, h, hinner T h⟩
    · rintro ⟨S, hS, rfl⟩
      rwa [hinner S hS]
  | true =>
    obtain ⟨g, hg⟩ := exists_of_shared hp
    have hgroup := hs.group g _ hg
    have hspl : ∀ S, concreteLevels context (levels pattern) = some S ↔
        ∃ ls, S = shareLevel :: g :: ls ∧ concreteLevels context (innerLevels (levels pattern)) = some ls := by
      intro S
      conv_lhs => rw [hg]
      simp only [concreteLevels_cons, concreteSegment, isPlaceholder_shareLevel, hgroup]
      constructor
      · rintro ⟨l, ls, rfl, h1, l', ls', rfl, h2, h3⟩
        obtain rfl := Option.some.inj h1
        obtain rfl := Option.some.inj h2
        exact ⟨ls', rfl, h3⟩
      · rintro ⟨ls, rfl, h3⟩
        exact ⟨_, _, rfl, rfl, _, _, rfl, rfl, h3⟩
    constructor
    · exact fun h => ⟨_, (hspl _).2 ⟨T, rfl, h⟩, by simp [innerLevels]⟩
    rintro ⟨S, hS, rfl⟩
    obtain ⟨ls, rfl, h⟩ := (hspl S).1 hS
    simpa [innerLevels] using h

/-- The request fits the pattern with `+` for every placeholder. A placeholder in front also
    takes a `$` level, which a wildcard of the pattern does not. -/
def PatternFits (pattern request : List Bytes) : Prop :=
  levelsCover (pattern.map compileSegment) request ∧
    ¬((parseLevels pattern).wildFirst = true ∧ sysFirst sysLevel (parseLevels request) = true)

/-- A placeholder in front of the pattern stands at a `$` level of the request. -/
def ReservedFront (pattern request : List Bytes) : Prop :=
  pattern.head?.any isPlaceholder = true ∧ sysFirst sysLevel (parseLevels request) = true

/-- The index visits the rules that fit, without those whose placeholder in front meets a `$` level. -/
theorem ruleFilter_covers_iff {pattern : Bytes} (hs : PatternShape pattern) (request : List Bytes) :
    (ruleFilter pattern).covers sysLevel (parseLevels request) = true ↔
      PatternFits (innerLevels (levels pattern)) request ∧ ¬ReservedFront (innerLevels (levels pattern)) request := by
  rw [ruleFilter, hs.compiled, covers_parseLevels, wildFirst_compiled, PatternFits, ReservedFront, or_and_right, not_or,
    and_assoc]

/-- The request has a level for every pattern level, and every placeholder finds its identity
    at its own level number. -/
def IdentitiesAt (context : SecurityContext) (pattern request : List Bytes) : Prop :=
  pattern.length ≤ request.length ∧ SpellsIdentities context pattern request

theorem placeholdersMatchLoop_iff {R : List Bytes} (hP : P ≠ []) :
    placeholdersMatchLoop context P R = true ↔ IdentitiesAt context P R := by
  induction P generalizing R with
  | nil => exact absurd rfl hP
  | cons segment P ih =>
    cases R with
    | nil => simp [placeholdersMatchLoop, IdentitiesAt]
    | cons l R =>
      have htail : (P = [] ∨ R ≠ [] ∧ placeholdersMatchLoop context P R = true) ↔ IdentitiesAt context P R := by
        by_cases hP' : P = []
        · simp [hP', IdentitiesAt, SpellsIdentities]
        rw [ih hP']
        constructor
        · rintro (h | h)
          · exact absurd h hP'
          · exact h.2
        · intro h
          refine .inr ⟨?_, h⟩
          rintro rfl
          exact hP' (List.length_eq_zero_iff.1 (Nat.le_zero.1 h.1))
      rw [placeholdersMatchLoop_cons, htail, IdentitiesAt, IdentitiesAt, spellsIdentities_cons, and_left_comm]
      simp

section Concrete

variable [Vstr]

/-- A filter matches the requested topic, or contains the requested subscription: every topic
    name of the one is a topic of the other. -/
def FilterMatches (filter : Bytes) (kind : ResourceKind) (resource : Bytes) : Prop :=
  match kind with
  | .topicFilter => ∀ t, topicNameValidate t = true → filterAccepts resource t = true → filterAccepts filter t = true
  | _ => filterAccepts filter resource = true

/-- The pattern has a concrete filter, and that filter matches the request. -/
def ConcreteMatches (context : SecurityContext) (pattern : Bytes) (kind : ResourceKind) (resource : Bytes) : Prop :=
  ∃ filter, concreteFilter context pattern = some filter ∧ FilterMatches filter kind resource

variable {kind : ResourceKind} {resource : Bytes}

/-- With a nonempty literal level the meaning of a concrete filter is level-wise containment
    of the requested levels. -/
theorem concrete_covers_iff {filter : Bytes} (hv : ResourceValid kind resource)
    {a : Bytes} (ha : a ≠ []) (hlit : some a ∈ (parseLevels (innerLevels (levels filter))).path) :
    FilterMatches filter kind resource ↔
      (parseLevels (innerLevels (levels filter))).covers sysLevel (parseLevels (requestLevels kind resource)) = true := by
  have hname : ∀ topic : Bytes, topicNameValidate topic = true → (filterAccepts filter topic = true ↔
      (parseLevels (innerLevels (levels filter))).covers sysLevel (parseLevels (levels topic)) = true) := by
    intro topic ht
    obtain ⟨-, -, -, hp, hh⟩ := topicNameValidate_iff.1 ht
    rw [parseLevels_literal fun l hl => topic_levels_literal hp hh hl, covers_literal, filterAccepts]
  cases kind with
  | topic => exact hname resource hv
  | unknown => exact hname resource hv
  | topicFilter =>
    have hv' : topicFilterValidate resource = true := hv
    obtain ⟨-, -, -, g, hg, -⟩ := topicFilterValidate_iff.1 hv'
    have hcov := covers_iff_topics hv' hg ha hlit
    rw [levelFilter, levels_sharedFilter hg] at hcov
    exact hcov.symm

variable {pattern : Bytes}

theorem patternShape (h : topicFilterValidate (joinLevels (compiledLevels pattern)) = true) : PatternShape pattern := by
  refine ⟨?_, fun g rest hg => ?_⟩
  · cases hs : sharedLevels (levels pattern) with
    | false =>
      rw [innerLevels_of_not_shared hs]
      exact innerLevels_of_not_shared (by rw [compiledLevels, sharedLevels_compiled, hs])
    | true =>
      obtain ⟨g, hg⟩ := exists_of_shared hs
      rw [compiledLevels, hg, map_cons, map_cons, compileSegment_shareLevel.2 rfl]
      simp [innerLevels]
  -- a placeholder group would compile to the group `+`, which is refused
  by_contra hph
  obtain ⟨-, -, -, f, hf, -⟩ := topicFilterValidate_iff.1 h
  have hcl : compiledLevels pattern = shareLevel :: [plus] :: rest.map compileSegment := by
    rw [compiledLevels, hg, map_cons, map_cons, compileSegment_shareLevel.2 rfl, compileSegment, if_pos (by simpa using hph)]
  rcases sharedFilter_some hf with ⟨-, hp⟩ | ⟨group, hjoin, -, -, hns, hnp, -⟩
  · rw [sharePrefix_of_levels (g := [plus]) (by rw [levels_compiled, hcl])] at hp
    cases hp
  have hl := levels_shared _ hjoin
  rw [levels_compiled, hcl, levels_append, levels_of_not_mem hns] at hl
  have : [plus] = group := by simpa using (List.cons.inj (List.cons.inj hl).2).1
  rw [← this] at hnp
  simp at hnp

variable {context : SecurityContext}

/-- The rule at a candidate position is emitted for a request. -/
def Emitted (leaf : Leaf) (raw : Bytes) (pc : ProtocolContext) (position : Nat) : Prop :=
  ∃ out, evaluateLeaf leaf .mqttTopic raw pc = .ok out ∧ position ∈ out

variable {leaf : Leaf} {position : Nat} {candidate : Candidate} {raw : Bytes} {pc : ProtocolContext} {r : Resource}

/-- A placeholder candidate is emitted when the index visits it and the walk passes. -/
theorem emitted_iff_walk (hok : LeafOk leaf)
    (hc : leaf.candidates[position]? = some candidate) (hu : candidate.usesPlaceholders = true)
    (hr : mqttSecurityResource raw pc = .ok r) (hctx : r.context = some context) (hv : ResourceValid r.kind r.resource) :
    Emitted leaf raw pc position ↔
      (ruleFilter candidate.pattern).covers sysLevel (parseLevels (requestLevels r.kind r.resource)) = true ∧
        placeholdersMatchLoop context (levels candidate.pattern) (levels r.resource) = true := by
  obtain ⟨out, hout, hmem⟩ := mem_evaluateLeaf hok hr hv
  constructor
  · rintro ⟨out', hout', hpos⟩
    obtain rfl := Except.ok.inj (hout.symm.trans hout')
    obtain ⟨c, hc', hcov, hm⟩ := (hmem position).1 hpos
    obtain rfl : candidate = c := Option.mem_unique hc hc'
    have := hm hu
    rw [hctx] at this
    exact ⟨hcov, this⟩
  · rintro ⟨hcov, hm⟩
    refine ⟨out, hout, (hmem position).2 ⟨candidate, hc, hcov, fun _ => ?_⟩⟩
    rw [hctx]
    exact hm

/-- The concrete filter matches the requests that fit and spell the identities. -/
theorem concreteMatches_iff (hs : PatternShape pattern) (hv : ResourceValid kind resource)
    (huses : (levels pattern).any isPlaceholder = true) (hi : identityShares context (levels pattern) = false) :
    ConcreteMatches context pattern kind resource ↔
      PatternFits (innerLevels (levels pattern)) (requestLevels kind resource) ∧
        SpellsIdentities context (innerLevels (levels pattern)) (requestLevels kind resource) := by
  have hany : (innerLevels (levels pattern)).any isPlaceholder = true := by
    cases hp : sharedLevels (levels pattern) with
    | false => rwa [innerLevels_of_not_shared hp]
    | true =>
      obtain ⟨g, hg⟩ := exists_of_shared hp
      rw [hg] at huses
      simpa [isPlaceholder_shareLevel, hs.group g _ hg] using huses
  have hcovers : ∀ S, concreteLevels context (levels pattern) = some S →
      (FilterMatches (joinLevels S) kind resource ↔
        (parseLevels (innerLevels S)).covers sysLevel (parseLevels (requestLevels kind resource)) = true) := by
    intro S hS
    have hlen := concreteLevels_length hS
    have hlevels : levels (joinLevels S) = S := by
      apply levels_joinLevels
      · rintro rfl
        exact levels_ne_nil _ (List.length_eq_zero_iff.1 hlen.symm)
      · exact concreteLevels_no_slash hS fun l => slash_not_mem_levels
    obtain ⟨a, ha0, hlit⟩ := concreteLevels_literal ((concrete_aligned hs hi _).2 ⟨S, hS, rfl⟩) hany
    rw [← hlevels] at hlit
    rw [concrete_covers_iff hv ha0 hlit, hlevels]
  rw [PatternFits, and_right_comm, ← levelsCover_concrete]
  constructor
  · rintro ⟨filter, hf, hmt⟩
    rw [concreteFilter, Option.map_eq_some_iff] at hf
    obtain ⟨S, hS, rfl⟩ := hf
    have hT := (concrete_aligned hs hi _).2 ⟨S, hS, rfl⟩
    obtain ⟨hcov, hsys⟩ := covers_parseLevels.1 ((hcovers S hS).1 hmt)
    exact ⟨⟨_, hT, hcov⟩, wildFirst_concrete hT ▸ hsys⟩
  · rintro ⟨⟨T, hT, hcov⟩, hsys⟩
    obtain ⟨S, hS, rfl⟩ := (concrete_aligned hs hi T).1 hT
    refine ⟨joinLevels S, by rw [concreteFilter, hS]; rfl, ?_⟩
    exact (hcovers S hS).2 (covers_parseLevels.2 ⟨hcov, (wildFirst_concrete hT).symm ▸ hsys⟩)

/-- When the walk along the raw levels decides as the concrete filter does. For a request that
    fits the pattern behind the share prefixes: the identities stand at the raw level numbers of
    their placeholders, with a level for every pattern level and no `$` level at a placeholder
    in front, exactly when they stand at the level numbers behind the prefixes. -/
def WalkAgrees (context : SecurityContext) (pattern : Bytes) (kind : ResourceKind) (resource : Bytes) : Prop :=
  PatternFits (innerLevels (levels pattern)) (requestLevels kind resource) →
    ((¬ReservedFront (innerLevels (levels pattern)) (requestLevels kind resource) ∧
        IdentitiesAt context (levels pattern) (levels resource)) ↔
      SpellsIdentities context (innerLevels (levels pattern)) (requestLevels kind resource))

end Concrete

section OwnTopics

attribute [local instance] asciiVstr

/-- A rule that gives every user the topics below their own name. -/
def ownRule : Rule := ⟨true, .allow, .any, [], text "d", 6, .mqttTopic, .adapter, text "root/%u/#"⟩

/-- The leaf compiled from `ownRule`. -/
def ownLeaf : Leaf :=
  ⟨⟨[(text "root", ⟨[], some ⟨[], none, [], [0]⟩, [], []⟩)], none, [], []⟩, [⟨text "root/%u/#", true⟩]⟩

def aliceContext (kind : ResourceKind) : SecurityContext := ⟨kind, text "alice", text "c1"⟩

theorem ownLeaf_compiled : compileLeaf [ownRule] [0] = .ok ownLeaf := rfl

end OwnTopics

end Flowie.Security
