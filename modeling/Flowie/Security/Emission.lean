import Mathlib.Data.List.Forall2
import Flowie.Security.Matcher

/-!
# What a compiled leaf emits

A candidate is stored under its compiled filter, so a request emits exactly the candidates
whose compiled filter covers the requested levels and, with placeholders, whose raw pattern
passes the walk along the raw resource (`mem_evaluateLeaf`).
-/

namespace Flowie.Security

open Mqtt LevelFilter List

/-- The levels of a pattern with `+` for every placeholder. -/
def compiledLevels (pattern : Bytes) : List Bytes := (levels pattern).map compileSegment

def ruleFilter (pattern : Bytes) : LevelFilter Bytes := parseLevels (innerLevels (compiledLevels pattern))

def requestLevels (kind : ResourceKind) (resource : Bytes) : List Bytes :=
  match kind with
  | .topicFilter => innerLevels (levels resource)
  | _ => levels resource

variable {capacity : Nat} {filter : Bytes}

theorem filterCompileLoop_eq {ls : List Bytes} {out : Bytes} (hne : ls ≠ [])
    (h : filterCompileLoop capacity out ls = .ok filter) : filter = out ++ joinLevels (ls.map compileSegment) := by
  induction ls generalizing out with
  | nil => exact absurd rfl hne
  | cons segment rest ih =>
    rw [filterCompileLoop] at h
    split at h
    next => cases h
    next =>
      by_cases hr : rest = []
      · subst hr
        rw [isEmpty_nil, if_pos rfl] at h
        simpa [joinLevels] using (Except.ok.inj h).symm
      · rw [if_neg (by simpa using hr)] at h
        split at h
        next => cases h
        next =>
          obtain ⟨k, ks, rfl⟩ := exists_cons_of_ne_nil hr
          rw [ih hr h, joinLevels, joinLevels, map_cons, map_cons, map_cons, intercalate_cons_cons]
          simp only [append_assoc]

variable {pattern : Bytes}

theorem slash_not_mem_compiledLevels {l : Bytes} (h : l ∈ compiledLevels pattern) : slash ∉ l := by
  obtain ⟨s, hs, rfl⟩ := List.mem_map.1 h
  rw [compileSegment]
  split
  next => decide
  next => exact slash_not_mem_levels hs

theorem filterCompile_spec {uses : Bool} (h : filterCompile pattern capacity = .ok (filter, uses)) :
    filter = joinLevels (compiledLevels pattern) ∧ uses = (levels pattern).any isPlaceholder := by
  rw [filterCompile] at h
  split at h
  next => cases h
  next =>
    split at h
    next => cases h
    next out hloop =>
      obtain ⟨rfl, rfl⟩ := Prod.mk.inj (Except.ok.inj h)
      exact ⟨filterCompileLoop_eq (levels_ne_nil pattern) hloop, rfl⟩

theorem levels_compiled : levels (joinLevels (compiledLevels pattern)) = compiledLevels pattern :=
  levels_joinLevels (by simpa [compiledLevels] using levels_ne_nil pattern) fun _ => slash_not_mem_compiledLevels

section

variable [Vstr]

def candidateOf (rule : Rule) : Candidate := ⟨rule.pattern, (levels rule.pattern).any isPlaceholder⟩

/-- A leaf holds every candidate under its compiled filter, and nothing else. -/
structure LeafOk (leaf : Leaf) : Prop where
  entries : ∀ f e, e ∈ leaf.topics.entriesAt f ↔ ∃ c, leaf.candidates[e]? = some c ∧ f = ruleFilter c.pattern
  valid : ∀ c ∈ leaf.candidates, topicFilterValidate (joinLevels (compiledLevels c.pattern)) = true
  uses : ∀ c ∈ leaf.candidates, c.usesPlaceholders = (levels c.pattern).any isPlaceholder

theorem leafOk_empty : LeafOk ⟨TopicNode.empty, []⟩ where
  entries := by simp
  valid := by simp
  uses := by simp

variable {leaf : Leaf} {rule : Rule}

theorem LeafOk.insert (hok : LeafOk leaf)
    (hval : topicFilterValidate (joinLevels (compiledLevels rule.pattern)) = true) {topics : TopicNode} {binding : TopicBinding}
    (h : topicIndexInsertBound leaf.topics (joinLevels (compiledLevels rule.pattern)) leaf.candidates.length =
      .ok (topics, binding)) : LeafOk ⟨topics, leaf.candidates ++ [candidateOf rule]⟩ := by
  obtain ⟨hne, hinner, hlev, -⟩ := levels_topicFilterInner hval
  rw [topicIndexInsertBound, if_neg (by simpa using hne), if_neg (by simpa using hinner), hlev, levels_compiled] at h
  obtain ⟨hents, -, -⟩ := TopicNode.insertLevels_spec h
  refine ⟨fun f e => ?_, fun c hc => ?_, fun c hc => ?_⟩
  · rw [hents, mem_append, hok.entries]
    constructor
    · rintro (⟨c, hc, rfl⟩ | he)
      · exact ⟨c, by rw [List.getElem?_append_left (List.getElem?_eq_some_iff.1 hc).1, hc], rfl⟩
      split at he
      next hf =>
        obtain rfl := List.mem_singleton.1 he
        exact ⟨candidateOf rule, by simp, hf⟩
      next => cases he
    · rintro ⟨c, hc, rfl⟩
      rcases Nat.lt_trichotomy e leaf.candidates.length with hlt | rfl | hgt
      · rw [List.getElem?_append_left hlt] at hc
        exact .inl ⟨c, hc, rfl⟩
      · obtain rfl : candidateOf rule = c := by simpa using hc
        right
        rw [show ruleFilter (candidateOf rule).pattern = parseLevels (innerLevels (compiledLevels rule.pattern))
          from rfl, if_pos rfl]
        exact mem_singleton_self _
      · rw [List.getElem?_eq_none (by rw [length_append, length_singleton]; omega)] at hc
        cases hc
  · rcases List.mem_append.1 hc with hc | hc
    · exact hok.valid c hc
    · rw [List.mem_singleton.1 hc]
      exact hval
  · rcases List.mem_append.1 hc with hc | hc
    · exact hok.uses c hc
    · rw [List.mem_singleton.1 hc]
      rfl

/-- The rule index of a candidate names the rule it was compiled from. -/
def CompiledFrom (rules : List Rule) (index : Nat) (c : Candidate) : Prop :=
  ∃ rule, rules[index]? = some rule ∧ c = candidateOf rule ∧ rule.resourceType = .mqttTopic ∧ rule.matchKind = .adapter

variable {rules : List Rule} {indices : List Nat}

theorem compileLeafLoop_ok {leaf' : Leaf} (hok : LeafOk leaf) (h : compileLeafLoop rules leaf indices = .ok leaf') :
    LeafOk leaf' ∧ ∃ cs, leaf'.candidates = leaf.candidates ++ cs ∧ List.Forall₂ (CompiledFrom rules) indices cs := by
  induction indices generalizing leaf with
  | nil =>
    obtain rfl := Except.ok.inj h
    exact ⟨hok, [], by simp, .nil⟩
  | cons index rest ih =>
    rw [compileLeafLoop] at h
    split at h
    next => cases h
    next rule hrule =>
      split at h
      next => cases h
      next hkind =>
        split at h
        next => cases h
        next filter uses hcompile =>
          obtain ⟨rfl, rfl⟩ := filterCompile_spec hcompile
          split at h
          next => cases h
          next hval =>
            split at h
            next => cases h
            next topics binding hins =>
              have hok' := hok.insert (by simpa using hval) hins
              obtain ⟨hok'', cs, hcs, hall⟩ := ih hok' h
              simp only [Bool.or_eq_true, Bool.not_eq_true', bne_iff_ne, not_or, ne_eq, not_not] at hkind
              refine ⟨hok'', candidateOf rule :: cs, by rw [hcs]; simp, .cons ⟨rule, hrule, rfl, ?_, ?_⟩ hall⟩
              · exact hkind.2
              · exact hkind.1.2

section
variable (h : compileLeaf rules indices = .ok leaf)
include h

/-- A compiled leaf has one candidate for every rule index, in order. -/
theorem compileLeaf_ok : LeafOk leaf ∧ List.Forall₂ (CompiledFrom rules) indices leaf.candidates := by
  rw [compileLeaf] at h
  split at h
  next => cases h
  next =>
    obtain ⟨hok, cs, hcs, hall⟩ := compileLeafLoop_ok leafOk_empty h
    rw [nil_append] at hcs
    exact ⟨hok, hcs ▸ hall⟩

/-- The candidate at a position comes from the rule its index names. -/
theorem compileLeaf_candidate {position index : Nat}
    (hix : indices[position]? = some index) (hrule : rules[index]? = some rule) :
    leaf.candidates[position]? = some (candidateOf rule) := by
  have hall := (compileLeaf_ok h).2
  obtain ⟨hlt, hget⟩ := List.getElem?_eq_some_iff.1 hix
  have hlt' : position < leaf.candidates.length := hall.length_eq ▸ hlt
  obtain ⟨rule', hrule', hc, -, -⟩ := hall.get hlt hlt'
  rw [get_eq_getElem, hget, hrule] at hrule'
  obtain rfl := Option.some.inj hrule'
  rw [List.getElem?_eq_getElem hlt']
  exact congrArg some hc

end

def ResourceValid (kind : ResourceKind) (resource : Bytes) : Prop :=
  match kind with
  | .topicFilter => topicFilterValidate resource = true
  | _ => topicNameValidate resource = true

variable {kind : ResourceKind} {resource : Bytes}

theorem requestLevels_valid (h : ResourceValid kind resource) :
    requestLevels kind resource ≠ [] ∧ levelsValid (requestLevels kind resource) := by
  have hname : ∀ t : Bytes, topicNameValidate t = true → levels t ≠ [] ∧ levelsValid (levels t) := by
    intro t ht
    obtain ⟨-, -, -, hp, hh⟩ := topicNameValidate_iff.1 ht
    exact ⟨levels_ne_nil t, levelsValid_literal fun l hl =>
      ⟨fun hm => hp (mem_of_mem_levels hl hm), fun hm => hh (mem_of_mem_levels hl hm)⟩⟩
  cases kind with
  | topic => exact hname resource h
  | unknown => exact hname resource h
  | topicFilter =>
    obtain ⟨-, -, hlev, hv⟩ := levels_topicFilterInner h
    exact ⟨by rw [requestLevels, ← hlev]; exact levels_ne_nil _, hv⟩

omit [Vstr] in
/-- The candidates a visit may hand on, given their positions exist. -/
theorem emitCandidates_spec (security : Option SecurityContext) {visited : List Nat}
    (h : ∀ e ∈ visited, ∃ c, leaf.candidates[e]? = some c) :
    ∃ out, emitCandidates leaf resource security visited = .ok out ∧ ∀ e, e ∈ out ↔ e ∈ visited ∧
      ∃ c, leaf.candidates[e]? = some c ∧
        (c.usesPlaceholders = true → placeholdersMatch c.pattern resource security = true) := by
  induction visited with
  | nil => exact ⟨[], rfl, by simp⟩
  | cons position rest ih =>
    obtain ⟨c, hc⟩ := h position (by simp)
    obtain ⟨out, hout, hmem⟩ := ih fun e he => h e (by simp [he])
    rw [emitCandidates, hc, hout]
    dsimp only
    split
    next hskip =>
      refine ⟨out, rfl, fun e => ?_⟩
      rw [hmem, List.mem_cons]
      simp only [Bool.and_eq_true, Bool.not_eq_true'] at hskip
      constructor
      · exact fun ⟨h1, h2⟩ => ⟨.inr h1, h2⟩
      rintro ⟨rfl | h1, h2⟩
      · obtain ⟨c', hc', hm⟩ := h2
        obtain rfl : c = c' := Option.mem_unique hc hc'
        rw [hm hskip.1] at hskip
        cases hskip.2
      · exact ⟨h1, h2⟩
    next hkeep =>
      refine ⟨position :: out, rfl, fun e => ?_⟩
      rw [List.mem_cons, List.mem_cons, hmem]
      simp only [Bool.and_eq_true, Bool.not_eq_true', not_and, Bool.not_eq_false] at hkeep
      constructor
      · rintro (rfl | ⟨h1, h2⟩)
        · exact ⟨.inl rfl, c, hc, hkeep⟩
        · exact ⟨.inr h1, h2⟩
      · rintro ⟨rfl | h1, h2⟩
        · exact .inl rfl
        · exact .inr ⟨h1, h2⟩

/-- The index visits exactly the candidates whose compiled filter covers the request. -/
theorem mem_visit (hok : LeafOk leaf) (hv : ResourceValid kind resource) (e : Nat) :
    e ∈ leaf.topics.visitContainingNode true (requestLevels kind resource) ↔
      ∃ c, leaf.candidates[e]? = some c ∧
        (ruleFilter c.pattern).covers sysLevel (parseLevels (requestLevels kind resource)) = true := by
  obtain ⟨hne, hlv⟩ := requestLevels_valid hv
  rw [TopicNode.mem_visitContainingNode hne hlv]
  constructor
  · rintro ⟨f, he, hc⟩
    obtain ⟨c, hcand, rfl⟩ := (hok.entries f e).1 he
    exact ⟨c, hcand, hc⟩
  · rintro ⟨c, hcand, hc⟩
    exact ⟨_, (hok.entries _ e).2 ⟨c, hcand, rfl⟩, hc⟩

/-- A valid request emits the candidates that cover it and pass the placeholder walk. -/
theorem mem_evaluateLeaf (hok : LeafOk leaf) {raw : Bytes} {pc : ProtocolContext} {r : Resource}
    (hr : mqttSecurityResource raw pc = .ok r) (hv : ResourceValid r.kind r.resource) :
    ∃ out, evaluateLeaf leaf .mqttTopic raw pc = .ok out ∧ ∀ e, e ∈ out ↔
      ∃ c, leaf.candidates[e]? = some c ∧
        (ruleFilter c.pattern).covers sysLevel (parseLevels (requestLevels r.kind r.resource)) = true ∧
        (c.usesPlaceholders = true → placeholdersMatch c.pattern r.resource r.context = true) := by
  have hvisit := mem_visit hok hv
  obtain ⟨out, hout, hmem⟩ := emitCandidates_spec r.context fun e he =>
    ((hvisit e).1 he).imp fun c hc => hc.1
  refine ⟨out, ?_, fun e => ?_⟩
  · rw [evaluateLeaf, if_neg (by simp), hr]
    dsimp only
    cases hk : r.kind with
    | topicFilter =>
      rw [hk] at hv hout
      have hv' : topicFilterValidate r.resource = true := hv
      rw [visitValidatedContaining_eq _ hv']
      simpa [hv', requestLevels] using hout
    | topic | unknown =>
      rw [hk] at hv hout
      have hv' : topicNameValidate r.resource = true := hv
      rw [visitValidatedTopic_eq _ hv']
      simpa [hv', requestLevels] using hout
  · rw [hmem, hvisit]
    constructor
    · rintro ⟨⟨c, hc, hcov⟩, c', hc', hm⟩
      obtain rfl : c = c' := Option.mem_unique hc hc'
      exact ⟨c, hc, hcov, hm⟩
    · rintro ⟨c, hc, hcov, hm⟩
      exact ⟨⟨c, hc, hcov⟩, c, hc, hm⟩

end

end Flowie.Security
