import Flowie.TopicIndex.Entries

/-!
# What the topic index visits

`visitContainingNode` reaches exactly the entries stored under a filter that covers the
requested one (`mem_visitContainingNode`). A topic is a requested filter without wildcards,
so `visitTopicNode` reaches exactly the entries whose filter accepts it.
-/

namespace Flowie

open Mqtt LevelFilter List

namespace TopicNode

theorem exists_levelFilter_iff {P : LevelFilter Bytes → Prop} :
    (∃ f, P f) ↔ P ⟨[], false⟩ ∨ P ⟨[], true⟩ ∨ (∃ g : LevelFilter Bytes, P ⟨none :: g.path, g.multi⟩) ∨
      ∃ t, ∃ g : LevelFilter Bytes, P ⟨some t :: g.path, g.multi⟩ := by
  constructor
  · rintro ⟨⟨path, multi⟩, h⟩
    match path, multi with
    | [], false => exact .inl h
    | [], true => exact .inr (.inl h)
    | none :: p, m => exact .inr (.inr (.inl ⟨⟨p, m⟩, h⟩))
    | some t :: p, m => exact .inr (.inr (.inr ⟨t, ⟨p, m⟩, h⟩))
  · rintro (h | h | ⟨g, h⟩ | ⟨t, g, h⟩) <;> exact ⟨_, h⟩

/-- The entries below `node` under a filter covering the levels `ls`. -/
def Covering (node : TopicNode) (ls : List Bytes) (e : Nat) : Prop :=
  ∃ f, e ∈ node.entriesAt f ∧ pathCovers f.path f.multi (parseLevels ls).path (parseLevels ls).multi = true

theorem covering_end (node : TopicNode) (e : Nat) : node.Covering [] e ↔ e ∈ node.visitEnd := by
  rw [Covering, exists_levelFilter_iff]
  simp [parseLevels, pathCovers, entriesAt_nil, visitEnd, bucketOf, entries]

theorem covering_empty (ls : List Bytes) (e : Nat) : ¬empty.Covering ls e := by
  rintro ⟨f, hf, -⟩
  simp at hf

variable {rest : List Bytes} {token : Bytes} {e : Nat}

/-- One level down: through the `#` bucket, the `+` child or the exact child. -/
theorem covering_cons {node : TopicNode} (h : token ≠ [hash]) :
    node.Covering (token :: rest) e ↔ e ∈ node.hashEntries ∨
      ((node.child none).getD empty).Covering rest e ∨
      token ≠ [plus] ∧ ((node.child (some token)).getD empty).Covering rest e := by
  rw [Covering, exists_levelFilter_iff, parseLevels_cons fun hc => h hc.1]
  by_cases hp : token = [plus]
  · simp [tokenEdge, hp, pathCovers, entriesAt_nil, bucketOf, entries, entriesAt_cons, Covering]
  simp only [tokenEdge, hp, if_false, pathCovers, entriesAt_nil, bucketOf, entries, entriesAt_cons, Covering,
    Bool.and_eq_true, beq_iff_eq]
  constructor
  · rintro (⟨-, he⟩ | ⟨he, -⟩ | ⟨g, he⟩ | ⟨t, g, he, rfl, hc⟩)
    · simp at he
    · exact .inl he
    · exact .inr (.inl ⟨g, he⟩)
    · exact .inr (.inr ⟨hp, g, he, hc⟩)
  · rintro (he | ⟨g, he⟩ | ⟨-, g, he, hc⟩)
    · exact .inr (.inl ⟨he, trivial⟩)
    · exact .inr (.inr (.inl ⟨g, he⟩))
    · exact .inr (.inr (.inr ⟨token, g, he, rfl, hc⟩))

theorem covering_hash (node : TopicNode) : node.Covering [[hash]] e ↔ e ∈ node.hashEntries := by
  rw [Covering, exists_levelFilter_iff, parseLevels_hash]
  simp [pathCovers, entriesAt_nil, bucketOf, entries]

theorem levelsValid_tail (hv : levelsValid (token :: rest)) (h : token ≠ [hash]) : levelsValid rest :=
  hv.elim (fun hc => absurd hc.1 h) (·.2)

theorem levelsValid_hash (hv : levelsValid ([hash] :: rest)) : rest = [] := by
  rcases hv with h | ⟨h | h, -⟩
  · exact h.2
  · exact absurd h (by decide)
  · simp at h

/-- The visit below a child, with the end of the request handled by `visitEnd`. -/
theorem mem_visit_down (next : Option TopicNode)
    (ih : ∀ n : TopicNode, rest ≠ [] → (e ∈ n.visitContainingNode false rest ↔ n.Covering rest e)) :
    e ∈ descend rest (fun n => n.visitContainingNode false rest) next ↔ (next.getD empty).Covering rest e := by
  cases next with
  | none => simp [descend, covering_empty]
  | some n =>
    by_cases hr : rest = []
    · subst hr
      simp [descend, covering_end]
    · simp [descend, hr, ih n hr]

variable {ls : List Bytes}

/-- Below the first level the visit reaches every covering entry. -/
theorem mem_visitContainingNode_below (hne : ls ≠ []) (hv : levelsValid ls) (node : TopicNode) (e : Nat) :
    e ∈ node.visitContainingNode false ls ↔ node.Covering ls e := by
  induction ls generalizing node with
  | nil => exact absurd rfl hne
  | cons token rest ih =>
    rw [visitContainingNode]
    by_cases hh : token = [hash]
    · subst hh
      rw [levelsValid_hash hv, covering_hash]
      simp
    · have hdown := fun next => mem_visit_down next (e := e) fun n hr => ih hr (levelsValid_tail hv hh) n
      rw [covering_cons hh]
      by_cases hp : token = [plus]
      · have hph : ¬[plus] = [hash] := by decide
        simp [hp, hph, hdown, child]
      simp only [Bool.false_and, Bool.false_eq_true, if_false, hh, hp, mem_append, hdown, child, ne_eq,
        not_false_eq_true, true_and]
      exact or_congr_right or_comm

/-- The visit reaches exactly the entries stored under a filter covering the request. -/
theorem mem_visitContainingNode (hne : ls ≠ []) (hv : levelsValid ls) (node : TopicNode) :
    e ∈ node.visitContainingNode true ls ↔
      ∃ f, e ∈ node.entriesAt f ∧ f.covers sysLevel (parseLevels ls) = true := by
  obtain ⟨token, rest, rfl⟩ := exists_cons_of_ne_nil hne
  by_cases hs : sysLevel token = true
  · -- a reserved first level is reached through the exact child only
    have hh : token ≠ [hash] := by rintro rfl; exact absurd hs (by decide)
    have hp : token ≠ [plus] := by rintro rfl; exact absurd hs (by decide)
    have hdown := fun next => mem_visit_down next (e := e) fun n hr =>
      mem_visitContainingNode_below hr (levelsValid_tail hv hh) n e
    rw [visitContainingNode, exists_levelFilter_iff, parseLevels_cons fun hc => hh hc.1]
    simp only [hs, Bool.and_true, if_true, hh, hp, if_false, nil_append, append_nil, hdown, covers,
      sysFirst, wildFirst, tokenEdge, pathCovers, entriesAt_cons, Bool.not_true, Bool.and_false,
      Bool.false_eq_true, and_false, exists_false, false_or, Bool.not_false, Bool.and_eq_true, beq_iff_eq]
    constructor
    · rintro ⟨g, he, hc⟩
      exact ⟨token, g, he, rfl, hc⟩
    · rintro ⟨t, g, he, rfl, hc⟩
      exact ⟨g, he, hc⟩
  · have hbelow := mem_visitContainingNode_below hne hv node e
    have hsys : sysFirst sysLevel (parseLevels (token :: rest)) = false := by
      by_cases hh : token = [hash] ∧ rest = []
      · rw [hh.1, hh.2]
        rfl
      rw [parseLevels_cons hh]
      by_cases hp : token = [plus]
      · simp [tokenEdge, hp, sysFirst]
      · simpa [tokenEdge, hp, sysFirst] using hs
    have hsame : node.visitContainingNode true (token :: rest) = node.visitContainingNode false (token :: rest) := by
      simp only [visitContainingNode, hs, Bool.and_false]
    rw [hsame, hbelow, Covering]
    simp only [covers, hsys, Bool.false_and, Bool.not_false, Bool.and_true]

/-- Without wildcards in the levels a topic visit is a containing visit. -/
theorem visitTopicNode_eq (hw : ∀ l ∈ ls, l ≠ [plus] ∧ l ≠ [hash]) (node : TopicNode) (first : Bool) :
    node.visitTopicNode (first && (ls.head?.any sysLevel)) ls = node.visitContainingNode first ls := by
  induction ls generalizing node first with
  | nil => rfl
  | cons token rest ih =>
    obtain ⟨hp, hh⟩ := hw token (by simp)
    have hrec := fun n => ih (fun l hl => hw l (by simp [hl])) n false
    simp only [Bool.false_and] at hrec
    simp only [visitTopicNode, visitContainingNode, List.head?_cons, Option.any_some, hh, hp, if_false, hrec]
    rfl

end TopicNode

section

variable [Vstr]

theorem visitValidatedTopic_eq (root : TopicNode) {topic : Bytes} (h : topicNameValidate topic = true) :
    topicIndexVisitValidatedTopic root topic = .ok (root.visitContainingNode true (levels topic)) := by
  obtain ⟨hne, -, -, hp, hh⟩ := topicNameValidate_iff.1 h
  obtain ⟨l, ls, hl⟩ := exists_cons_of_ne_nil (levels_ne_nil topic)
  have hsys : (topic.head? == some dollar) = (true && (levels topic).head?.any sysLevel) := by
    rw [hl, Bool.eq_iff_iff, beq_iff_eq, head?_first_level hl (by decide)]
    simp [sysLevel]
  rw [topicIndexVisitValidatedTopic, if_neg (by simpa using hne), hsys,
    TopicNode.visitTopicNode_eq fun l hl => topic_levels_literal hp hh hl]

theorem visitValidatedContaining_eq (root : TopicNode) {filter : Bytes} (h : topicFilterValidate filter = true) :
    topicIndexVisitValidatedContainingFilters root filter =
      .ok (root.visitContainingNode true (innerLevels (levels filter))) := by
  obtain ⟨hne, hinner, hlev, -⟩ := levels_topicFilterInner h
  rw [topicIndexVisitValidatedContainingFilters, if_neg (by simp [hne, hinner]), hlev]

end

end Flowie
