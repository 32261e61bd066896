import Flowie.Mqtt.TopicLanguage
import Flowie.TopicIndex

/-!
# The entries of the topic index by filter

A bucket of a node is addressed by a `LevelFilter`: the edges to the node, and the `#` bucket
for the multi-level wildcard. `entriesAt` is the abstract view of the trie as a map from
filters to entries. Insertion appends to one address and leaves every other one alone
(`entriesAt_insertLevels`).
-/

namespace Flowie

open Mqtt List

namespace TopicNode

def nodeAt : TopicNode → List (Option Bytes) → Option TopicNode
  | node, [] => some node
  | node, edge :: path => (node.child edge).bind (nodeAt · path)

def bucketOf (multi : Bool) : TopicBucket := if multi then .hash else .terminal

def entriesAt (node : TopicNode) (f : LevelFilter Bytes) : List Nat :=
  match node.nodeAt f.path with
  | none => []
  | some n => n.entries (bucketOf f.multi)

@[simp] theorem child_setChild_self (node next : TopicNode) (edge : Option Bytes) :
    (node.setChild edge next).child edge = some next := by
  cases edge <;> simp [setChild, child]

theorem child_setChild_ne {node next : TopicNode} {edge edge' : Option Bytes} (h : edge' ≠ edge) :
    (node.setChild edge next).child edge' = node.child edge' := by
  cases edge <;> cases edge' <;> simp_all [setChild, child, AssocList.lookup_put_ne]

@[simp] theorem entries_setChild (node next : TopicNode) (edge : Option Bytes) (b : TopicBucket) :
    (node.setChild edge next).entries b = node.entries b := by
  cases edge <;> cases b <;> rfl

variable (node : TopicNode)

@[simp] theorem child_setEntries (b : TopicBucket) (es : List Nat) (edge : Option Bytes) :
    (node.setEntries b es).child edge = node.child edge := by
  cases edge <;> cases b <;> rfl

theorem entries_setEntries (b b' : TopicBucket) (es : List Nat) :
    (node.setEntries b es).entries b' = if b' = b then es else node.entries b' := by
  cases b <;> cases b' <;> rfl

@[simp] theorem entriesAt_empty (f : LevelFilter Bytes) : empty.entriesAt f = [] := by
  obtain ⟨path, multi⟩ := f
  cases path with
  | nil => cases multi <;> rfl
  | cons edge path => cases edge <;> rfl

theorem entriesAt_nil (multi : Bool) : node.entriesAt ⟨[], multi⟩ = node.entries (bucketOf multi) := rfl

/-- Entries below an edge are those of the child; a missing child is an empty node. -/
theorem entriesAt_cons (edge : Option Bytes) (path : List (Option Bytes)) (multi : Bool) :
    node.entriesAt ⟨edge :: path, multi⟩ = ((node.child edge).getD empty).entriesAt ⟨path, multi⟩ := by
  cases h : node.child edge with
  | none =>
    rw [Option.getD_none, entriesAt_empty]
    simp [entriesAt, nodeAt, h]
  | some n => simp [entriesAt, nodeAt, h]

/-- Replacing one child changes the entries below its edge only. -/
theorem entriesAt_setChild (node next : TopicNode) (edge : Option Bytes) (f : LevelFilter Bytes) :
    (node.setChild edge next).entriesAt f =
      match f.path with
      | [] => node.entriesAt f
      | e :: path => if e = edge then next.entriesAt ⟨path, f.multi⟩ else node.entriesAt f := by
  obtain ⟨path, multi⟩ := f
  cases path with
  | nil => simp [entriesAt_nil]
  | cons e path =>
    simp only [entriesAt_cons]
    split
    next h => rw [h, child_setChild_self, Option.getD_some]
    next h => rw [child_setChild_ne h]

theorem entriesAt_setEntries (multi : Bool) (es : List Nat) (f : LevelFilter Bytes) :
    (node.setEntries (bucketOf multi) es).entriesAt f = if f = ⟨[], multi⟩ then es else node.entriesAt f := by
  obtain ⟨path, m⟩ := f
  cases path with
  | nil => cases multi <;> cases m <;> simp [entriesAt_nil, entries_setEntries, bucketOf]
  | cons e path => simp [entriesAt_cons]

end TopicNode

def TopicBinding.address (b : TopicBinding) : LevelFilter Bytes := ⟨b.node, decide (b.bucket = .hash)⟩

namespace TopicNode

theorem parseLevels_hash : parseLevels [[hash]] = ⟨[], true⟩ := rfl

theorem parseLevels_cons {token : Bytes} {rest : List Bytes} (h : ¬(token = [hash] ∧ rest = [])) :
    parseLevels (token :: rest) = ⟨tokenEdge token :: (parseLevels rest).path, (parseLevels rest).multi⟩ := by
  rw [parseLevels, if_neg h]
  rfl

/-- Pushing onto a bucket of the node appends at its own address. -/
theorem entriesAt_push (node : TopicNode) (multi : Bool) (e : Nat) (f : LevelFilter Bytes) :
    (node.setEntries (bucketOf multi) (node.entries (bucketOf multi) ++ [e])).entriesAt f =
      node.entriesAt f ++ if f = ⟨[], multi⟩ then [e] else [] := by
  rw [entriesAt_setEntries]
  split
  next h => rw [h, entriesAt_nil]
  next h => rw [append_nil]

variable {node : TopicNode} {e : Nat}

/-- An append below one edge is an append in the whole trie. -/
theorem entriesAt_setChild_append {next' : TopicNode} {edge : Option Bytes} {g : LevelFilter Bytes}
    (h : ∀ f, next'.entriesAt f =
      ((node.child edge).getD empty).entriesAt f ++ if f = g then [e] else []) (f : LevelFilter Bytes) :
    (node.setChild edge next').entriesAt f =
      node.entriesAt f ++ if f = ⟨edge :: g.path, g.multi⟩ then [e] else [] := by
  rw [entriesAt_setChild]
  obtain ⟨path, multi⟩ := f
  cases path with
  | nil => simp
  | cons e' path =>
    by_cases he : e' = edge
    · subst he
      simp only [if_true, h, entriesAt_cons, LevelFilter.ext_iff, List.cons.injEq, true_and]
    · simp [he]

variable {ls : List Bytes}

/-- Insertion appends the entry under the filter and binds it there. -/
theorem insertLevels_spec {node' : TopicNode} {b : TopicBinding} (h : node.insertLevels ls e = .ok (node', b)) :
    (∀ f, node'.entriesAt f = node.entriesAt f ++ if f = parseLevels ls then [e] else []) ∧
    b.address = parseLevels ls ∧ b.position = (node.entriesAt (parseLevels ls)).length := by
  induction ls generalizing node node' b with
  | nil => cases h
  | cons token rest ih =>
    rw [insertLevels] at h
    by_cases ht : token = [hash]
    · rw [if_pos ht] at h
      split at h
      next hr =>
        obtain rfl : rest = [] := by simpa using hr
        obtain ⟨rfl, rfl⟩ := Prod.mk.inj (Except.ok.inj h)
        subst ht
        exact ⟨entriesAt_push node true e, rfl, rfl⟩
      next hr => cases h
    · rw [if_neg ht] at h
      rw [parseLevels_cons fun hc => ht hc.1, entriesAt_cons]
      split at h
      next hr =>
        obtain rfl : rest = [] := by simpa using hr
        obtain ⟨rfl, rfl⟩ := Prod.mk.inj (Except.ok.inj h)
        exact ⟨entriesAt_setChild_append (entriesAt_push _ false e), rfl, rfl⟩
      next hr =>
        dsimp only at h
        split at h
        next => cases h
        next next' b' hrec =>
          obtain ⟨rfl, rfl⟩ := Prod.mk.inj (Except.ok.inj h)
          obtain ⟨hents, haddr, hposition⟩ := ih hrec
          refine ⟨entriesAt_setChild_append hents, ?_, hposition⟩
          rw [← haddr]
          rfl

/-- A filter with well-placed wildcards is inserted. -/
theorem insertLevels_ok (hne : ls ≠ []) (hv : levelsValid ls) (node : TopicNode) (e : Nat) :
    ∃ node' b, node.insertLevels ls e = .ok (node', b) := by
  induction ls generalizing node with
  | nil => exact absurd rfl hne
  | cons token rest ih =>
    rw [insertLevels]
    by_cases hr : rest = []
    · subst hr
      by_cases ht : token = [hash]
      · rw [if_pos ht]
        exact ⟨_, _, rfl⟩
      · rw [if_neg ht]
        exact ⟨_, _, rfl⟩
    · have ht : token ≠ [hash] := by
        rintro rfl
        rcases hv with h | ⟨h | h, -⟩
        · exact hr h.2
        · exact absurd h (by decide)
        · simp at h
      have hv' : levelsValid rest := hv.elim (fun h => absurd h.2 hr) (·.2)
      obtain ⟨node', b, hrec⟩ := ih hr hv' ((node.child (tokenEdge token)).getD empty)
      rw [if_neg ht]
      simp only [List.isEmpty_iff, hr, if_false, hrec]
      exact ⟨_, _, rfl⟩

end TopicNode

/-- On a valid filter the two readings of the share prefix agree. -/
theorem topicFilterInner_eq {f g : Bytes} (h : sharedFilter f = some g) : topicFilterInner f = g := by
  rcases sharedFilter_some h with ⟨rfl, hp⟩ | ⟨group, rfl, -, -, hs, -, -⟩
  · simp [topicFilterInner, hp]
  have hpre : sharePrefix.isPrefixOf (sharePrefix ++ (group ++ slash :: g)) = true :=
    List.isPrefixOf_iff_prefix.2 (prefix_append _ _)
  have hlen : ¬(sharePrefix ++ (group ++ slash :: g)).length ≤ sharePrefix.length := by
    simp only [length_append, length_cons]
    omega
  have hscan : (group ++ slash :: g).dropWhile (· != slash) = slash :: g := by
    rw [dropWhile_append_of_pos fun ch hch => by simpa using fun hc : ch = slash => hs (hc ▸ hch)]
    simp
  rw [topicFilterInner, decide_eq_false hlen, hpre, drop_left, hscan]
  rfl

section

variable [Vstr] {f : Bytes} (h : topicFilterValidate f = true)
include h

/-- A valid filter is inserted and requested by its inner levels, of which there is one. -/
theorem levels_topicFilterInner :
    f ≠ [] ∧ topicFilterInner f ≠ [] ∧ levels (topicFilterInner f) = innerLevels (levels f) ∧
      levelsValid (innerLevels (levels f)) := by
  obtain ⟨hne, hsize, hutf8, g, hg, hv⟩ := topicFilterValidate_iff.1 h
  rw [topicFilterInner_eq hg, ← levels_sharedFilter hg]
  exact ⟨hne, (sharedFilter_bounds hg hne hsize hutf8).1, rfl, hv⟩

/-- A valid filter is inserted under its inner levels. -/
theorem topicIndexInsertBound_spec (root : TopicNode) (i : Nat) :
    ∃ root' b, topicIndexInsertBound root f i = .ok (root', b) ∧
      (∀ g, root'.entriesAt g = root.entriesAt g ++ if g = b.address then [i] else []) ∧
      b.address = parseLevels (innerLevels (levels f)) ∧ b.position = (root.entriesAt b.address).length := by
  obtain ⟨hne, hinner, hlev, hv⟩ := levels_topicFilterInner h
  have hls : innerLevels (levels f) ≠ [] := hlev ▸ levels_ne_nil _
  obtain ⟨root', b, hins⟩ := TopicNode.insertLevels_ok hls hv root i
  obtain ⟨hents, haddr, hposition⟩ := TopicNode.insertLevels_spec hins
  refine ⟨root', b, ?_, ?_, haddr, ?_⟩
  · rw [topicIndexInsertBound, if_neg (by simpa using hne), if_neg (by simpa using hinner), hlev, hins]
  · rwa [haddr]
  · rwa [haddr]

end

end Flowie
