import Mathlib.Data.List.Perm.Lattice
import Flowie.TopicIndex.Placement
import Flowie.TopicIndex.Visit

/-!
# Each entry is visited once

The breadth-first walk of `flowie_topic_index_match` finds what the recursive one finds, in
another order (`matchNodes_perm`). When the buckets are separated, as those of placed entries
are, the recursive walk passes no entry twice (`visitContainingNode_nodup`).
-/

namespace Flowie

open Mqtt List

namespace TopicNode

theorem descend_eq (rest : List Bytes) (visit : TopicNode → List Nat) (next : Option TopicNode) :
    descend rest visit next = next.toList.flatMap fun n => if rest.isEmpty then n.visitEnd else visit n := by
  cases next <;> simp [descend]

/-- Taking a level together finds the same entries as going down from each node. -/
theorem matchNodes_perm (active : List TopicNode) (system : Bool) (ls : List Bytes) :
    (matchNodes active system ls).Perm (active.flatMap fun node => node.visitTopicNode system ls) := by
  induction ls generalizing active system with
  | nil => simp [matchNodes, visitTopicNode]
  | cons token rest ih =>
    let below : TopicNode → List Nat := fun n => if rest.isEmpty then n.visitEnd else n.visitTopicNode false rest
    let next : TopicNode → List TopicNode := fun node =>
      (if system then [] else node.plusChild.toList) ++ (node.exactChildren.lookup token).toList
    have hnext : (if rest.isEmpty then (active.flatMap next).flatMap visitEnd
        else if (active.flatMap next).isEmpty then [] else matchNodes (active.flatMap next) false rest).Perm
        ((active.flatMap next).flatMap below) := by
      by_cases hr : rest.isEmpty = true
      · simp only [hr, if_true, below]
        exact List.Perm.refl _
      simp only [below, if_neg hr]
      split
      next hnil =>
        rw [List.isEmpty_iff.1 hnil]
        exact List.Perm.refl _
      next => exact ih _ _
    -- Within one node the two walks differ in the order of the two children.
    have hnode : ∀ node ∈ active, ((if system then [] else node.hashEntries) ++ (next node).flatMap below).Perm
        (node.visitTopicNode system (token :: rest)) := by
      intro node _
      rw [visitTopicNode, descend_eq, descend_eq]
      refine List.Perm.append_left _ ?_
      cases system with
      | true => simp [next, below]
      | false =>
        simp only [next, Bool.false_eq_true, if_false, flatMap_append]
        exact perm_append_comm
    rw [matchNodes]
    refine (List.Perm.append_left _ hnext).trans ?_
    rw [flatMap_assoc]
    exact (flatMap_append_perm _ _ _).trans (List.Perm.flatMap_left _ hnode)

/-- No entry is stored twice. -/
structure Separated (node : TopicNode) : Prop where
  nodup : ∀ f, (node.entriesAt f).Nodup
  unique : ∀ {f g i}, i ∈ node.entriesAt f → i ∈ node.entriesAt g → f = g

variable {node : TopicNode} {edge : Option Bytes} {next : TopicNode}

theorem entriesAt_child (h : node.child edge = some next) (f : LevelFilter Bytes) :
    next.entriesAt f = node.entriesAt ⟨edge :: f.path, f.multi⟩ := by
  rw [entriesAt_cons, h, Option.getD_some]

theorem Separated.child (hs : node.Separated) (h : node.child edge = some next) : next.Separated where
  nodup := by
    intro f
    rw [entriesAt_child h]
    exact hs.nodup _
  unique := by
    intro f g i hf hg
    rw [entriesAt_child h] at hf hg
    have heq := hs.unique hf hg
    simp only [LevelFilter.ext_iff, List.cons.injEq, true_and] at heq
    exact LevelFilter.ext heq.1 heq.2

variable {i : Nat}

theorem mem_visitEnd (h : i ∈ node.visitEnd) : ∃ f, i ∈ node.entriesAt f := by
  rcases List.mem_append.1 h with h | h
  · exact ⟨⟨[], false⟩, h⟩
  · exact ⟨⟨[], true⟩, h⟩

variable {rest : List Bytes} {visit : TopicNode → List Nat}

/-- What is found below an edge is stored below it. -/
theorem mem_descend
    (hvisit : ∀ next, i ∈ visit next → ∃ f, i ∈ next.entriesAt f) (h : i ∈ descend rest visit (node.child edge)) :
    ∃ f : LevelFilter Bytes, i ∈ node.entriesAt ⟨edge :: f.path, f.multi⟩ := by
  cases hchild : node.child edge with
  | none =>
    rw [hchild] at h
    cases h
  | some next =>
    rw [hchild, descend] at h
    have hsto : ∃ f, i ∈ next.entriesAt f := by
      split at h
      · exact mem_visitEnd h
      · exact hvisit next h
    obtain ⟨f, hf⟩ := hsto
    exact ⟨f, by rwa [← entriesAt_child hchild]⟩

theorem visitEnd_nodup (hs : node.Separated) : node.visitEnd.Nodup := by
  refine List.nodup_append'.2 ⟨hs.nodup ⟨[], false⟩, hs.nodup ⟨[], true⟩, ?_⟩
  intro i hterminal hhash
  have heq := hs.unique (show i ∈ node.entriesAt ⟨[], false⟩ from hterminal) (show i ∈ node.entriesAt ⟨[], true⟩ from hhash)
  cases heq

theorem descend_nodup (hs : node.Separated)
    (hvisit : ∀ next, next.Separated → (visit next).Nodup) : (descend rest visit (node.child edge)).Nodup := by
  cases hchild : node.child edge with
  | none => exact nodup_nil
  | some next =>
    rw [descend]
    split
    · exact visitEnd_nodup (hs.child hchild)
    · exact hvisit next (hs.child hchild)

/-- The three parts of a visit: entries of the node, then what is below its two children. -/
theorem visitContainingNode_parts (node : TopicNode) {first : Bool} {token : Bytes} :
    ∃ own ex pl : List Nat,
      node.visitContainingNode first (token :: rest) = own ++ (ex ++ pl) ∧
      own.Sublist node.hashEntries ∧
      ex.Sublist (descend rest (visitContainingNode · false rest) (node.child (some token))) ∧
      pl.Sublist (descend rest (visitContainingNode · false rest) (node.child none)) := by
  rw [visitContainingNode]
  by_cases hh : token = [Mqtt.hash]
  · rw [if_pos hh]
    refine ⟨_, [], [], rfl, ?_, nil_sublist _, nil_sublist _⟩
    split <;> simp
  · rw [if_neg hh]
    refine ⟨_, _, _, rfl, ?_, ?_, ?_⟩
    · split <;> simp
    · split
      · exact nil_sublist _
      · exact List.Sublist.refl _
    · split
      · exact nil_sublist _
      · exact List.Sublist.refl _

/-- Whatever a visit finds is stored. -/
theorem visitContainingNode_stored {first : Bool} {ls : List Bytes} (h : i ∈ node.visitContainingNode first ls) :
    ∃ f, i ∈ node.entriesAt f := by
  induction ls generalizing node first with
  | nil => cases h
  | cons token rest ih =>
    obtain ⟨own, ex, pl, heq, hown, hex, hpl⟩ := node.visitContainingNode_parts
    rw [heq, mem_append, mem_append] at h
    rcases h with h | h | h
    · exact ⟨⟨[], true⟩, hown.subset h⟩
    · obtain ⟨f, hf⟩ := mem_descend (fun _ => ih) (hex.subset h)
      exact ⟨_, hf⟩
    · obtain ⟨f, hf⟩ := mem_descend (fun _ => ih) (hpl.subset h)
      exact ⟨_, hf⟩

/-- A visit passes no entry twice: its parts are in different buckets. -/
theorem visitContainingNode_nodup (hs : node.Separated) (first : Bool) (ls : List Bytes) :
    (node.visitContainingNode first ls).Nodup := by
  induction ls generalizing node first with
  | nil => exact nodup_nil
  | cons token rest ih =>
    obtain ⟨own, ex, pl, heq, hown, hex, hpl⟩ := node.visitContainingNode_parts
    have hsto : ∀ {edge : Option Bytes} {i : Nat},
        i ∈ descend rest (visitContainingNode · false rest) (node.child edge) →
        ∃ f : LevelFilter Bytes, i ∈ node.entriesAt ⟨edge :: f.path, f.multi⟩ :=
      fun h => mem_descend (fun _ => visitContainingNode_stored) h
    have hbelow : ∀ edge, (descend rest (visitContainingNode · false rest) (node.child edge)).Nodup :=
      fun edge => descend_nodup hs fun next hnext => ih hnext false
    rw [heq]
    refine List.nodup_append'.2 ⟨(hs.nodup ⟨[], true⟩).sublist hown, ?_, ?_⟩
    · refine List.nodup_append'.2 ⟨(hbelow _).sublist hex, (hbelow _).sublist hpl, ?_⟩
      intro i hi hj
      obtain ⟨f, hf⟩ := hsto (hex.subset hi)
      obtain ⟨g, hg⟩ := hsto (hpl.subset hj)
      cases hs.unique hf hg
    · intro i hi hj
      have hhash : i ∈ node.entriesAt ⟨[], true⟩ := hown.subset hi
      rcases List.mem_append.1 hj with hj | hj
      · obtain ⟨f, hf⟩ := hsto (hex.subset hj)
        cases hs.unique hhash hf
      · obtain ⟨f, hf⟩ := hsto (hpl.subset hj)
        cases hs.unique hhash hf

end TopicNode

theorem Placed.separated {root : TopicNode} {bindings : Nat → Option TopicBinding} (h : Placed root bindings) :
    root.Separated where
  nodup := h.nodup
  unique := h.address_unique

end Flowie
