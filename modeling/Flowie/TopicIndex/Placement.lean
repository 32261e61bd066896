import Mathlib.Data.List.Nodup
import Mathlib.Logic.Function.Basic
import Flowie.TopicIndex.Entries

/-!
# Where the entries of the topic index are placed

Removal takes an entry out of its bucket by swapping, and drops the nodes that became empty
(`removeAt_spec`). `Placed` says that the bindings the callers keep are the places of the entries.
Insertion and removal keep it, when the caller corrects the binding of the entry that moved.
-/

namespace Flowie

open Mqtt List Option

namespace TopicNode

@[simp] theorem child_dropChild_self (node : TopicNode) (edge : Option Bytes) : (node.dropChild edge).child edge = none := by
  cases edge <;> simp [dropChild, child]

variable {node : TopicNode}

theorem child_dropChild_ne {edge edge' : Option Bytes} (h : edge' ≠ edge) :
    (node.dropChild edge).child edge' = node.child edge' := by
  cases edge <;> cases edge' <;> simp_all [dropChild, child, AssocList.lookup_remove_ne]

@[simp] theorem entries_dropChild (edge : Option Bytes) (b : TopicBucket) :
    (node.dropChild edge).entries b = node.entries b := by
  cases edge <;> cases b <;> rfl

/-- A node without entries and children holds nothing under any filter. -/
theorem entriesAt_of_isEmpty (h : node.isEmpty = true) (f : LevelFilter Bytes) : node.entriesAt f = [] := by
  obtain ⟨exactChildren, plusChild, terminalEntries, hashEntries⟩ := node
  simp only [isEmpty, Bool.and_eq_true, isNone_iff_eq_none, List.isEmpty_iff] at h
  obtain ⟨⟨⟨rfl, rfl⟩, rfl⟩, rfl⟩ := h
  exact entriesAt_empty f

/-- Dropping an empty child is the same as keeping it, as far as entries go. -/
theorem entriesAt_pruned (node next : TopicNode) (edge : Option Bytes) (f : LevelFilter Bytes) :
    (if next.isEmpty then node.dropChild edge else node.setChild edge next).entriesAt f =
      (node.setChild edge next).entriesAt f := by
  split
  · rename_i hnil
    obtain ⟨path, multi⟩ := f
    cases path with
    | nil => simp [entriesAt_nil]
    | cons e path =>
      rw [entriesAt_cons, entriesAt_cons]
      by_cases he : e = edge
      · rw [he, child_dropChild_self, child_setChild_self, getD_none, getD_some, entriesAt_empty,
          entriesAt_of_isEmpty hnil]
      · rw [child_dropChild_ne he, child_setChild_ne he]
  · rfl

end TopicNode

/-- The bucket of a binding is the one its address names. -/
theorem bucketOf_decide (bucket : TopicBucket) : TopicNode.bucketOf (decide (bucket = .hash)) = bucket := by
  cases bucket <;> rfl

namespace TopicNode

/-- Removal swaps the entry out of its bucket and leaves every other bucket alone. -/
theorem removeAt_spec {node : TopicNode} {path : List (Option Bytes)} {bucket : TopicBucket} {position entryIndex : Nat}
    (hsto : (node.entriesAt ⟨path, decide (bucket = .hash)⟩)[position]? = some entryIndex) :
    ∃ node', node.removeAt entryIndex position bucket path =
        .ok (node', (node.entriesAt ⟨path, decide (bucket = .hash)⟩).swapMoved position) ∧
      ∀ f, node'.entriesAt f = if f = ⟨path, decide (bucket = .hash)⟩ then (node.entriesAt f).swapRemove position
        else node.entriesAt f := by
  induction path generalizing node with
  | nil =>
    rw [entriesAt_nil, bucketOf_decide] at hsto
    refine ⟨node.setEntries bucket ((node.entries bucket).swapRemove position), ?_, ?_⟩
    · rw [removeAt, entriesAt_nil, bucketOf_decide]
      simp only [hsto, ne_eq, not_true_eq_false, if_false]
    intro f
    have hset := entriesAt_setEntries node (decide (bucket = .hash)) ((node.entries bucket).swapRemove position) f
    rw [bucketOf_decide] at hset
    rw [hset]
    split
    · rename_i hf
      rw [hf, entriesAt_nil, bucketOf_decide]
    · rfl
  | cons edge path ih =>
    -- The entry is below the edge, so there is a child along it.
    rw [entriesAt_cons] at hsto
    cases hchild : node.child edge with
    | none =>
      rw [hchild, getD_none, entriesAt_empty] at hsto
      cases hsto
    | some next =>
      rw [hchild, getD_some] at hsto
      obtain ⟨next', hrem, hents⟩ := ih hsto
      refine ⟨if next'.isEmpty then node.dropChild edge else node.setChild edge next', ?_, ?_⟩
      · rw [removeAt, hchild, entriesAt_cons, hchild, getD_some]
        simp only [hrem]
      intro f
      rw [entriesAt_pruned, entriesAt_setChild]
      obtain ⟨fpath, multi⟩ := f
      cases fpath with
      | nil => simp
      | cons e fpath =>
        by_cases he : e = edge
        · subst he
          simp only [if_true, hents, entriesAt_cons, hchild, getD_some, LevelFilter.ext_iff, List.cons.injEq, true_and]
        · simp [he]

end TopicNode

/-- The bindings the callers keep are the places of the entries: each bucket holds the entries
    bound to it, at the positions they are bound to. -/
def Placed (root : TopicNode) (bindings : Nat → Option TopicBinding) : Prop :=
  ∀ f position i, (root.entriesAt f)[position]? = some i ↔
    ∃ b, bindings i = some b ∧ b.address = f ∧ b.position = position

/-- The caller of a removal corrects the binding of the entry that moved. -/
def rebind (position : Nat) (moved : Option Nat) (bindings : Nat → Option TopicBinding) (i : Nat) :
    Option TopicBinding :=
  if moved = some i then (bindings i).map fun b => { b with position := position } else bindings i

namespace Placed

variable {root root' : TopicNode} {bindings : Nat → Option TopicBinding}

theorem empty : Placed .empty fun _ => none := by
  intro f position i
  simp

variable {i : Nat} {b : TopicBinding}

theorem stored (h : Placed root bindings) (hb : bindings i = some b) : (root.entriesAt b.address)[b.position]? = some i :=
  (h b.address b.position i).2 ⟨b, hb, rfl, rfl⟩

variable {f : LevelFilter Bytes} (h : Placed root bindings)
include h

theorem mem_iff : i ∈ root.entriesAt f ↔ ∃ b, bindings i = some b ∧ b.address = f := by
  rw [mem_iff_getElem?]
  constructor
  · rintro ⟨position, hi⟩
    obtain ⟨b, hb, haddr, -⟩ := (h f position i).1 hi
    exact ⟨b, hb, haddr⟩
  · rintro ⟨b, hb, rfl⟩
    exact ⟨b.position, h.stored hb⟩

theorem nodup (f : LevelFilter Bytes) : (root.entriesAt f).Nodup := by
  rw [nodup_iff_getElem?_ne_getElem?]
  intro p q hpq hq heq
  have hsto := List.getElem?_eq_getElem hq
  obtain ⟨b, hb, -, hbq⟩ := (h f q _).1 hsto
  obtain ⟨c, hc, -, hcp⟩ := (h f p _).1 (heq.trans hsto)
  obtain rfl := Option.mem_unique hb hc
  omega

/-- An entry is in one bucket. -/
theorem address_unique {g : LevelFilter Bytes} (hf : i ∈ root.entriesAt f) (hg : i ∈ root.entriesAt g) : f = g := by
  obtain ⟨b, hb, rfl⟩ := h.mem_iff.1 hf
  obtain ⟨c, hc, rfl⟩ := h.mem_iff.1 hg
  rw [Option.mem_unique hb hc]

/-- Appending an entry that is not bound yet. -/
theorem append (hfr : bindings i = none)
    (hents : ∀ f, root'.entriesAt f = root.entriesAt f ++ if f = b.address then [i] else [])
    (hposition : b.position = (root.entriesAt b.address).length) : Placed root' (Function.update bindings i (some b)) := by
  intro f position j
  rw [hents]
  by_cases hji : j = i
  · -- The new entry is at the end of its bucket and nowhere else.
    subst hji
    have hno : ∀ q : Nat, (root.entriesAt f)[q]? ≠ some j := by
      intro q hq
      obtain ⟨c, hc, -⟩ := (h f q j).1 hq
      rw [hfr] at hc
      cases hc
    simp only [Function.update_self, Option.some.injEq, exists_eq_left']
    by_cases hf : f = b.address
    · subst hf
      rw [if_pos rfl, List.getElem?_append]
      split
      · rename_i hlt
        simp only [hno, true_and, false_iff]
        omega
      · rename_i hge
        rw [List.getElem?_singleton]
        simp only [true_and]
        split <;> simp <;> omega
    · rw [if_neg hf, append_nil]
      simp only [hno, Ne.symm hf, false_and]
  · rw [Function.update_of_ne hji, ← h f position j]
    by_cases hf : f = b.address
    · rw [if_pos hf, List.getElem?_append]
      split
      · rfl
      rename_i hge
      rw [List.getElem?_eq_none (Nat.le_of_not_lt hge), List.getElem?_singleton]
      split <;> simp [Ne.symm hji]
    · rw [if_neg hf, append_nil]

/-- The entry that moves is another one, bound to the same bucket. -/
theorem moved {m : Nat} (hb : bindings i = some b)
    (hm : (root.entriesAt b.address).swapMoved b.position = some m) : m ≠ i ∧ m ∈ root.entriesAt b.address := by
  rw [List.swapMoved] at hm
  split at hm
  next hlast =>
    refine ⟨?_, mem_of_getLast? hm⟩
    rintro rfl
    rw [List.getLast?_eq_getElem?] at hm
    have hlt := (List.getElem?_eq_some_iff.1 hm).1
    obtain ⟨c, hc, -, hposition⟩ := (h b.address _ m).1 hm
    obtain rfl := Option.mem_unique hb hc
    omega
  next => cases hm

/-- Taking a bound entry out, when the binding of the entry that moved is corrected. -/
theorem swapRemove (hb : bindings i = some b)
    (hents : ∀ f, root'.entriesAt f = if f = b.address then (root.entriesAt f).swapRemove b.position else root.entriesAt f) :
    Placed root' (rebind b.position ((root.entriesAt b.address).swapMoved b.position)
      (Function.update bindings i none)) := by
  intro f position j
  have hmvd : ∀ {m}, (root.entriesAt b.address).swapMoved b.position = some m → m ∈ root.entriesAt b.address :=
    fun hm => (h.moved hb hm).2
  rw [hents, rebind]
  by_cases hji : j = i
  · -- The entry itself is bound nowhere any more.
    subst hji
    have hgone : (if (root.entriesAt b.address).swapMoved b.position = some j then
        (Function.update bindings j none j).map fun c => { c with position := b.position }
        else Function.update bindings j none j) = none := by simp
    rw [hgone]
    simp only [reduceCtorEq, false_and, exists_false, iff_false]
    by_cases hf : f = b.address
    · rw [if_pos hf, hf, List.getElem?_swapRemove_iff (h.nodup _) (h.stored hb)]
      simp
    rw [if_neg hf, h]
    rintro ⟨c, hc, haddr, -⟩
    rw [← Option.mem_unique hb hc] at haddr
    exact hf haddr.symm
  · rw [Function.update_of_ne hji]
    by_cases hf : f = b.address
    · rw [if_pos hf, hf, List.getElem?_swapRemove_iff (h.nodup _) (h.stored hb)]
      simp only [ne_eq, hji, not_false_eq_true, true_and]
      by_cases hm : (root.entriesAt b.address).swapMoved b.position = some j
      · obtain ⟨c, hc, haddr⟩ := h.mem_iff.1 (hmvd hm)
        simp only [hm, if_true, hc, map_some, Option.some.injEq, exists_eq_left']
        exact ⟨fun e => ⟨haddr, e.symm⟩, fun e => e.2.symm⟩
      · simp only [hm, if_false]
        exact h b.address position j
    · rw [if_neg hf]
      by_cases hm : (root.entriesAt b.address).swapMoved b.position = some j
      · -- The entry that moved stays in its bucket, which is another one.
        obtain ⟨c, hc, haddr⟩ := h.mem_iff.1 (hmvd hm)
        have haddr' : TopicBinding.address { c with position := b.position } = b.address := haddr
        simp only [hm, if_true, hc, map_some, Option.some.injEq, exists_eq_left', haddr', Ne.symm hf,
          false_and, iff_false]
        intro hsto
        exact hf (h.address_unique (mem_of_getElem? hsto) (hmvd hm))
      · simp only [hm, if_false]
        exact h f position j

end Placed

end Flowie
