import Flowie.Lib.AssocList
import Flowie.Lib.SwapRemove

/-!
# Vectors with a key index

A vector whose elements have distinct keys, and a map from each key to the place of its element.
The structure carries the agreement of the two, so a lookup through the index always finds the
element it names (`find_eq_some_iff`), and removal by swapping has to move the index entry of
the element it moves.
-/

/-- A vector of elements with distinct keys and the place of every key. -/
structure IndexedVec {κ α : Type*} [BEq κ] [LawfulBEq κ] (key : α → κ) where
  entries : List α
  index : List (κ × Nat)
  synced : ∀ k i, index.lookup k = some i ↔ ∃ a, entries[i]? = some a ∧ key a = k

namespace IndexedVec

open List AssocList

variable {κ α : Type*} [BEq κ] [LawfulBEq κ] {key : α → κ}

/-- The vector without elements. -/
def empty : IndexedVec key := ⟨[], [], by simp⟩

instance : Inhabited (IndexedVec key) := ⟨empty⟩

/-- The place and the element of a key. -/
def find (v : IndexedVec key) (k : κ) : Option (Nat × α) :=
  match v.index.lookup k with
  | none => none
  | some i => v.entries[i]?.map fun a => (i, a)

theorem index_synced (v : IndexedVec key) : Synced key (v.entries[·]?) v.index := v.synced

variable {k : κ} {i : Nat} {a : α} (v : IndexedVec key)

theorem find_eq_some_iff : v.find k = some (i, a) ↔ v.entries[i]? = some a ∧ key a = k := v.index_synced.found_iff

theorem lookup_eq_none_iff : v.index.lookup k = none ↔ ∀ a ∈ v.entries, key a ≠ k := by
  rw [v.index_synced.lookup_eq_none_iff]
  simp only [mem_iff_getElem?, forall_exists_index]
  exact forall_comm

theorem key_injective {j : Nat} {b : α} (ha : v.entries[i]? = some a)
    (hb : v.entries[j]? = some b) (h : key a = key b) : i = j := v.index_synced.injective ha hb h

theorem keys_nodup : (v.entries.map key).Nodup := by
  apply List.pairwise_iff_getElem.2
  intro i j hi hj hlt h
  rw [length_map] at hi hj
  rw [getElem_map, getElem_map] at h
  have := v.key_injective (List.getElem?_eq_getElem hi) (List.getElem?_eq_getElem hj) h
  omega

theorem synced_append (hnew : v.index.lookup (key a) = none) :
    Synced key ((v.entries ++ [a])[·]?) (put (key a) v.entries.length v.index) := by
  refine v.index_synced.put (by simp) (by simp) fun i hi b => ?_
  rcases Nat.lt_or_gt_of_ne hi with hlt | hgt
  · rw [List.getElem?_append_left hlt]
    refine (and_iff_left_of_imp fun hb => ?_).symm
    exact v.lookup_eq_none_iff.1 hnew b (mem_of_getElem? hb)
  · rw [List.getElem?_eq_none (by simp; omega), List.getElem?_eq_none (by omega)]
    simp

/-- Add an element with a new key at the end. -/
def append (v : IndexedVec key) (a : α) (hnew : v.index.lookup (key a) = none) : IndexedVec key where
  entries := v.entries ++ [a]
  index := put (key a) v.entries.length v.index
  synced := v.synced_append hnew

theorem find_append_self (hnew : v.index.lookup (key a) = none) :
    (v.append a hnew).find (key a) = some (v.entries.length, a) :=
  (v.append a hnew).find_eq_some_iff.2 ⟨getElem?_concat_length .., rfl⟩

theorem find_append_ne (hnew : v.index.lookup (key a) = none) (hne : k ≠ key a) : (v.append a hnew).find k = v.find k := by
  unfold find append
  rw [lookup_put_ne hne]
  cases hk : v.index.lookup k with
  | none => rfl
  | some i =>
    obtain ⟨b, hb, -⟩ := (v.synced k i).1 hk
    dsimp only
    rw [getElem?_append_left (List.getElem?_eq_some_iff.1 hb).1]

/-- Change the element at a place without changing its key. -/
def modifyAt (v : IndexedVec key) (i : Nat) (f : α → α) (hf : ∀ a, key (f a) = key a) : IndexedVec key where
  entries := v.entries.modify i f
  index := v.index
  synced := by
    refine v.index_synced.congr fun j => ?_
    rw [List.getElem?_modify]
    by_cases hij : i = j
    · cases v.entries[j]? <;> simp [hij, hf]
    · simp [hij]

variable {v : IndexedVec key} {f : α → α}

theorem find_modifyAt {hf : ∀ a, key (f a) = key a} :
    (v.modifyAt i f hf).find k = (v.find k).map fun (j, a) => (j, if i = j then f a else a) := by
  unfold find modifyAt
  cases v.index.lookup k with
  | none => rfl
  | some j =>
    dsimp only
    rw [List.getElem?_modify]
    cases v.entries[j]? <;> rfl

theorem mem_modifyAt {hf : ∀ a, key (f a) = key a}
    (h : a ∈ (v.modifyAt i f hf).entries) : a ∈ v.entries ∨ ∃ b, v.entries[i]? = some b ∧ f b = a := by
  obtain ⟨j, hj⟩ := mem_iff_getElem?.1 h
  have hj : (v.entries.modify i f)[j]? = some a := hj
  rw [List.getElem?_modify] at hj
  by_cases hij : i = j
  · rw [← hij] at hj
    right
    simpa using hj
  · left
    exact mem_of_getElem? (by simpa [hij] using hj)

theorem modifyAt_self (hf : ∀ a, key (f a) = key a)
    (ha : v.entries[i]? = some a) (hsame : f a = a) : v.modifyAt i f hf = v := by
  have hents : v.entries.modify i f = v.entries := by
    apply ext_getElem?
    intro j
    rw [List.getElem?_modify]
    by_cases hij : i = j
    · subst hij
      simp [ha, hsame]
    · simp [hij]
  unfold modifyAt
  cases v
  congr

theorem modifyAt_modifyAt (v : IndexedVec key) {g : α → α} (hf : ∀ a, key (f a) = key a)
    (hg : ∀ a, key (g a) = key a) : (v.modifyAt i f hf).modifyAt i g hg =
      v.modifyAt i (g ∘ f) fun a => (hg (f a)).trans (hf a) := by
  unfold modifyAt
  congr 1
  exact modify_modify_eq ..

/-- Take out the element at a place; the last one moves there, and so does its index entry. -/
def removeAt (v : IndexedVec key) (i : Nat) (removed last : α) (hrm : v.entries[i]? = some removed)
    (hlast : v.entries.getLast? = some last) : IndexedVec key where
  entries := v.entries.swapRemove i
  index :=
    if i + 1 < v.entries.length then put (key last) i (remove (key removed) v.index)
    else remove (key removed) v.index
  synced := by
    have hlt := (List.getElem?_eq_some_iff.1 hrm).1
    have hend : v.entries[v.entries.length - 1]? = some last := by rw [← List.getLast?_eq_getElem?, hlast]
    -- a place whose key is another's is another place
    have hoth : ∀ {j place : Nat} {a b : α}, v.entries[place]? = some a → v.entries[j]? = some b →
        (key b ≠ key a ↔ j ≠ place) := by
      intro j place a b ha hb
      refine not_congr ⟨v.key_injective hb ha, ?_⟩
      rintro rfl
      rw [Option.mem_unique ha hb]
    have hrest : ∀ j ≠ i, ∀ b, (v.entries.swapRemove i)[j]? = some b ↔ v.entries[j]? = some b ∧ j + 1 ≠ v.entries.length := by
      intro j hj b
      rw [List.getElem?_swapRemove hlt, if_neg hj]
      split
      · rw [and_iff_left (by omega)]
      · refine iff_of_false (fun h => nomatch h) fun ⟨hb, hne⟩ => ?_
        have := (List.getElem?_eq_some_iff.1 hb).1
        omega
    split
    · rename_i hmoves
      have hgap : Synced key (fun j => if j = i then none else v.entries[j]?)
          (remove (key removed) v.index) := by
        refine v.index_synced.remove fun j b => ?_
        split
        · rename_i hj
          subst hj
          exact iff_of_false (fun h => nomatch h) fun ⟨hb, hne⟩ => (hoth hrm hb).1 hne rfl
        · rename_i hj
          exact (and_iff_left_of_imp fun hb => (hoth hrm hb).2 hj).symm
      refine hgap.put (by simp [List.getElem?_swapRemove hlt, hmoves, hlast]) (by simp) fun j hj b => ?_
      rw [hrest j hj, if_neg hj]
      refine and_congr_right fun hb => ?_
      rw [hoth hend hb]
      omega
    · rename_i hstays
      refine v.index_synced.remove fun j b => ?_
      by_cases hj : j = i
      · subst hj
        rw [List.getElem?_eq_none (by have := length_swapRemove hlt; omega)]
        exact iff_of_false (fun h => nomatch h) fun ⟨hb, hne⟩ => (hoth hrm hb).1 hne rfl
      · rw [hrest j hj]
        refine and_congr_right fun hb => ?_
        rw [hoth hrm hb]
        omega

end IndexedVec
