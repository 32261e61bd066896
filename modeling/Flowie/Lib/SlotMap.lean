import Mathlib.Data.List.Nodup
import Mathlib.Logic.Function.Basic
import Flowie.Lib.AssocList

/-!
# Slots with a free list

Elements sit in numbered slots and keep their number while others come and go. An emptied slot
is used again before the vector grows, the one emptied last first. An index finds the slot of a
key. The structure carries the agreement of the slots, the free list and the index; every
operation is an update of `get`, the map from slots to elements.
-/

structure SlotMap {κ α : Type*} [BEq κ] (key : α → κ) where
  slots : List (Option α)
  free : List Nat
  index : List (κ × Nat)
  synced : ∀ k i, index.lookup k = some i ↔ ∃ a, slots[i]? = some (some a) ∧ key a = k
  freed : ∀ i, i ∈ free ↔ slots[i]? = some none
  distinct : free.Nodup

namespace SlotMap

open List Option

open Function (update update_apply)

variable {κ α : Type*} [BEq κ] {key : α → κ}

def empty : SlotMap key := ⟨[], [], [], by simp, by simp, nodup_nil⟩

variable (m : SlotMap key)

/-- The element in a slot. -/
def get (i : Nat) : Option α := m.slots[i]?.join

def nextSlot : Nat := m.free.getLast?.getD m.slots.length

/-- The slot and the element of a key; `value` is the element alone. -/
def find (k : κ) : Option (Nat × α) :=
  match m.index.lookup k with
  | none => none
  | some i => (m.get i).map (i, ·)

def value (k : κ) : Option α := (m.find k).map (·.2)

def elements : List α := m.slots.filterMap id

variable {m : SlotMap key} {i : Nat} {a : α}

theorem get_eq_some_iff : m.get i = some a ↔ m.slots[i]? = some (some a) := by
  rw [get, join_eq_some_iff]

variable {k : κ}

theorem lookup_eq_some_iff (m : SlotMap key) : m.index.lookup k = some i ↔ ∃ a, m.get i = some a ∧ key a = k := by
  simp only [m.synced, get_eq_some_iff]

theorem lt_of_get (h : m.get i = some a) : i < m.slots.length :=
  (List.getElem?_eq_some_iff.1 (get_eq_some_iff.1 h)).1

section
variable (m : SlotMap key)

theorem index_synced : AssocList.Synced key m.get m.index := fun _ _ => m.lookup_eq_some_iff

theorem find_eq_some_iff : m.find k = some (i, a) ↔ m.get i = some a ∧ key a = k := m.index_synced.found_iff

theorem lookup_of_find (h : m.find k = none) : m.index.lookup k = none := by
  rw [m.index_synced.lookup_eq_none_iff]
  intro i a ha hkey
  rw [m.find_eq_some_iff.2 ⟨ha, hkey⟩] at h
  cases h

theorem value_eq_some_iff : m.value k = some a ↔ ∃ i, m.get i = some a ∧ key a = k := by
  simp only [value, map_eq_some_iff, Prod.exists, m.find_eq_some_iff]
  constructor
  · rintro ⟨i, _, h, rfl⟩
    exact ⟨i, h⟩
  · rintro ⟨i, h⟩
    exact ⟨i, a, h, rfl⟩

theorem value_of_find (h : m.find k = some (i, a)) : m.value k = some a := by
  rw [value, h]
  rfl

end

variable {m' : SlotMap key}

theorem value_congr (h : m.get = m'.get) : m.value = m'.value := by
  funext k
  apply Option.ext
  intro a
  rw [value_eq_some_iff, value_eq_some_iff, h]

variable {j : Nat} {b : α}

theorem key_injective (m : SlotMap key) (ha : m.get i = some a) (hb : m.get j = some b) (h : key a = key b) : i = j :=
  m.index_synced.injective ha hb h

theorem mem_elements : a ∈ m.elements ↔ ∃ i, m.get i = some a := by
  rw [elements, mem_filterMap]
  simp only [id, exists_eq_right, mem_iff_getElem?, get_eq_some_iff]

theorem keys_nodup (m : SlotMap key) : (m.elements.map key).Nodup := by
  rw [elements, map_filterMap, List.Nodup, pairwise_filterMap, pairwise_iff_getElem]
  intro i j hi hj hlt k hk k' hk' heq
  obtain ⟨a, ha, rfl⟩ := Option.map_eq_some_iff.1 hk
  obtain ⟨b, hb, rfl⟩ := Option.map_eq_some_iff.1 hk'
  have hij := m.key_injective (get_eq_some_iff.2 (List.getElem?_eq_some_iff.2 ⟨hi, ha⟩))
    (get_eq_some_iff.2 (List.getElem?_eq_some_iff.2 ⟨hj, hb⟩)) heq
  exact Nat.ne_of_lt hlt hij

/-- The next slot is empty or behind the last one. -/
theorem slots_nextSlot (m : SlotMap key) :
    m.slots[m.nextSlot]? = some none ∧ m.nextSlot ∈ m.free ∨ m.free = [] ∧ m.nextSlot = m.slots.length := by
  rw [nextSlot]
  cases hlast : m.free.getLast? with
  | none =>
    right
    exact ⟨List.getLast?_eq_none_iff.1 hlast, rfl⟩
  | some i =>
    left
    have hi := mem_of_getLast? hlast
    exact ⟨(m.freed i).1 hi, hi⟩

theorem get_nextSlot (m : SlotMap key) : m.get m.nextSlot = none := by
  rw [get]
  rcases m.slots_nextSlot with ⟨h, -⟩ | ⟨-, h⟩
  · rw [h]
    rfl
  · rw [h, List.getElem?_eq_none (Nat.le_refl _)]
    rfl

/-- The slots with an element in the next one. -/
def placed (m : SlotMap key) (a : α) : List (Option α) :=
  if m.nextSlot < m.slots.length then m.slots.set m.nextSlot (some a) else m.slots ++ [some a]

theorem getElem?_placed : (m.placed a)[j]? = if j = m.nextSlot then some (some a) else m.slots[j]? := by
  rw [placed]
  split
  next hlt =>
    rw [List.getElem?_set]
    by_cases hj : j = m.nextSlot
    · simp [hj, hlt]
    · simp [hj, Ne.symm hj]
  next hge =>
    have hnext : m.nextSlot = m.slots.length := by
      rcases m.slots_nextSlot with ⟨h, -⟩ | ⟨-, h⟩
      · exact absurd (List.getElem?_eq_some_iff.1 h).1 hge
      · exact h
    rw [hnext]
    rcases Nat.lt_trichotomy j m.slots.length with hlt | heq | hgt
    · rw [List.getElem?_append_left hlt, if_neg (Nat.ne_of_lt hlt)]
    · simp [heq]
    · rw [if_neg (Nat.ne_of_gt hgt), List.getElem?_eq_none (by simp; omega), List.getElem?_eq_none (by omega)]

theorem mem_free_dropLast (m : SlotMap key) : i ∈ m.free.dropLast ↔ i ∈ m.free ∧ i ≠ m.nextSlot := by
  rw [nextSlot]
  cases hlast : m.free.getLast? with
  | none => simp [List.getLast?_eq_none_iff.1 hlast]
  | some n =>
    have hspl := dropLast_append_getLast? n hlast
    have hnd := m.distinct
    rw [← hspl, nodup_append] at hnd
    obtain ⟨-, -, hdisjoint⟩ := hnd
    rw [getD_some]
    constructor
    · intro hi
      exact ⟨dropLast_subset _ hi, hdisjoint i hi n (mem_singleton_self n)⟩
    intro ⟨hi, hne⟩
    rw [← hspl, mem_append, mem_singleton] at hi
    exact hi.resolve_right hne

variable [LawfulBEq κ]

/-- Put an element with a new key in the next slot. -/
def insert (m : SlotMap key) (a : α) (hnew : m.index.lookup (key a) = none) : SlotMap key where
  slots := m.placed a
  free := m.free.dropLast
  index := AssocList.put (key a) m.nextSlot m.index
  synced := by
    simp only [← join_eq_some_iff]
    refine m.index_synced.put (by simp [getElem?_placed]) (by simp [m.get_nextSlot]) fun i hi b => ?_
    rw [getElem?_placed, if_neg hi]
    exact (and_iff_left_of_imp (m.index_synced.lookup_eq_none_iff.1 hnew i b)).symm
  freed := by
    intro i
    rw [m.mem_free_dropLast, m.freed, getElem?_placed]
    by_cases hi : i = m.nextSlot
    · simp [hi]
    · simp [hi]
  distinct := m.distinct.sublist (dropLast_sublist _)

/-- Change the element in a slot without changing its key. -/
def modifyAt (m : SlotMap key) (i : Nat) (f : α → α) (hf : ∀ a, key (f a) = key a) : SlotMap key where
  slots := m.slots.modify i (Option.map f)
  free := m.free
  index := m.index
  synced := by
    simp only [← join_eq_some_iff]
    refine m.index_synced.congr fun j => ?_
    rw [List.getElem?_modify, get]
    by_cases hij : i = j
    · rcases m.slots[j]? with - | - | a <;> simp [hij, hf]
    · simp [hij]
  freed := by
    intro j
    rw [m.freed, List.getElem?_modify]
    by_cases hij : i = j
    · rcases m.slots[j]? with - | - | a
      · simp
      · simp
      · simp [hij]
    · simp [hij]
  distinct := m.distinct

def removeAt (m : SlotMap key) (i : Nat) (a : α) (ha : m.get i = some a) : SlotMap key where
  slots := m.slots.set i none
  free := m.free ++ [i]
  index := AssocList.remove (key a) m.index
  synced := by
    have hlt := lt_of_get ha
    simp only [← join_eq_some_iff]
    refine m.index_synced.remove fun j b => ?_
    by_cases hij : i = j
    · subst hij
      rw [List.getElem?_set_self hlt, ha]
      exact iff_of_false (fun h => nomatch h) fun ⟨hb, hne⟩ => hne (congrArg key (Option.some.inj hb).symm)
    · rw [List.getElem?_set_ne hij]
      exact (and_iff_left_of_imp fun hb hkey => hij (m.key_injective ha hb hkey.symm)).symm
  freed := by
    have hlt := lt_of_get ha
    intro j
    rw [mem_append, mem_singleton, m.freed, List.getElem?_set]
    by_cases hij : i = j
    · simp [← hij, hlt]
    · simp [hij, Ne.symm hij]
  distinct := by
    rw [nodup_append]
    refine ⟨m.distinct, nodup_singleton i, ?_⟩
    intro j hj b hb hjb
    rw [mem_singleton] at hb
    rw [hjb, hb, m.freed, get_eq_some_iff.1 ha] at hj
    cases hj

@[simp] theorem get_insert (m : SlotMap key) (hnew : m.index.lookup (key a) = none) :
    (m.insert a hnew).get = update m.get m.nextSlot (some a) := by
  funext j
  rw [update_apply]
  show (m.placed a)[j]?.join = _
  rw [getElem?_placed]
  split <;> rfl

variable {f : α → α}

omit [LawfulBEq κ] in
@[simp] theorem get_modifyAt (m : SlotMap key) (hf : ∀ a, key (f a) = key a) :
    (m.modifyAt i f hf).get = update m.get i ((m.get i).map f) := by
  funext j
  rw [update_apply]
  show (m.slots.modify i (Option.map f))[j]?.join = _
  rw [List.getElem?_modify]
  by_cases hij : i = j
  · subst hij
    simp only [if_true, get]
    rcases m.slots[i]? with - | - | a <;> rfl
  · simp only [if_neg hij, if_neg (Ne.symm hij), get]
    cases m.slots[j]? <;> rfl

@[simp] theorem get_removeAt (m : SlotMap key) (ha : m.get i = some a) : (m.removeAt i a ha).get = update m.get i none := by
  have hlt := lt_of_get ha
  funext j
  rw [update_apply]
  show (m.slots.set i none)[j]?.join = _
  rw [List.getElem?_set]
  by_cases hij : i = j
  · simp [hij, hij ▸ hlt]
  · rw [if_neg hij, if_neg (Ne.symm hij), get]

theorem get_insert_eq_some (hnew : m.index.lookup (key a) = none) (h : (m.insert a hnew).get j = some b) :
    j = m.nextSlot ∧ b = a ∨ m.get j = some b := by
  rw [get_insert, update_apply] at h
  split at h
  · rename_i hj
    exact .inl ⟨hj, (Option.some.inj h).symm⟩
  · exact .inr h

omit [LawfulBEq κ] in
theorem get_modifyAt_eq_some (hf : ∀ a, key (f a) = key a) (ha : m.get i = some a)
    (h : (m.modifyAt i f hf).get j = some b) : j = i ∧ b = f a ∨ j ≠ i ∧ m.get j = some b := by
  rw [get_modifyAt, ha, Function.update_apply] at h
  split at h
  · rename_i hj
    exact .inl ⟨hj, (Option.some.inj h).symm⟩
  · rename_i hj
    exact .inr ⟨hj, h⟩

section Value

variable [DecidableEq κ]

omit [LawfulBEq κ] in
/-- A change of one slot whose elements have the key is an update of the values at the key. -/
theorem value_eq_update {new : Option α} (hget : m'.get = Function.update m.get i new)
    (hnew : ∀ b, new = some b → key b = k) (hold : ∀ b, m.get i = some b → key b = k)
    (hrest : ∀ j b, m.get j = some b → key b = k → j = i) : m'.value = Function.update m.value k new := by
  funext other
  apply Option.ext
  intro b
  rw [value_eq_some_iff, hget, Function.update_apply]
  split
  · rename_i hoth
    constructor
    · rintro ⟨j, hj, hkey⟩
      rw [Function.update_apply] at hj
      split at hj
      · exact hj
      · exact absurd (hrest j b hj (hkey.trans hoth)) ‹_›
    · intro hb
      exact ⟨i, by rw [Function.update_self, hb], (hnew b hb).trans hoth.symm⟩
  · rename_i hoth
    rw [value_eq_some_iff]
    refine exists_congr fun j => and_congr_left fun hkey => ?_
    rw [Function.update_apply]
    split
    · rename_i hj
      rw [hj]
      exact iff_of_false (fun h => hoth (hkey.symm.trans (hnew b h))) fun h => hoth (hkey.symm.trans (hold b h))
    · rfl

@[simp] theorem value_insert (hnew : m.index.lookup (key a) = none) :
    (m.insert a hnew).value = update m.value (key a) (some a) := by
  refine value_eq_update (m.get_insert hnew) (by simp) (by simp [m.get_nextSlot]) fun j b hb hkey => ?_
  exact absurd hkey (m.index_synced.lookup_eq_none_iff.1 hnew j b hb)

omit [LawfulBEq κ] in
theorem value_modifyAt (ha : m.get i = some a)
    (hf : ∀ a, key (f a) = key a) : (m.modifyAt i f hf).value = update m.value (key a) (some (f a)) := by
  refine value_eq_update (ha ▸ m.get_modifyAt hf) (by simp [hf]) (by simp [ha]) fun j b hb hkey => ?_
  exact m.key_injective hb ha hkey

@[simp] theorem value_removeAt (ha : m.get i = some a) : (m.removeAt i a ha).value = update m.value (key a) none := by
  refine value_eq_update (m.get_removeAt ha) (by simp) (by simp [ha]) fun j b hb hkey => ?_
  exact m.key_injective hb ha hkey

end Value

end SlotMap
