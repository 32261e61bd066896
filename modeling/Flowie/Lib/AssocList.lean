import Mathlib.Data.List.Basic

/-!
# Association lists as finite maps

A hash map is used through get, put, remove and emptiness; an association list read with
`List.lookup` answers them the same way. A map from the keys of elements to their places is kept in
step with the elements by `Synced.put` and `Synced.remove`.
-/

namespace AssocList

open List

variable {κ ν : Type*} [BEq κ] [LawfulBEq κ]

/-- Store `v` under `k`, replacing what was there. -/
def put (k : κ) (v : ν) : List (κ × ν) → List (κ × ν)
  | [] => [(k, v)]
  | (k', v') :: rest => if k == k' then (k', v) :: rest else (k', v') :: put k v rest

/-- Drop every pair stored under `k`. -/
def remove (k : κ) (m : List (κ × ν)) : List (κ × ν) := m.filter fun p => !(k == p.1)

theorem lookup_cons_ne {k k' : κ} (h : k' ≠ k) (v : ν) (m : List (κ × ν)) : List.lookup k' ((k, v) :: m) = m.lookup k' := by
  have hb : (k' == k) = false := by simpa using h
  simp [lookup_cons, hb]

@[simp] theorem lookup_put_self (k : κ) (v : ν) (m : List (κ × ν)) : (put k v m).lookup k = some v := by
  induction m with
  | nil => exact lookup_cons_self
  | cons p m ih =>
    rw [put]
    split
    next h => rw [← eq_of_beq h, lookup_cons_self]
    next h => rw [lookup_cons_ne (by simpa using h), ih]

theorem lookup_put_ne {k k' : κ} (h : k' ≠ k) (v : ν) (m : List (κ × ν)) : (put k v m).lookup k' = m.lookup k' := by
  induction m with
  | nil => exact lookup_cons_ne h v []
  | cons p m ih =>
    obtain ⟨a, b⟩ := p
    rw [put]
    split
    next hk =>
      rw [← eq_of_beq hk, lookup_cons_ne h, lookup_cons_ne h]
    next hk => rw [lookup_cons, lookup_cons, ih]

@[simp] theorem lookup_remove_self (k : κ) (m : List (κ × ν)) : (remove k m).lookup k = none := by
  induction m with
  | nil => rfl
  | cons p m ih =>
    rw [remove, filter_cons]
    split
    next h =>
      rw [lookup_cons_ne (by simpa using h)]
      exact ih
    next h => exact ih

theorem lookup_remove_ne {k k' : κ} (h : k' ≠ k) (m : List (κ × ν)) : (remove k m).lookup k' = m.lookup k' := by
  induction m with
  | nil => rfl
  | cons p m ih =>
    obtain ⟨a, b⟩ := p
    rw [remove, filter_cons]
    split
    next hk =>
      rw [lookup_cons, lookup_cons]
      rw [remove] at ih
      rw [ih]
    next hk =>
      have hp : k = a := by simpa using hk
      rw [lookup_cons_ne (hp ▸ h)]
      exact ih

/-! ## An index of places -/

/-- The index finds the place of every key. -/
def Synced {α : Type*} (key : α → κ) (get : Nat → Option α) (index : List (κ × Nat)) : Prop :=
  ∀ k i, index.lookup k = some i ↔ ∃ a, get i = some a ∧ key a = k

namespace Synced

variable {α : Type*} {key : α → κ} {get get' : Nat → Option α} {index : List (κ × Nat)} {k : κ} {i j : Nat} {a b : α}

omit [LawfulBEq κ]

section
variable (h : Synced key get index)
include h

theorem injective (ha : get i = some a) (hb : get j = some b) (hkey : key a = key b) : i = j := by
  have hi := (h (key b) i).2 ⟨a, ha, hkey⟩
  have hj := (h (key b) j).2 ⟨b, hb, rfl⟩
  exact Option.mem_unique hi hj

theorem lookup_eq_none_iff : index.lookup k = none ↔ ∀ i a, get i = some a → key a ≠ k := by
  rw [Option.eq_none_iff_forall_ne_some]
  constructor
  · intro hnone i a ha hkey
    exact hnone i ((h k i).2 ⟨a, ha, hkey⟩)
  · intro hnone i hi
    obtain ⟨a, ha, hkey⟩ := (h k i).1 hi
    exact hnone i a ha hkey

/-- What a lookup through the index finds. -/
theorem found_iff :
    (match index.lookup k with | none => none | some i => (get i).map fun a => (i, a)) = some (i, a) ↔
      get i = some a ∧ key a = k := by
  cases hk : index.lookup k with
  | none => exact iff_of_false (fun hsome => nomatch hsome) fun ⟨ha, hkey⟩ => h.lookup_eq_none_iff.1 hk i a ha hkey
  | some j =>
    obtain ⟨b, hb, hkey⟩ := (h k j).1 hk
    simp only [hb, Option.map_some, Option.some.injEq, Prod.mk.injEq]
    constructor
    · rintro ⟨rfl, rfl⟩
      exact ⟨hb, hkey⟩
    · intro ⟨ha, hkey'⟩
      obtain rfl := h.injective hb ha (hkey.trans hkey'.symm)
      exact ⟨rfl, Option.mem_unique hb ha⟩

/-- Elements may change under their keys. -/
theorem congr (hkeys : ∀ i, (get' i).map key = (get i).map key) : Synced key get' index := by
  intro k i
  have hiff : ∀ found : Option α, (∃ a, found = some a ∧ key a = k) ↔ found.map key = some k := by simp
  rw [h, hiff, hiff, hkeys]

end

variable [LawfulBEq κ]

/-- The element is the only one with its key from now on. -/
theorem put (h : Synced key get index) (hat : get' j = some a) (hfree : ∀ b, get j = some b → key b = key a)
    (hrest : ∀ i ≠ j, ∀ b, get' i = some b ↔ get i = some b ∧ key b ≠ key a) : Synced key get' (put (key a) j index) := by
  intro k i
  by_cases hk : k = key a
  · subst hk
    rw [lookup_put_self, Option.some.injEq]
    constructor
    · rintro rfl
      exact ⟨a, hat, rfl⟩
    · rintro ⟨b, hb, hkey⟩
      by_contra hne
      exact ((hrest i (Ne.symm hne) b).1 hb).2 hkey
  · rw [lookup_put_ne hk, h]
    refine exists_congr fun b => and_congr_left fun hkey => ?_
    subst hkey
    by_cases hi : i = j
    · subst hi
      refine iff_of_false (fun hb => hk (hfree b hb)) fun hb => hk ?_
      rw [Option.mem_unique hat hb]
    · rw [hrest i hi, and_iff_left hk]

/-- No element with the key is left. -/
theorem remove (h : Synced key get index) (hrest : ∀ i b, get' i = some b ↔ get i = some b ∧ key b ≠ k) :
    Synced key get' (remove k index) := by
  intro other i
  simp only [hrest]
  by_cases hk : other = k
  · subst hk
    rw [lookup_remove_self]
    exact iff_of_false (fun hnone => nomatch hnone) fun ⟨b, hb, hkey⟩ => hb.2 hkey
  · rw [lookup_remove_ne hk, h]
    refine exists_congr fun b => and_congr_left fun hkey => ?_
    rw [and_iff_left (hkey ▸ hk)]

end Synced

end AssocList
