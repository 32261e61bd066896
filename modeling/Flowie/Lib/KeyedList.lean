import Mathlib.Data.List.Nodup

/-!
# Lists of elements with distinct keys

Elements are told apart by a key. Replacing an element by one of the same key and appending one of a
new key keep the keys distinct.
-/

namespace KeyedList

open List

variable {α κ : Type*} {key : α → κ}

/-- Of a list without repetitions, the elements of a sublist are that sublist. -/
theorem filter_mem_of_sublist [DecidableEq κ] {l' l : List κ} (hsub : l'.Sublist l) (hnd : l.Nodup) :
    l.filter (fun a => l'.contains a) = l' := by
  induction hsub with
  | slnil => rfl
  | @cons l' l a hsub ih =>
    obtain ⟨ha, hl⟩ := List.nodup_cons.1 hnd
    have hnot : ¬l'.contains a = true := fun h => ha (hsub.subset (by simpa using h))
    rw [filter_cons_of_neg hnot]
    exact ih hl
  | @cons_cons l' l a hsub ih =>
    obtain ⟨ha, hl⟩ := List.nodup_cons.1 hnd
    rw [filter_cons_of_pos (by simp)]
    congr 1
    rw [← ih hl]
    apply filter_congr
    intro b hb
    have hne : b ≠ a := fun h => ha (h ▸ hb)
    rw [ih hl]
    simp [hne]

variable {l : List α} {a : α} {i : Nat} {b : α}

theorem map_set_of_key (h : l[i]? = some a) (hkey : key b = key a) : (l.set i b).map key = l.map key := by
  obtain ⟨hlt, rfl⟩ := List.getElem?_eq_some_iff.1 h
  rw [map_set, hkey, ← map_set, set_getElem_self]

variable {p : α → Bool} {β : Type*}

/-- Changing an element changes nothing of what is read of the elements a predicate holds of, when it holds of the
    new one exactly as of the old one and reads the same. -/
theorem map_filter_modify {f : α → α} {g : α → β} (h : l[i]? = some a) (hp : p (f a) = p a)
    (hg : p a = true → g (f a) = g a) : ((l.modify i f).filter p).map g = (l.filter p).map g := by
  induction l generalizing i with
  | nil => cases h
  | cons b l ih =>
    cases i with
    | zero =>
      obtain rfl : b = a := Option.some.inj h
      rw [modify_zero_cons, filter_cons, filter_cons, hp]
      split
      · rename_i hkept
        rw [map_cons, map_cons, hg hkept]
      · rfl
    | succ i =>
      rw [modify_succ_cons, filter_cons, filter_cons]
      split
      · rw [map_cons, map_cons, ih h]
      · exact ih h

theorem nodup_append (h : (l.map key).Nodup) (hfr : ∀ b ∈ l, key b ≠ key a) : ((l ++ [a]).map key).Nodup := by
  rw [map_append, map_singleton]
  refine List.Nodup.append h (nodup_singleton _) ?_
  intro k hmem hsgl
  obtain ⟨b, hb, rfl⟩ := List.mem_map.1 hmem
  exact hfr b hb (List.mem_singleton.1 hsgl)

variable {l' : List α}

theorem key_ne_of_nodup (h : ((l ++ l').map key).Nodup) (ha : a ∈ l) (hb : b ∈ l') : key a ≠ key b := by
  rw [map_append] at h
  exact (List.nodup_append.1 h).2.2 _ (mem_map_of_mem ha) _ (mem_map_of_mem hb)

section
variable (h : (l.map key).Nodup)
include h

/-- Keeping a part of the elements, in any order. -/
theorem nodup_of_subperm (hsub : l'.Subperm l) : (l'.map key).Nodup := by
  obtain ⟨kept, hperm, hkept⟩ := hsub
  exact (hperm.map _).nodup_iff.1 ((hkept.map _).nodup h)

/-- With distinct keys there is only one element to find. -/
theorem find?_eq_some_iff [BEq κ] [LawfulBEq κ] {k : κ} : l.find? (key · == k) = some a ↔ a ∈ l ∧ key a = k := by
  constructor
  · intro hfind
    exact ⟨mem_of_find?_eq_some hfind, by simpa using List.find?_some hfind⟩
  rintro ⟨hmem, rfl⟩
  obtain ⟨before, after, rfl⟩ := append_of_mem hmem
  rw [List.find?_append, List.find?_eq_none.2, Option.none_or, List.find?_cons_of_pos (by simp)]
  intro b hb heq
  exact key_ne_of_nodup h hb mem_cons_self (by simpa using heq)

/-- Each element of a list with distinct keys lists elements of its own, under its key. -/
theorem nodup_flatMap {f : α → List β} (hf : ∀ a ∈ l, (f a).Nodup) :
    (l.flatMap fun a => (f a).map fun b => (key a, b)).Nodup := by
  rw [List.nodup_flatMap]
  constructor
  · intro a ha
    exact (hf a ha).map fun b b' heq => (Prod.mk.inj heq).2
  refine (List.pairwise_map.1 h).imp fun {a b} hne => ?_
  intro p hp hp'
  obtain ⟨x, -, rfl⟩ := List.mem_map.1 hp
  obtain ⟨y, -, heq⟩ := List.mem_map.1 hp'
  exact hne (Prod.mk.inj heq).1.symm

end

/-! ## The first of its kind -/

/-- Erasing the first element of one kind keeps those of another. -/
theorem filter_eraseP_of_disjoint {q : α → Bool} (h : ∀ a, p a = true → q a = false) :
    (l.eraseP p).filter q = l.filter q := by
  induction l with
  | nil => rfl
  | cons a l ih =>
    rw [eraseP_cons]
    cases hp : p a with
    | true => simp [h a hp]
    | false => simp [filter_cons, ih]

theorem filter_eraseP_self : (l.eraseP p).filter p = (l.filter p).tail := by
  induction l with
  | nil => rfl
  | cons a l ih =>
    rw [eraseP_cons]
    cases hp : p a with
    | true => simp [hp]
    | false => simp [ih, hp]

/-! ## Search -/

/-- The first element of the key and its place. -/
def lookupIdx [DecidableEq κ] (key : α → κ) (k : κ) : List α → Option (Nat × α)
  | [] => none
  | a :: l => if key a = k then some (0, a) else (lookupIdx key k l).map fun (i, b) => (i + 1, b)

section
variable [DecidableEq κ] {k : κ} {l : List α}

theorem lookupIdx_eq_none : lookupIdx key k l = none ↔ ∀ a ∈ l, key a ≠ k := by
  induction l with
  | nil => simp [lookupIdx]
  | cons a l ih =>
    rw [lookupIdx, forall_mem_cons]
    split
    · simp_all
    · rw [Option.map_eq_none_iff, ih]
      exact ⟨fun h => ⟨‹_›, h⟩, fun h => h.2⟩

variable {i : Nat} {a : α}

theorem getElem?_of_lookupIdx (h : lookupIdx key k l = some (i, a)) : l[i]? = some a ∧ key a = k := by
  induction l generalizing i with
  | nil => cases h
  | cons b l ih =>
    rw [lookupIdx] at h
    split at h
    · cases h
      exact ⟨rfl, ‹_›⟩
    obtain ⟨⟨j, c⟩, hrest, heq⟩ := Option.map_eq_some_iff.1 h
    cases heq
    exact ih hrest

/-- An element with a key of its own is the one that is found. -/
theorem lookupIdx_of_getElem? (hnd : (l.map key).Nodup) (h : l[i]? = some a) : lookupIdx key (key a) l = some (i, a) := by
  induction l generalizing i with
  | nil => cases h
  | cons b l ih =>
    rw [map_cons, nodup_cons] at hnd
    rw [lookupIdx]
    cases i with
    | zero =>
      cases h
      rw [if_pos rfl]
    | succ i =>
      have hmem : a ∈ l := mem_of_getElem? h
      rw [if_neg (fun heq : key b = key a => hnd.1 (heq ▸ mem_map_of_mem hmem)), ih hnd.2 h]
      rfl

omit [DecidableEq κ] in
/-- Replacing an element leaves the elements of other keys. -/
theorem mem_set_cases (hnd : (l.map key).Nodup) {c : α} (hget : l[i]? = some a) (hmem : c ∈ l.set i b) :
    c = b ∨ c ∈ l ∧ key c ≠ key a := by
  classical
  obtain ⟨j, hj⟩ := List.getElem?_of_mem hmem
  by_cases hij : i = j
  · subst hij
    rw [List.getElem?_set_self (List.getElem?_eq_some_iff.1 hget).1] at hj
    exact .inl (Option.some.inj hj).symm
  · rw [List.getElem?_set_ne hij] at hj
    refine .inr ⟨List.mem_of_getElem? hj, fun heq => hij ?_⟩
    have hfnd := lookupIdx_of_getElem? hnd hj
    rw [heq, lookupIdx_of_getElem? hnd hget] at hfnd
    exact (Prod.mk.inj (Option.some.inj hfnd)).1

end

end KeyedList
