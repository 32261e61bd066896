import Mathlib.Data.List.Basic
import Mathlib.Data.List.Perm.Basic
import Mathlib.Data.List.Perm.Subperm

/-!
# Removal by swapping with the last element

`swapRemove` takes one element out of a vector in constant time: the last element moves into the
gap. The rest keeps its order only if the gap is at one of the last two places
(`swapRemove_middle`, `swapRemove_last`). `retainSwap` is the loop that removes this way every
element a predicate does not keep.
-/

namespace List

open List

variable {α : Type*}

/-- The last element moves into place `i`. -/
def swapRemove (l : List α) (i : Nat) : List α :=
  match l.getLast? with
  | none => []
  | some last => (l.set i last).dropLast

/-- The loop `while i < size: if keep then i := i + 1 else swapRemove i`, with the number of
    elements left as fuel. -/
def retainSwap (keep : α → Bool) : Nat → Nat → List α → List α
  | 0, _, l => l
  | fuel + 1, i, l =>
    match l[i]? with
    | none => l
    | some a => if keep a then retainSwap keep fuel (i + 1) l else retainSwap keep fuel i (l.swapRemove i)

variable {β : Type*}

theorem map_swapRemove (f : α → β) (l : List α) (i : Nat) : (l.swapRemove i).map f = (l.map f).swapRemove i := by
  rw [swapRemove, swapRemove, List.getLast?_map]
  cases l.getLast? with
  | none => rfl
  | some last =>
    dsimp only [Option.map_some]
    rw [map_dropLast, map_set]

theorem swapRemove_middle (a b : List α) (x y : α) : (a ++ x :: (b ++ [y])).swapRemove a.length = a ++ y :: b := by
  have hlast : (a ++ x :: (b ++ [y])).getLast? = some y := by
    rw [show a ++ x :: (b ++ [y]) = (a ++ x :: b) ++ [y] by simp, List.getLast?_concat]
  rw [swapRemove, hlast]
  dsimp only
  rw [set_append_right _ _ (Nat.le_refl _), Nat.sub_self, set_cons_zero,
    show a ++ y :: (b ++ [y]) = (a ++ y :: b) ++ [y] by simp, dropLast_concat]

theorem swapRemove_last (a : List α) (x : α) : (a ++ [x]).swapRemove a.length = a := by
  rw [swapRemove, List.getLast?_concat]
  dsimp only
  rw [set_append_right _ _ (Nat.le_refl _), Nat.sub_self, set_cons_zero, dropLast_concat]

variable {l : List α} {i : Nat}

/-- Around a place of the list: nothing follows it, or something does. -/
theorem exists_swapRemove (h : i < l.length) :
    ∃ a x, a.length = i ∧ l[i]? = some x ∧
      ((l = a ++ [x] ∧ l.swapRemove i = a) ∨
        ∃ b y, l = a ++ x :: (b ++ [y]) ∧ l.swapRemove i = a ++ y :: b) := by
  have hi : (l.take i).length = i := by simp [Nat.le_of_lt h]
  have hspl : l = l.take i ++ l[i] :: l.drop (i + 1) := by simp
  refine ⟨l.take i, l[i], hi, List.getElem?_eq_getElem h, ?_⟩
  cases eq_nil_or_concat (l.drop (i + 1)) with
  | inl hd =>
    left
    rw [hd] at hspl
    refine ⟨hspl, ?_⟩
    have hrem := swapRemove_last (l.take i) l[i]
    rw [← hspl, hi] at hrem
    exact hrem
  | inr hd =>
    obtain ⟨b, y, hd⟩ := hd
    right
    rw [hd, concat_eq_append] at hspl
    refine ⟨b, y, hspl, ?_⟩
    have hrem := swapRemove_middle (l.take i) b l[i] y
    rw [← hspl, hi] at hrem
    exact hrem

/-- What stands before the gap stays, what follows it is permuted. -/
theorem swapRemove_eq_append (h : i < l.length) : ∃ rest, l.swapRemove i = l.take i ++ rest ∧ rest.Perm (l.drop (i + 1)) := by
  obtain ⟨a, x, ha, -, hcase⟩ := exists_swapRemove h
  cases hcase with
  | inl hlast =>
    obtain ⟨hl, hrem⟩ := hlast
    refine ⟨[], ?_, ?_⟩
    · rw [hrem, hl, ← ha, take_left, append_nil]
    · rw [hl, drop_of_length_le (by simp [ha])]
  | inr hmid =>
    obtain ⟨b, y, hl, hrem⟩ := hmid
    refine ⟨y :: b, ?_, ?_⟩
    · rw [hrem, hl, ← ha, take_left]
    rw [hl, ← ha, show a ++ x :: (b ++ [y]) = (a ++ [x]) ++ (b ++ [y]) by simp,
      show a.length + 1 = (a ++ [x]).length by simp, drop_left]
    exact (perm_append_singleton y b).symm

theorem take_drop_swapRemove (h : i < l.length) :
    (l.swapRemove i).take i = l.take i ∧ ((l.swapRemove i).drop i).Perm (l.drop (i + 1)) := by
  obtain ⟨rest, hrem, hperm⟩ := swapRemove_eq_append h
  have hi : (l.take i).length = i := by simp [Nat.le_of_lt h]
  rw [hrem, take_left' hi, drop_left' hi]
  exact ⟨rfl, hperm⟩

variable {x : α}

theorem cons_swapRemove_perm (h : l[i]? = some x) : (x :: l.swapRemove i).Perm l := by
  obtain ⟨hlt, hx⟩ := List.getElem?_eq_some_iff.1 h
  obtain ⟨rest, hrem, hperm⟩ := swapRemove_eq_append hlt
  have hl : l = l.take i ++ x :: l.drop (i + 1) := by simp [← hx]
  rw [hrem]
  refine List.perm_middle.symm.trans ?_
  conv => rhs; rw [hl]
  exact List.Perm.append_left _ (hperm.cons x)

theorem swapRemove_subperm (h : l[i]? = some x) : (l.swapRemove i).Subperm l :=
  (sublist_cons_self x _).subperm.trans (cons_swapRemove_perm h).subperm

variable {a : α}

theorem mem_of_mem_swapRemove (hi : i < l.length) (h : a ∈ l.swapRemove i) : a ∈ l :=
  (cons_swapRemove_perm (List.getElem?_eq_getElem hi)).subset (mem_cons_of_mem _ h)

variable {f : α → β}

/-- When the elements have distinct keys, the others are those with another key. -/
theorem mem_swapRemove_iff (hnd : (l.map f).Nodup) (hx : l[i]? = some x) : a ∈ l.swapRemove i ↔ a ∈ l ∧ f a ≠ f x := by
  have hperm := cons_swapRemove_perm hx
  rw [← (hperm.map f).nodup_iff, map_cons, nodup_cons, mem_map] at hnd
  rw [← hperm.mem_iff, mem_cons]
  constructor
  · intro ha
    exact ⟨.inr ha, fun heq => hnd.1 ⟨a, ha, heq⟩⟩
  rintro ⟨rfl | ha, hne⟩
  · exact absurd rfl hne
  · exact ha

theorem length_swapRemove (h : i < l.length) : (l.swapRemove i).length + 1 = l.length := by
  have hperm := cons_swapRemove_perm (List.getElem?_eq_getElem h)
  rw [← hperm.length_eq, length_cons]

theorem getElem?_swapRemove (h : i < l.length) (j : Nat) :
    (l.swapRemove i)[j]? = if j + 1 < l.length then (if j = i then l.getLast? else l[j]?) else none := by
  obtain ⟨last, hlast⟩ : ∃ last, l.getLast? = some last := by
    cases l with
    | nil => simp at h
    | cons a l => exact ⟨_, List.getLast?_cons⟩
  rw [swapRemove, hlast]
  rw [List.getElem?_dropLast, length_set]
  by_cases hj : j + 1 < l.length
  · rw [if_pos (by omega), if_pos hj, List.getElem?_set]
    by_cases hij : i = j
    · subst hij
      simp [h]
    · have hji : j ≠ i := fun e => hij e.symm
      simp [hij, hji]
  · rw [if_neg (by omega), if_neg hj]

/-- What stood at the place that is removed plays no part. -/
theorem swapRemove_set_self : (l.set i a).swapRemove i = l.swapRemove i := by
  by_cases h : i < l.length
  · apply ext_getElem?
    intro j
    rw [getElem?_swapRemove (by rwa [length_set]), getElem?_swapRemove h, length_set]
    by_cases hj : j + 1 < l.length
    · rw [if_pos hj, if_pos hj]
      by_cases hij : j = i
      · rw [if_pos hij, if_pos hij, List.getLast?_eq_getElem?, List.getLast?_eq_getElem?, length_set,
          List.getElem?_set_ne (by omega)]
      · rw [if_neg hij, if_neg hij, List.getElem?_set_ne (by omega)]
    · rw [if_neg hj, if_neg hj]
  · rw [set_eq_of_length_le (by omega)]

/-- The element that `swapRemove` moves into the gap. -/
def swapMoved (l : List α) (i : Nat) : Option α := if i + 1 ≠ l.length then l.getLast? else none

/-- The places of the elements after the removal, when no element stands twice. -/
theorem getElem?_swapRemove_iff [DecidableEq α] (hnd : l.Nodup) (hx : l[i]? = some x) (j : Nat) (a : α) :
    (l.swapRemove i)[j]? = some a ↔ a ≠ x ∧ if l.swapMoved i = some a then j = i else l[j]? = some a := by
  have hi := (List.getElem?_eq_some_iff.1 hx).1
  have haft : (l.swapRemove i)[j]? = some a ↔ j + 1 < l.length ∧ l[if j = i then l.length - 1 else j]? = some a := by
    rw [getElem?_swapRemove hi, List.getLast?_eq_getElem?]
    by_cases hj : j + 1 < l.length
    · by_cases hji : j = i <;> simp [hj, hji]
    · simp [hj]
  have hmvd : l.swapMoved i = some a ↔ i + 1 ≠ l.length ∧ l[l.length - 1]? = some a := by
    rw [swapMoved, List.getLast?_eq_getElem?]
    by_cases hend : i + 1 = l.length <;> simp [hend]
  rw [haft]
  by_cases hmem : a ∈ l
  · obtain ⟨place, hplc⟩ := mem_iff_getElem?.1 hmem
    have hlt := (List.getElem?_eq_some_iff.1 hplc).1
    -- the place of an element is unique, so the rest is about places
    have hat : ∀ q, l[q]? = some a ↔ q = place := by
      refine fun q => ⟨fun hq => ?_, fun hq => hq ▸ hplc⟩
      exact (List.getElem?_inj (List.getElem?_eq_some_iff.1 hq).1 hnd).1 (hq.trans hplc.symm)
    have hne : a ≠ x ↔ i ≠ place := by rw [Ne, Ne, ← hat, hx, Option.some.injEq, eq_comm]
    rw [hat] at hmvd
    rw [hat, hne]
    by_cases hend : l.swapMoved i = some a
    · have := hmvd.1 hend
      rw [if_pos hend]
      split <;> omega
    · have := mt hmvd.2 hend
      rw [if_neg hend, hat]
      split <;> omega
  · have hnone : ∀ q, l[q]? ≠ some a := fun q hq => hmem (mem_of_getElem? hq)
    rw [if_neg fun h => hnone _ (hmvd.1 h).2]
    exact iff_of_false (fun h => hnone _ h.2) fun h => hnone _ h.2

variable {fuel : Nat} (keep : α → Bool)

/-- The loop keeps what it has passed and filters the rest, in some order. -/
theorem retainSwap_perm (hfuel : l.length ≤ fuel + i) :
    (retainSwap keep fuel i l).Perm (l.take i ++ (l.drop i).filter keep) := by
  induction fuel generalizing i l with
  | zero =>
    rw [retainSwap, take_of_length_le (by omega), drop_of_length_le (by omega)]
    simp
  | succ fuel ih =>
    rw [retainSwap]
    split
    next hnone =>
      have hlen := List.getElem?_eq_none_iff.1 hnone
      rw [take_of_length_le hlen, drop_of_length_le hlen]
      simp
    next x hx =>
      obtain ⟨hlt, hget⟩ := List.getElem?_eq_some_iff.1 hx
      have hdrop : l.drop i = x :: l.drop (i + 1) := by rw [drop_eq_getElem_cons hlt, hget]
      split
      next hkeep =>
        refine (ih (by omega)).trans ?_
        rw [hdrop, filter_cons_of_pos hkeep, take_add_one, hx]
        simp
      next hdropped =>
        have hlen := length_swapRemove hlt
        obtain ⟨htake, hperm⟩ := take_drop_swapRemove hlt
        refine (ih (by omega)).trans ?_
        rw [htake, hdrop, filter_cons_of_neg hdropped]
        exact List.Perm.append_left _ (hperm.filter keep)

theorem retainSwap_all_perm (l : List α) : (retainSwap keep l.length 0 l).Perm (l.filter keep) := by
  have hperm := retainSwap_perm keep (show l.length ≤ l.length + 0 by omega)
  simpa using hperm

/-- Removing one of the last two elements keeps the order of the others. -/
theorem swapRemove_eq_eraseIdx (hi : i < l.length) (h : l.length ≤ i + 2) : l.swapRemove i = l.eraseIdx i := by
  obtain ⟨a, x, rfl, -, hcase⟩ := exists_swapRemove hi
  rcases hcase with ⟨hl, hrem⟩ | ⟨b, y, hl, hrem⟩
  · rw [hrem, hl, eraseIdx_append_of_length_le (Nat.le_refl _)]
    simp
  have hb : b = [] := by
    rw [hl] at h
    simp only [length_append, length_cons, length_nil] at h
    exact eq_nil_of_length_eq_zero (by omega)
  rw [hrem, hl, hb, eraseIdx_append_of_length_le (Nat.le_refl _)]
  simp

/-- Retaining keeps the order when at most one retained element stands behind the first one that
    is removed. -/
theorem retainSwap_eq_filter (hfuel : l.length ≤ fuel + i) (h : (((l.drop i).dropWhile keep).filter keep).length ≤ 1) :
    retainSwap keep fuel i l = l.take i ++ (l.drop i).filter keep := by
  induction fuel generalizing i l with
  | zero =>
    rw [retainSwap, take_of_length_le (by omega), drop_of_length_le (by omega)]
    simp
  | succ fuel ih =>
    rw [retainSwap]
    cases hx : l[i]? with
    | none =>
      have hlen : l.length ≤ i := List.getElem?_eq_none_iff.1 hx
      rw [take_of_length_le hlen, drop_of_length_le hlen]
      simp
    | some x =>
      obtain ⟨hlt, hget⟩ := List.getElem?_eq_some_iff.1 hx
      have hdrop : l.drop i = x :: l.drop (i + 1) := by rw [drop_eq_getElem_cons hlt, hget]
      dsimp only
      cases hk : keep x with
      | true =>
        rw [hdrop, dropWhile_cons_of_pos hk] at h
        rw [if_pos rfl, ih (by omega) h, hdrop, filter_cons_of_pos hk, take_add_one, hx]
        simp
      | false =>
        have hnot : ¬keep x = true := by simp [hk]
        rw [hdrop, dropWhile_cons_of_neg hnot, filter_cons_of_neg hnot] at h
        obtain ⟨htake, hperm⟩ := take_drop_swapRemove hlt
        have hfil : ((l.swapRemove i).drop i).filter keep = (l.drop (i + 1)).filter keep := by
          have hp := hperm.filter keep
          cases hc : (l.drop (i + 1)).filter keep with
          | nil => exact (hc ▸ hp).eq_nil
          | cons y ys =>
            rw [hc] at h hp
            have hys : ys = [] := eq_nil_of_length_eq_zero (by simpa using h)
            rw [hys] at hp ⊢
            exact List.perm_singleton.1 hp
        have hlen := length_swapRemove hlt
        rw [if_neg (by simp), ih (by omega), htake, hfil, hdrop, filter_cons_of_neg hnot]
        refine Nat.le_trans (List.Sublist.length_le ?_) (hfil ▸ h)
        exact (dropWhile_sublist _).filter _

/-- What the removal leaves of the elements a predicate holds of, read through `f`, is as before exactly
    when it does not hold of the removed one, and the last element is not moved over another of them. -/
theorem map_filter_swapRemove_iff {p : α → Bool} (hnd : (l.map f).Nodup) (hx : l[i]? = some x) :
    ((l.swapRemove i).filter p).map f = (l.filter p).map f ↔
      p x = false ∧ ((l.drop (i + 1)).countP p ≤ 1 ∨ l.getLast?.any p = false) := by
  obtain ⟨a, x', ha, hx', hcase⟩ := exists_swapRemove (List.getElem?_eq_some_iff.1 hx).1
  obtain rfl : x = x' := Option.mem_unique hx hx'
  rcases hcase with ⟨hl, hrem⟩ | ⟨b, y, hl, hrem⟩
  · have hdrop : l.drop (i + 1) = [] := by
      rw [hl]
      exact drop_of_length_le (by simp [ha])
    rw [hrem, hdrop, hl]
    cases hp : p x <;> simp [hp]
  · have hdrop : l.drop (i + 1) = b ++ [y] := by
      rw [hl, ← ha, show a ++ x :: (b ++ [y]) = (a ++ [x]) ++ (b ++ [y]) by simp,
        show a.length + 1 = (a ++ [x]).length by simp, drop_left]
    have hlast : l.getLast? = some y := by
      rw [hl, show a ++ x :: (b ++ [y]) = (a ++ x :: b) ++ [y] by simp, List.getLast?_concat]
    rw [hrem, hdrop, hlast, hl]
    cases hp : p x with
    | true =>
      -- one element less
      refine iff_of_false (fun h => ?_) (by simp)
      have hlen := congrArg List.length h
      cases hy : p y <;> simp [hp, hy] at hlen
    | false =>
      cases hy : p y with
      | false => simp [hp, hy]
      | true =>
        have hcnt : (b ++ [y]).countP p = (b.filter p).length + 1 := by simp [countP_eq_length_filter, hy]
        rw [hcnt]
        cases hb : b.filter p with
        | nil => simp [hp, hy, hb]
        | cons z rest =>
          refine iff_of_false (fun h => ?_) (by simp [hy])
          -- the moved element would have to equal one it was moved over
          have hz : z ∈ b := mem_of_mem_filter (hb ▸ mem_cons_self)
          have haft : ((a ++ y :: b).filter p).map f = (a.filter p).map f ++ f y :: f z :: rest.map f := by
            simp [hy, hb]
          have hbef : ((a ++ x :: (b ++ [y])).filter p).map f =
              (a.filter p).map f ++ f z :: (rest.map f ++ [f y]) := by
            simp [hp, hy, hb]
          rw [haft, hbef] at h
          have hzy : f y = f z := (List.cons.inj (append_cancel_left h)).1
          rw [hl] at hnd
          have hdist : ∀ w ∈ b, f w ≠ f y := by
            simp only [map_append, map_cons, nodup_append, nodup_cons] at hnd
            intro w hw heq
            exact hnd.2.1.2.2.2 (f w) (mem_map_of_mem hw) (f y) (by simp) heq
          exact hdist z hz hzy.symm

end List
