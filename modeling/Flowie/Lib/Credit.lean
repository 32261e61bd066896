import Mathlib.Data.List.Infix

/-!
# A queue with credit

The items of a queue leave it in order. Some of them need a unit of credit, and some are gone before
they are looked at; the first item that finds no credit holds back everything behind it.
-/

namespace Flowie.Credit

variable {α : Type} {needs gone : α → Bool}

/-- What is held back with so much credit. -/
def held (needs gone : α → Bool) : Nat → List α → List α
  | _, [] => []
  | credit, item :: rest =>
    if gone item then held needs gone credit rest
    else if needs item then
      match credit with
      | 0 => item :: rest
      | credit + 1 => held needs gone credit rest
    else held needs gone credit rest

@[simp] theorem held_nil (credit : Nat) : held needs gone credit [] = [] := by
  cases credit <;> rfl

variable {item : α}

theorem held_cons_gone (h : gone item = true) (credit : Nat) (rest : List α) :
    held needs gone credit (item :: rest) = held needs gone credit rest := by
  cases credit <;> simp [held, h]

theorem held_cons_free (h : needs item = false) (credit : Nat) (rest : List α) :
    held needs gone credit (item :: rest) = held needs gone credit rest := by
  cases credit <;> simp [held, h]

theorem held_cons_blocked (hnds : needs item = true) (hgone : gone item = false) (rest : List α) :
    held needs gone 0 (item :: rest) = item :: rest := by
  simp [held, hnds, hgone]

theorem held_cons_paid (hnds : needs item = true) (hgone : gone item = false) (credit : Nat) (rest : List α) :
    held needs gone (credit + 1) (item :: rest) = held needs gone credit rest := by
  simp [held, hnds, hgone]

/-- An item in front may be exchanged for one that is treated in the same way. -/
theorem map_held_cons {β : Type} {f : α → β} {other : α} (hnds : needs other = needs item) (hgone : gone other = gone item)
    (hf : f other = f item) (credit : Nat) (rest : List α) :
    (held needs gone credit (other :: rest)).map f = (held needs gone credit (item :: rest)).map f := by
  cases hitem : gone item with
  | true => rw [held_cons_gone hitem, held_cons_gone (hgone.trans hitem)]
  | false =>
    cases hpay : needs item with
    | false => rw [held_cons_free hpay, held_cons_free (hnds.trans hpay)]
    | true =>
      cases credit with
      | zero =>
        rw [held_cons_blocked hpay hitem, held_cons_blocked (hnds.trans hpay) (hgone.trans hitem), List.map_cons,
          List.map_cons, hf]
      | succ credit => rw [held_cons_paid hpay hitem, held_cons_paid (hnds.trans hpay) (hgone.trans hitem)]

theorem held_suffix (credit : Nat) (queue : List α) : held needs gone credit queue <:+ queue := by
  induction queue generalizing credit with
  | nil => simp
  | cons item rest ih =>
    have hlat : ∀ credit, held needs gone credit rest <:+ item :: rest := fun credit =>
      (ih credit).trans (List.suffix_cons item rest)
    cases hgone : gone item with
    | true => simpa only [held_cons_gone hgone] using hlat credit
    | false =>
      cases hnds : needs item with
      | false => simpa only [held_cons_free hnds] using hlat credit
      | true =>
        cases credit with
        | zero => rw [held_cons_blocked hnds hgone]
        | succ credit => simpa only [held_cons_paid hnds hgone] using hlat credit

variable {credit : Nat}

/-- More credit and more items that are gone hold back less. -/
theorem held_suffix_held {gone' : α → Bool} (hmore : ∀ item, gone' item = true → gone item = true) {credit' : Nat}
    (hle : credit ≤ credit') (queue : List α) : held needs gone credit' queue <:+ held needs gone' credit queue := by
  induction queue generalizing credit credit' with
  | nil => simp
  | cons item rest ih =>
    cases hnds : needs item with
    | false =>
      rw [held_cons_free hnds, held_cons_free hnds]
      exact ih hle
    | true =>
      cases hgone' : gone' item with
      | true =>
        rw [held_cons_gone hgone', held_cons_gone (hmore item hgone')]
        exact ih hle
      | false =>
        cases credit with
        | zero =>
          rw [held_cons_blocked hnds hgone']
          exact held_suffix credit' (item :: rest)
        | succ credit =>
          rw [held_cons_paid hnds hgone']
          cases hgone : gone item with
          | true =>
            rw [held_cons_gone hgone]
            exact ih (Nat.le_of_succ_le hle)
          | false =>
            obtain ⟨less, rfl⟩ : ∃ less, credit' = less + 1 := ⟨credit' - 1, by omega⟩
            rw [held_cons_paid hnds hgone]
            exact ih (Nat.le_of_succ_le_succ hle)

/-- Without its first item no more of the queue is held back. -/
theorem held_suffix_held_cons (rest : List α) : held needs gone credit rest <:+ held needs gone credit (item :: rest) := by
  cases hgone : gone item with
  | true => rw [held_cons_gone hgone]
  | false =>
    cases hnds : needs item with
    | false => rw [held_cons_free hnds]
    | true =>
      cases credit with
      | zero =>
        rw [held_cons_blocked hnds hgone]
        exact (held_suffix 0 rest).trans (List.suffix_cons item rest)
      | succ credit =>
        rw [held_cons_paid hnds hgone]
        exact held_suffix_held (fun _ => id) (Nat.le_succ credit) rest

variable {queue : List α}

/-- The first item that is held back needs credit. -/
theorem needs_of_held_eq_cons {rest : List α} (h : held needs gone credit queue = item :: rest) : needs item = true := by
  induction queue generalizing credit with
  | nil => simp at h
  | cons first queue ih =>
    cases hgone : gone first with
    | true =>
      rw [held_cons_gone hgone] at h
      exact ih h
    | false =>
      cases hnds : needs first with
      | false =>
        rw [held_cons_free hnds] at h
        exact ih h
      | true =>
        cases credit with
        | zero =>
          rw [held_cons_blocked hnds hgone] at h
          cases h
          exact hnds
        | succ credit =>
          rw [held_cons_paid hnds hgone] at h
          exact ih h

/-- In a queue where nothing stands behind an item that needs credit but its like, nothing else is held back. -/
theorem needs_of_mem_held (hords : queue.Pairwise fun a b => needs a = true → needs b = true)
    (hmem : item ∈ held needs gone credit queue) : needs item = true := by
  have hsub : (held needs gone credit queue).Sublist queue := (held_suffix credit queue).sublist
  have hheld := hords.sublist hsub
  cases h : held needs gone credit queue with
  | nil =>
    rw [h] at hmem
    cases hmem
  | cons first rest =>
    have hfst := needs_of_held_eq_cons h
    rw [h] at hmem hheld
    rcases List.mem_cons.1 hmem with rfl | hrest
    · exact hfst
    · exact (List.pairwise_cons.1 hheld).1 item hrest hfst

end Flowie.Credit
