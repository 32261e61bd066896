import Mathlib.Algebra.GroupWithZero.Nat
import Mathlib.Data.List.Basic

/-!
# Fixed layouts

A record whose fields stand at fixed offsets. `slice` takes one field; the fields of a layout, given by their
widths, are the slices at the offsets the widths add up to (`slices`). Cutting what was put together gives the
fields back (`slices_flatten`), and putting the slices together gives the bytes (`drop_eq_slices`), so a decoder
that reads by offset and an encoder that writes one field after the other are compared field by field.
-/

namespace Layout

open List

variable {β : Type*}

/-- The `size` elements at `offset`. -/
def slice (bytes : List β) (offset size : Nat) : List β := (bytes.drop offset).take size

/-- The fields of the given widths, from `offset` on. -/
def slices (bytes : List β) : Nat → List Nat → List (List β)
  | _, [] => []
  | offset, width :: widths => slice bytes offset width :: slices bytes (offset + width) widths

@[simp] theorem slices_nil (bytes : List β) (offset : Nat) : slices bytes offset [] = [] := rfl

@[simp] theorem slices_cons (bytes : List β) (offset width : Nat) (widths : List Nat) :
    slices bytes offset (width :: widths) = slice bytes offset width :: slices bytes (offset + width) widths := rfl

variable {bytes : List β} {offset : Nat}

theorem length_slice {size : Nat} (h : offset + size ≤ bytes.length) : (slice bytes offset size).length = size := by
  simp only [slice, length_take, length_drop]
  omega

theorem slice_append (first rest : List β) (offset size : Nat) :
    slice (first ++ rest) (first.length + offset) size = slice rest offset size := by
  simp [slice, ← drop_drop]

theorem slices_append (first rest : List β) (widths : List Nat) :
    slices (first ++ rest) (first.length + offset) widths = slices rest offset widths := by
  induction widths generalizing offset with
  | nil => rfl
  | cons width widths ih => rw [slices_cons, slices_cons, slice_append, Nat.add_assoc, ih]

variable {widths : List Nat}

theorem slices_flatten {fields : List (List β)} (h : fields.map List.length = widths) (rest : List β) :
    slices (fields.flatten ++ rest) 0 widths = fields := by
  induction fields generalizing widths with
  | nil =>
    subst h
    rfl
  | cons field fields ih =>
    subst h
    simp only [map_cons, flatten_cons, append_assoc, slices_cons, List.cons.injEq]
    refine ⟨by simp [slice], ?_⟩
    rw [Nat.zero_add, ← Nat.add_zero field.length, slices_append, ih rfl]

/-- The slices, put together, are the bytes they were taken from. -/
theorem drop_eq_slices (widths : List Nat) :
    bytes.drop offset = (slices bytes offset widths).flatten ++ bytes.drop (offset + widths.sum) := by
  induction widths generalizing offset with
  | nil => simp
  | cons width widths ih =>
    have hwidth : bytes.drop offset = slice bytes offset width ++ bytes.drop (offset + width) := by
      rw [slice, ← drop_drop, take_append_drop]
    rw [slices_cons, flatten_cons, append_assoc, sum_cons, ← Nat.add_assoc, ← ih, ← hwidth]

theorem slices_widths_append (more : List Nat) :
    slices bytes offset (widths ++ more) = slices bytes offset widths ++ slices bytes (offset + widths.sum) more := by
  induction widths generalizing offset with
  | nil => simp
  | cons width widths ih =>
    rw [cons_append, slices_cons, slices_cons, ih, cons_append, sum_cons, Nat.add_assoc]

theorem map_length_slices (h : offset + widths.sum ≤ bytes.length) :
    (slices bytes offset widths).map List.length = widths := by
  induction widths generalizing offset with
  | nil => rfl
  | cons width widths ih =>
    rw [sum_cons] at h
    rw [slices_cons, map_cons, length_slice (by omega), ih (by omega)]

theorem take_eq_slices : bytes.take widths.sum = (slices bytes 0 widths).flatten := by
  have hspl : bytes.take widths.sum ++ bytes.drop widths.sum = (slices bytes 0 widths).flatten ++ bytes.drop widths.sum := by
    have hdrop : bytes.drop 0 = _ := drop_eq_slices widths
    simpa using hdrop
  exact append_cancel_right hspl

end Layout
