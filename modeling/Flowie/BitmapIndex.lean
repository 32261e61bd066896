import Mathlib.Data.Finset.Sort
import Flowie.Basic

/-!
# The bitmap index

`flowie_bitmap_index.c`: a set of session identifiers with room for a fixed number of them. The
roaring bitmap that holds it is a finite set; its elements have a rank in ascending order.
-/

namespace Flowie

/-- `flowie_bitmap_index_t`. -/
structure BitmapIndex where
  members : Finset UInt64
  maxMembers : Nat

/-- `flowie_bitmap_index_create`. -/
def bitmapIndexCreate (maxMembers : Nat) : Except Errno BitmapIndex :=
  if maxMembers = 0 then .error .einval else .ok ⟨∅, maxMembers⟩

variable (index : BitmapIndex)

/-- `flowie_bitmap_index_add`. -/
def bitmapIndexAdd (member : UInt64) : Except Errno BitmapIndex :=
  if member ∈ index.members then .ok index
  else if index.members.card ≥ index.maxMembers then .error .enospc
  else .ok { index with members := insert member index.members }

/-- `flowie_bitmap_index_remove`. -/
def bitmapIndexRemove (member : UInt64) : BitmapIndex :=
  { index with members := index.members.erase member }

/-- `flowie_bitmap_index_contains`. -/
def bitmapIndexContains (member : UInt64) : Bool := decide (member ∈ index.members)

/-- `flowie_bitmap_index_count`. -/
def bitmapIndexCount : Nat := index.members.card

/-- `flowie_bitmap_index_select`: the member of a rank. -/
def bitmapIndexSelect (rank : Nat) : Except Errno UInt64 :=
  match (index.members.sort)[rank]? with
  | none => .error .erange
  | some member => .ok member

end Flowie
