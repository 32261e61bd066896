import Flowie.Lib.BigEndian
import Flowie.Lib.Layout

/-!
# Records of words and bytes

The fields of a record that are words or single bytes: what is written back of a field that was read is the
field. Records begin with a mark, a version, the size of their header and their own size; one such record is never
continued by more bytes to another (`eq_nil_of_headMatches`).
-/

namespace Layout

open BigEndian List

def byteAt (data : List UInt8) (offset : Nat) : UInt8 := (slice data offset 1).headD 0

section
variable {data : List UInt8} {offset : Nat}

theorem singleton_byteAt (h : offset + 1 ≤ data.length) : [byteAt data offset] = slice data offset 1 := by
  obtain ⟨byte, hbyte⟩ := List.length_eq_one_iff.1 (length_slice h)
  rw [byteAt, hbyte]
  rfl

theorem byteAt_of_slice {byte : UInt8} (h : slice data offset 1 = [byte]) : byteAt data offset = byte := by
  rw [byteAt, h]
  rfl

theorem ofU16_slice (h : offset + 2 ≤ data.length) : ofU16 (toU16 (slice data offset 2)) = slice data offset 2 :=
  ofU16_toU16 (length_slice h)

theorem ofU32_slice (h : offset + 4 ≤ data.length) : ofU32 (toU32 (slice data offset 4)) = slice data offset 4 :=
  ofU32_toU32 (length_slice h)

theorem ofU64_slice (h : offset + 8 ≤ data.length) : ofU64 (toU64 (slice data offset 8)) = slice data offset 8 :=
  ofU64_toU64 (length_slice h)

end

variable {β : Type*} {data : List β}

theorem slice_append_of_le {offset size : Nat} (h : offset + size ≤ data.length) (more : List β) :
    slice (data ++ more) offset size = slice data offset size := by
  rw [slice, slice, drop_append_of_le_length (by omega), take_append_of_le_length (by simp only [length_drop]; omega)]

/-- The whole record from its fields. -/
theorem eq_flatten_of_slices {widths : List Nat} {fields : List (List β)}
    (h : slices data 0 widths = fields) (hlen : data.length = widths.sum) : data = fields.flatten := by
  rw [← h, ← take_eq_slices, ← hlen, take_length]

/-! ## The head of a record -/

/-- Mark, version, size of the header and size of the record. -/
def head (magic : List UInt8) (version headerSize : UInt16) (total : Nat) : List (List UInt8) :=
  [magic, ofU16 version, ofU16 headerSize, ofU32 (UInt32.ofNat total)]

/-- The data begins with the head of a record that is as long as the data. -/
def headMatches (magic : List UInt8) (version headerSize : UInt16) (data : List UInt8) : Bool :=
  slice data 0 4 == magic && toU16 (slice data 4 2) == version && toU16 (slice data 6 2) == headerSize &&
    (toU32 (slice data 8 4)).toNat == data.length

section
variable {magic : List UInt8} {version headerSize : UInt16} {data : List UInt8}

theorem headMatches_iff (h : 12 ≤ data.length) :
    headMatches magic version headerSize data = true ↔
      slice data 0 4 = magic ∧ slice data 4 2 = ofU16 version ∧ slice data 6 2 = ofU16 headerSize ∧
        slice data 8 4 = ofU32 (UInt32.ofNat data.length) ∧ data.length < 2 ^ 32 := by
  simp only [headMatches, Bool.and_eq_true, beq_iff_eq, and_assoc]
  constructor
  · rintro ⟨hmag, hver, hhdr, htot⟩
    refine ⟨hmag, ?_, ?_, ?_, htot ▸ (toU32 _).toNat_lt⟩
    · rw [← hver, ofU16_slice (by omega)]
    · rw [← hhdr, ofU16_slice (by omega)]
    · rw [← htot, UInt32.ofNat_toNat, ofU32_slice (by omega)]
  · rintro ⟨hmag, hver, hhdr, htot, hlt⟩
    refine ⟨hmag, by rw [hver, toU16_ofU16], by rw [hhdr, toU16_ofU16], ?_⟩
    rw [htot, toU32_ofU32]
    exact UInt32.toNat_ofNat_of_lt' hlt

variable {more : List UInt8}

theorem eq_nil_of_total (hsize : 12 ≤ data.length) (h : (toU32 (slice data 8 4)).toNat = data.length)
    (hmore : (toU32 (slice (data ++ more) 8 4)).toNat = (data ++ more).length) : more = [] := by
  rw [slice_append_of_le (by omega), h, length_append] at hmore
  exact eq_nil_of_length_eq_zero (by omega)

theorem eq_nil_of_headMatches (hsize : 12 ≤ data.length) (h : headMatches magic version headerSize data = true)
    (hmore : headMatches magic version headerSize (data ++ more) = true) : more = [] := by
  simp only [headMatches, Bool.and_eq_true, beq_iff_eq] at h hmore
  exact eq_nil_of_total hsize h.2 hmore.2

end

end Layout
