import Mathlib.Algebra.GroupWithZero.Nat
import Mathlib.Data.List.Induction

/-!
# Big-endian numbers

Fixed-width numbers as byte lists, most significant byte first. Reading back what was written
gives the number when it fits the width (`read_write`), and writing what was read gives the bytes
(`write_read`). Words of 16, 32 and 64 bits always fit. Little-endian numbers are the same bytes, last one first.
-/

namespace BigEndian

/-- The `w` low bytes of `n`. -/
def write : Nat → Nat → List UInt8
  | 0, _ => []
  | w + 1, n => write w (n / 256) ++ [UInt8.ofNat n]

/-- The number the bytes spell. -/
def read (bytes : List UInt8) : Nat := bytes.foldl (fun n b => n * 256 + b.toNat) 0

variable {n : Nat}

@[simp] theorem length_write {w : Nat} : (write w n).length = w := by
  induction w generalizing n with
  | zero => rfl
  | succ w ih => simp [write, ih]

variable (bytes : List UInt8)

theorem read_concat (b : UInt8) : read (bytes ++ [b]) = read bytes * 256 + b.toNat := by
  simp [read]

variable {w : Nat}

theorem read_write (h : n < 256 ^ w) : read (write w n) = n := by
  induction w generalizing n with
  | zero =>
    have hn : n = 0 := by simpa using h
    simp [write, read, hn]
  | succ w ih =>
    have hdiv : n / 256 < 256 ^ w := by
      rw [Nat.pow_succ] at h
      exact Nat.div_lt_of_lt_mul (by omega)
    have hb : (UInt8.ofNat n).toNat = n % 256 := by simp
    rw [write, read_concat, ih hdiv, hb]
    omega

theorem write_read : write bytes.length (read bytes) = bytes := by
  induction bytes using List.reverseRecOn with
  | nil => rfl
  | append_singleton bytes b ih =>
    have hdiv : (read bytes * 256 + b.toNat) / 256 = read bytes := by
      have := b.toNat_lt
      omega
    have hbyte : UInt8.ofNat (read bytes * 256 + b.toNat) = b := by
      rw [← UInt8.toNat_inj, UInt8.toNat_ofNat']
      have := b.toNat_lt
      omega
    rw [List.length_append, List.length_singleton, write, read_concat, hdiv, hbyte, ih]

theorem read_lt : read bytes < 256 ^ bytes.length := by
  induction bytes using List.reverseRecOn with
  | nil => simp [read]
  | append_singleton bytes b ih =>
    have := b.toNat_lt
    rw [read_concat, List.length_append, List.length_singleton, Nat.pow_succ]
    omega

variable {bytes : List UInt8}

theorem write_read_of_length (h : bytes.length = w) : write w (read bytes) = bytes := by
  rw [← h, write_read]

/-! ## Words -/

def ofU16 (word : UInt16) : List UInt8 := write 2 word.toNat

def ofU32 (word : UInt32) : List UInt8 := write 4 word.toNat

def ofU64 (word : UInt64) : List UInt8 := write 8 word.toNat

def toU16 (bytes : List UInt8) : UInt16 := UInt16.ofNat (read bytes)

def toU32 (bytes : List UInt8) : UInt32 := UInt32.ofNat (read bytes)

def toU64 (bytes : List UInt8) : UInt64 := UInt64.ofNat (read bytes)

@[simp] theorem length_ofU16 (word : UInt16) : (ofU16 word).length = 2 := length_write

@[simp] theorem length_ofU32 (word : UInt32) : (ofU32 word).length = 4 := length_write

@[simp] theorem length_ofU64 (word : UInt64) : (ofU64 word).length = 8 := length_write

@[simp] theorem toU16_ofU16 (word : UInt16) : toU16 (ofU16 word) = word := by
  rw [toU16, ofU16, read_write word.toNat_lt, UInt16.ofNat_toNat]

@[simp] theorem toU32_ofU32 (word : UInt32) : toU32 (ofU32 word) = word := by
  rw [toU32, ofU32, read_write word.toNat_lt, UInt32.ofNat_toNat]

@[simp] theorem toU64_ofU64 (word : UInt64) : toU64 (ofU64 word) = word := by
  rw [toU64, ofU64, read_write word.toNat_lt, UInt64.ofNat_toNat]

theorem ofU16_toU16 (h : bytes.length = 2) : ofU16 (toU16 bytes) = bytes := by
  have hlt : read bytes < 2 ^ 16 := by simpa [h] using read_lt bytes
  rw [ofU16, toU16, UInt16.toNat_ofNat_of_lt' hlt, write_read_of_length h]

theorem ofU32_toU32 (h : bytes.length = 4) : ofU32 (toU32 bytes) = bytes := by
  have hlt : read bytes < 2 ^ 32 := by simpa [h] using read_lt bytes
  rw [ofU32, toU32, UInt32.toNat_ofNat_of_lt' hlt, write_read_of_length h]

theorem ofU64_toU64 (h : bytes.length = 8) : ofU64 (toU64 bytes) = bytes := by
  have hlt : read bytes < 2 ^ 64 := by simpa [h] using read_lt bytes
  rw [ofU64, toU64, UInt64.toNat_ofNat_of_lt' hlt, write_read_of_length h]

theorem toNat_of_ofU16 (h : bytes = ofU16 (UInt16.ofNat n)) (hn : n < 2 ^ 16) : (toU16 bytes).toNat = n := by
  rw [h, toU16_ofU16]
  exact UInt16.toNat_ofNat_of_lt' hn

theorem toNat_of_ofU32 (h : bytes = ofU32 (UInt32.ofNat n)) (hn : n < 2 ^ 32) : (toU32 bytes).toNat = n := by
  rw [h, toU32_ofU32]
  exact UInt32.toNat_ofNat_of_lt' hn

end BigEndian

namespace LittleEndian

def ofU16 (word : UInt16) : List UInt8 := (BigEndian.ofU16 word).reverse

def ofU32 (word : UInt32) : List UInt8 := (BigEndian.ofU32 word).reverse

def ofU64 (word : UInt64) : List UInt8 := (BigEndian.ofU64 word).reverse

variable (bytes : List UInt8)

def toU16 : UInt16 := BigEndian.toU16 bytes.reverse

def toU32 : UInt32 := BigEndian.toU32 bytes.reverse

def toU64 : UInt64 := BigEndian.toU64 bytes.reverse

@[simp] theorem length_ofU16 (word : UInt16) : (ofU16 word).length = 2 := by simp [ofU16]

@[simp] theorem length_ofU32 (word : UInt32) : (ofU32 word).length = 4 := by simp [ofU32]

@[simp] theorem length_ofU64 (word : UInt64) : (ofU64 word).length = 8 := by simp [ofU64]

@[simp] theorem toU16_ofU16 (word : UInt16) : toU16 (ofU16 word) = word := by simp [toU16, ofU16]

@[simp] theorem toU32_ofU32 (word : UInt32) : toU32 (ofU32 word) = word := by simp [toU32, ofU32]

@[simp] theorem toU64_ofU64 (word : UInt64) : toU64 (ofU64 word) = word := by simp [toU64, ofU64]

end LittleEndian
