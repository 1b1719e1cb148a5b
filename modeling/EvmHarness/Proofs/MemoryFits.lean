import EvmHarness.Memory
set_option autoImplicit false

/-!
# How large a memory gets

A range that an instruction may address ends within 32 bits, and memory grows to cover it in whole
words.  So memory is a whole number of words and at most 32 bits long, and a range that has once
been covered stays covered.
-/

namespace EvmHarness

namespace Bytes

theorem size_overwrite {b value : ByteArray} {offset : Nat} (h : offset + value.size ≤ b.size) :
    (overwrite b offset value).size = b.size := by
  have hvalue : value.data.size = value.size := rfl
  have hb : b.data.size = b.size := rfl
  unfold overwrite
  rw [ByteArray.copySlice_eq_append, ByteArray.size_append, ByteArray.size_append,
    ByteArray.size_extract, ByteArray.size_extract, ByteArray.size_extract]
  omega

theorem size_slice (b : ByteArray) (offset size : Nat) : (slice b offset size).size = size := by
  unfold slice
  split
  · rw [size_pushZeros, ByteArray.size_extract]
    omega
  · rw [size_pushZeros]
    exact Nat.zero_add size

end Bytes

namespace Memory

/-- The most bytes that instructions can make of a memory: the largest end of a range, rounded up
to a whole word. -/
def sizeLimit : Nat := 0x100000000

/-- The memory is a whole number of words that instructions can make of it. -/
structure Fits (m : Memory) : Prop where
  words : 32 ∣ m.size
  size : m.size ≤ sizeLimit

variable {m : Memory} {offset size : Nat}

theorem fits_empty : empty.Fits := ⟨Nat.dvd_zero 32, Nat.zero_le _⟩

theorem covers_iff : m.covers offset size = true ↔ size = 0 ∨ offset + size ≤ m.size := by
  simp [covers]

/-- What a larger memory covers, too. -/
theorem covers_of_le {n : Memory} (h : m.covers offset size = true) (grown : m.size ≤ n.size) :
    n.covers offset size = true :=
  covers_iff.2 ((covers_iff.1 h).imp_right fun hle => Nat.le_trans hle grown)

/-- Addressable ranges are far from the largest counter. -/
theorem wordsTo_eq (h : offset + size ≤ sizeLimit) :
    wordsTo offset size = (offset + size + 31) / 32 := by
  have far : sizeLimit + 31 ≤ Saturating.limit := by decide
  have sum : Saturating.add offset size = offset + size := Saturating.add_eq (by omega)
  rw [wordsTo, sum, Saturating.add_eq (by omega)]

theorem size_le_extend (m : Memory) (offset size : Nat) : m.size ≤ (m.extend offset size).size := by
  by_cases hsize : size = 0
  · subst hsize
    exact Nat.le_refl _
  · rw [size_extend m offset size hsize]
    exact Nat.le_max_left _ _

theorem covers_extend (m : Memory) (h : offset + size ≤ sizeLimit) :
    (m.extend offset size).covers offset size = true := by
  rw [covers_iff]
  by_cases hsize : size = 0
  · exact .inl hsize
  · rw [size_extend m offset size hsize, wordsTo_eq h]
    omega

theorem Fits.extend (hm : m.Fits) (h : offset + size ≤ sizeLimit) :
    (m.extend offset size).Fits := by
  by_cases hsize : size = 0
  · rw [hsize, extend_zero]
    exact hm
  · obtain ⟨words, hm⟩ := hm
    have limit : sizeLimit = 32 * 0x8000000 := rfl
    have grown := size_extend m offset size hsize
    rw [wordsTo_eq h] at grown
    constructor
    · rw [grown]
      omega
    · rw [grown]
      omega

theorem size_fit (value : ByteArray) (size : Nat) : (fit value size).size = size := by
  unfold fit
  split
  · rw [ByteArray.size_extract]
    omega
  · rw [ByteArray.size_append, Bytes.size_pushZeros]
    show 0 + (size - value.size) + value.size = size
    omega

/-- A write into memory leaves the size to which it has to grow for it. -/
theorem size_store (value : ByteArray) (h : (m.extend offset size).covers offset size = true) :
    (m.store offset size value).size = (m.extend offset size).size := by
  unfold store
  split
  · rename_i hsize
    rw [hsize, extend_zero]
  · rename_i hsize
    refine Bytes.size_overwrite ?_
    rw [size_fit]
    exact (covers_iff.1 h).resolve_left hsize

/-- A copy within memory leaves its size, if it ends inside. -/
theorem size_copyWithin {source dest : Nat} (h : m.covers dest size = true) :
    (m.copyWithin source dest size).size = m.size := by
  unfold copyWithin
  split
  · rfl
  · rename_i hsize
    have hdest := (covers_iff.1 h).resolve_left hsize
    refine Bytes.size_overwrite ?_
    rw [ByteArray.size_extract]
    have hm : m.bytes.size = m.size := rfl
    omega

theorem Fits.of_size {n : Memory} (hm : m.Fits) (h : n.size = m.size) : n.Fits :=
  ⟨h ▸ hm.words, h ▸ hm.size⟩

theorem Fits.store (hm : m.Fits) (value : ByteArray) (h : offset + size ≤ sizeLimit) :
    (m.store offset size value).Fits :=
  (hm.extend h).of_size (size_store value (covers_extend m h))

/-- A range that the memory covers can be written. -/
theorem Fits.store_of_covers (hm : m.Fits) (value : ByteArray) (h : m.covers offset size = true) :
    (m.store offset size value).Fits := by
  obtain rfl | hend := covers_iff.1 h
  · exact hm
  · exact hm.store value (Nat.le_trans hend hm.size)

/-- Less than what a memory covers, it covers, too. -/
theorem covers_min (h : m.covers offset size = true) (n : Nat) :
    m.covers offset (min size n) = true := by
  rw [covers_iff] at h ⊢
  omega

end Memory

end EvmHarness
