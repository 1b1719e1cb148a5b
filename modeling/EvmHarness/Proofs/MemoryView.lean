import EvmHarness.Proofs.MemoryFits
set_option autoImplicit false

/-!
# Memory as an endless tape

What a write into memory changes is said byte by byte, with zeros where memory has ended.  Growing
memory changes no byte, and a write changes those of its range only.
-/

namespace EvmHarness

namespace Bytes

variable {b value : ByteArray} {offset : Nat}

theorem byteAt_append (a b : ByteArray) (i : Nat) :
    byteAt (a ++ b) i = if i < a.size then byteAt a i else byteAt b (i - a.size) := by
  have size : (a ++ b).size = a.size + b.size := ByteArray.size_append
  split
  · rename_i left
    rw [byteAt_of_lt left, byteAt_of_lt (by omega)]
    exact ByteArray.getElem_append_left left
  · rename_i right
    by_cases inside : i < a.size + b.size
    · rw [byteAt_of_lt (by omega), byteAt_of_lt (by omega)]
      exact ByteArray.getElem_append_right (Nat.le_of_not_lt right)
    · rw [byteAt_of_le (by omega), byteAt_of_le (by omega)]

theorem byteAt_extract (b : ByteArray) (start stop i : Nat) :
    byteAt (b.extract start stop) i = if start + i < stop then byteAt b (start + i) else 0 := by
  have size : (b.extract start stop).size = min stop b.size - start := ByteArray.size_extract
  by_cases taken : i < (b.extract start stop).size
  · rw [byteAt_of_lt taken, ByteArray.getElem_extract, if_pos (by omega), byteAt_of_lt]
  · rw [byteAt_of_le (Nat.le_of_not_lt taken)]
    split
    · rw [byteAt_of_le (by omega)]
    · rfl

theorem byteAt_push (b : ByteArray) (byte : UInt8) (i : Nat) :
    byteAt (b.push byte) i = if i = b.size then byte else byteAt b i := by
  have size : (b.push byte).size = b.size + 1 := ByteArray.size_push
  obtain before | rfl | after := Nat.lt_trichotomy i b.size
  · rw [if_neg (Nat.ne_of_lt before), byteAt_of_lt before, byteAt_of_lt (by omega)]
    exact Array.getElem_push_lt before
  · rw [if_pos rfl, byteAt_of_lt (by omega)]
    exact Array.getElem_push_eq
  · rw [if_neg (Nat.ne_of_gt after), byteAt_of_le (by omega), byteAt_of_le (by omega)]

theorem byteAt_push_zero (b : ByteArray) (i : Nat) : byteAt (b.push 0) i = byteAt b i := by
  rw [byteAt_push]
  split
  · rename_i last
    rw [byteAt_of_le (Nat.le_of_eq last.symm)]
  · rfl

/-- Zeros at the end are those that are read there anyway. -/
theorem byteAt_pushZeros (b : ByteArray) (n i : Nat) : byteAt (pushZeros b n) i = byteAt b i := by
  induction n generalizing b with
  | zero => rfl
  | succ n ih => rw [pushZeros, ih, byteAt_push_zero]

/-- A slice continues what it is taken from, zeros at the end included. -/
theorem byteAt_slice (b : ByteArray) (offset : Nat) {size i : Nat} (h : i < size) :
    byteAt (slice b offset size) i = byteAt b (offset + i) := by
  unfold slice
  split
  · rw [byteAt_pushZeros, byteAt_extract, if_pos (by omega)]
  · rw [byteAt_pushZeros, byteAt_of_le (Nat.zero_le _), byteAt_of_le (by omega)]

/-- Bytes that are written over are those of the value, and the others stay. -/
theorem byteAt_overwrite (h : offset + value.size ≤ b.size) (i : Nat) :
    byteAt (overwrite b offset value) i =
      if offset ≤ i ∧ i < offset + value.size then byteAt value (i - offset) else byteAt b i := by
  have hvalue : value.data.size = value.size := rfl
  have hb : b.data.size = b.size := rfl
  have whole : value.extract 0 (0 + value.size) = value := by
    rw [Nat.zero_add, ByteArray.extract_zero_size]
  have front : (b.extract 0 offset).size = offset := by
    rw [ByteArray.size_extract]
    omega
  have upTo : (b.extract 0 offset ++ value).size = offset + value.size := by
    rw [ByteArray.size_append, front]
  rw [overwrite, ByteArray.copySlice_eq_append, whole, byteAt_append, upTo, byteAt_append, front]
  obtain before | inside | behind : i < offset ∨ (offset ≤ i ∧ i < offset + value.size) ∨
      offset + value.size ≤ i := by omega
  · rw [if_pos (by omega), if_pos before, if_neg (by omega), byteAt_extract, if_pos (by omega),
      Nat.zero_add]
  · rw [if_pos inside.2, if_neg (by omega), if_pos inside]
  · have at_i :
        offset + min value.size (value.data.size - 0) + (i - (offset + value.size)) = i := by
      omega
    rw [if_neg (by omega), if_neg (by omega), byteAt_extract, at_i, hb]
    split
    · rfl
    · rw [byteAt_of_le (by omega)]

end Bytes

namespace Memory

variable {m : Memory} {offset size : Nat}

/-- The byte at `i` of the memory continued by endless zeros. -/
def byteAt (m : Memory) (i : Nat) : UInt8 := Bytes.byteAt m.bytes i

theorem byteAt_extend (m : Memory) (offset size i : Nat) :
    (m.extend offset size).byteAt i = m.byteAt i := by
  unfold extend
  split
  · rfl
  · exact Bytes.byteAt_pushZeros _ _ _

/-- A value that is long enough is written from its start. -/
theorem byteAt_fit {value : ByteArray} {i : Nat} (h : size ≤ value.size) (hi : i < size) :
    Bytes.byteAt (fit value size) i = Bytes.byteAt value i := by
  rw [fit, if_pos h, Bytes.byteAt_extract, Nat.zero_add, if_pos hi]

/-- A write puts the bytes of the value into its range, and changes no others. -/
theorem byteAt_store (value : ByteArray) (h : (m.extend offset size).covers offset size = true)
    (i : Nat) :
    (m.store offset size value).byteAt i =
      if offset ≤ i ∧ i < offset + size then Bytes.byteAt (fit value size) (i - offset)
      else m.byteAt i := by
  unfold store
  split
  · rename_i hsize
    rw [if_neg (by omega)]
  · rename_i hsize
    have reaches := (covers_iff.1 h).resolve_left hsize
    have written := size_fit value size
    have inside : offset + (fit value size).size ≤ (m.extend offset size).bytes.size := by
      rw [written]
      exact reaches
    rw [byteAt, Bytes.byteAt_overwrite inside, written]
    split
    · rfl
    · exact byteAt_extend m offset size i

/-- A memory of whole words does not grow for a range that it covers. -/
theorem Fits.extend_of_covers (hm : m.Fits) (h : m.covers offset size = true) :
    m.extend offset size = m := by
  unfold Memory.extend
  split
  · rfl
  · rename_i hsize
    have reaches := (covers_iff.1 h).resolve_left hsize
    obtain ⟨words, limit⟩ := hm
    have nothing : wordsTo offset size * 32 - m.size = 0 := by
      rw [wordsTo_eq (Nat.le_trans reaches limit)]
      omega
    rw [nothing]
    rfl

end Memory

end EvmHarness
