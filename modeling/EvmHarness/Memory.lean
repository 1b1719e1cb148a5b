import EvmHarness.Bytes
import EvmHarness.Gas
import EvmHarness.Saturating
set_option autoImplicit false

/-!
# Memory of a frame

A byte string that grows on use, in whole words of 32 bytes, and is paid for by its length.
Reading past the end gives zeros; writing grows the memory first.  An access of no bytes never
grows it, wherever it lies.
-/

namespace EvmHarness

/-- The memory of a frame. -/
structure Memory where
  bytes : ByteArray
  deriving DecidableEq, Inhabited

namespace Memory

/-- The largest end of a range that an instruction may address. -/
def addressLimit : Nat := 0xffffffff

/-- The memory without bytes. -/
def empty : Memory := ⟨ByteArray.empty⟩

/-- The number of bytes. -/
def size (m : Memory) : Nat := m.bytes.size

/-- The number of words that reach the end of `size` bytes from `offset` on. -/
def wordsTo (offset size : Nat) : Nat := Saturating.add (Saturating.add offset size) 31 / 32

/-- The price of `words` words of memory: three each, and their square over 512. -/
def costOfWords (words : Nat) : Nat :=
  Saturating.add (Saturating.mul words words / 512) (Saturating.mul words 3)

/-- The price of the memory as it is. -/
def cost (m : Memory) : Nat := costOfWords (Gas.words m.size)

/-- The price of growing the memory to cover `size` bytes from `offset` on. -/
def expansionCost (m : Memory) (offset size : Nat) : Nat :=
  if size = 0 then 0 else costOfWords (wordsTo offset size) - m.cost

/-- The memory grown to cover `size` bytes from `offset` on, in whole words. -/
def extend (m : Memory) (offset size : Nat) : Memory :=
  if size = 0 then m
  else ⟨Bytes.pushZeros m.bytes (wordsTo offset size * 32 - m.size)⟩

/-- The most bytes that a byte string can have. -/
def capacity : Nat := 0x7fffffffffffffff

/-- Whether a memory can grow to cover `size` bytes from `offset` on. -/
def canCover (offset size : Nat) : Bool := size = 0 || wordsTo offset size * 32 ≤ capacity

/-- Whether the memory reaches the end of `size` bytes from `offset` on. -/
def covers (m : Memory) (offset size : Nat) : Bool := size = 0 || offset + size ≤ m.size

/-- A value as exactly `size` bytes: a longer one is cut, a shorter one follows zeros. -/
def fit (value : ByteArray) (size : Nat) : ByteArray :=
  if size ≤ value.size then value.extract 0 size
  else Bytes.pushZeros (ByteArray.emptyWithCapacity size) (size - value.size) ++ value

/-- The memory with a value of `size` bytes written from `offset` on. -/
def store (m : Memory) (offset size : Nat) (value : ByteArray) : Memory :=
  if size = 0 then m
  else ⟨Bytes.overwrite (m.extend offset size).bytes offset (fit value size)⟩

/-- The `size` bytes from `offset` on. -/
def read (m : Memory) (offset size : Nat) : ByteArray := Bytes.slice m.bytes offset size

/-- The word of the 32 bytes from `offset` on, as a number. -/
def readNumber (m : Memory) (offset : Nat) : Nat := Bytes.wordAt m.bytes offset

/-- The memory with the `size` bytes from `source` on written from `dest` on as well; the two
ranges may overlap, and the memory covers both. -/
def copyWithin (m : Memory) (source dest size : Nat) : Memory :=
  if size = 0 then m
  else
    let taken := m.bytes.extract source (source + size)
    ⟨Bytes.overwrite m.bytes dest taken⟩

theorem extend_zero (m : Memory) (offset : Nat) : m.extend offset 0 = m := rfl

theorem store_zero (m : Memory) (offset : Nat) (value : ByteArray) :
    m.store offset 0 value = m := rfl

theorem expansionCost_zero (m : Memory) (offset : Nat) : m.expansionCost offset 0 = 0 := rfl

theorem size_extend (m : Memory) (offset size : Nat) (h : size ≠ 0) :
    (m.extend offset size).size = max m.size (wordsTo offset size * 32) := by
  simp only [extend, h, if_false, Memory.size, Bytes.size_pushZeros]
  omega

end Memory

end EvmHarness
