set_option autoImplicit false

/-!
# Words, addresses and hashes

The machine computes on words of 256 bits.  An address is a number of 160 bits and stands in the
low end of a word; a hash fills a word.  All three are bit vectors, so that arithmetic wraps at
the width by itself.
-/

namespace EvmHarness

/-- A machine word: 256 bits. -/
abbrev Word : Type := BitVec 256

/-- The number that names an account: 160 bits. -/
abbrev Address : Type := BitVec 160

/-- A Keccak-256 digest, read as a big-endian number. -/
abbrev Hash : Type := BitVec 256

namespace Word

/-- Words are ordered by their numbers: maps look them up by comparing. -/
instance transCompare : Std.TransCmp (compare : Word → Word → Ordering) := inferInstance

/-- Only a word itself compares as equal to it. -/
instance lawfulEqCompare : Std.LawfulEqCmp (compare : Word → Word → Ordering) := inferInstance

/-- The number of words: no word's number reaches it. -/
def count : Nat := 1 <<< 256

/-- One for a condition that holds, zero for one that does not. -/
def ofBool (b : Bool) : Word := if b then 1 else 0

/-- The number of bytes that the value of a word needs: none for zero. -/
def byteLength (w : Word) : Nat := if w = 0 then 0 else w.toNat.log2 / 8 + 1

theorem byteLength_zero : byteLength 0 = 0 := rfl

theorem byteLength_le (w : Word) : w.byteLength ≤ 32 := by
  unfold byteLength
  split
  · omega
  · next h =>
    have hw : w.toNat ≠ 0 := fun h0 => h (BitVec.eq_of_toNat_eq (by simpa using h0))
    have : w.toNat.log2 < 256 := (Nat.log2_lt hw).2 w.isLt
    omega

end Word

namespace Address

/-- Addresses are ordered by their numbers: maps look them up by comparing. -/
instance transCompare : Std.TransCmp (compare : Address → Address → Ordering) := inferInstance

/-- Only an address itself compares as equal to it. -/
instance lawfulEqCompare : Std.LawfulEqCmp (compare : Address → Address → Ordering) :=
  inferInstance

/-- The address in the low 160 bits of a word; the rest of the word is ignored. -/
def ofWord (w : Word) : Address := w.setWidth 160

/-- The word that holds an address, with zeros above it. -/
def toWord (a : Address) : Word := a.setWidth 256

theorem ofWord_toWord (a : Address) : ofWord a.toWord = a := by
  apply BitVec.eq_of_toNat_eq
  simp [ofWord, toWord]

end Address

end EvmHarness
