import EvmHarness.Operation.Decode
import Std.Data.ExtTreeSet
set_option autoImplicit false

/-!
# Code

A byte string as a row of instructions.  Instructions start at the front and behind one another,
each followed by the bytes that belong to it; a jump may lead only to an instruction start that
holds the jump destination.  The same byte among the bytes of a pushing instruction is no start.
-/

namespace EvmHarness.Code

/-- Offsets are ordered as numbers: sets look them up by comparing. -/
instance transCompare : Std.TransCmp (compare : Nat → Nat → Ordering) := inferInstance

/-- Only an offset itself compares as equal to it. -/
instance lawfulEqCompare : Std.LawfulEqCmp (compare : Nat → Nat → Ordering) := inferInstance

/-- The offsets at which instructions start, the one behind the last included. -/
inductive IsStart (code : ByteArray) : Nat → Prop where
  | first : IsStart code 0
  | next {p : Nat} : IsStart code p → p < code.size →
      IsStart code (p + 1 + Operation.immediatesOf (Bytes.byteAt code p))

/-- Adds the jump destinations from the instruction start `p` on. -/
def jumpDestsFrom (code : ByteArray) (p : Nat) (found : Std.ExtTreeSet Nat) :
    Std.ExtTreeSet Nat :=
  if h : p < code.size then
    let opcode := code[p]
    jumpDestsFrom code (p + 1 + Operation.immediatesOf opcode)
      (if opcode = Operation.jumpDestByte then found.insert p else found)
  else found
termination_by code.size - p

/-- The offsets that a jump may lead to. -/
def jumpDests (code : ByteArray) : Std.ExtTreeSet Nat := jumpDestsFrom code 0 ∅

/-- The byte of the instruction at `p`; past the end of the code there is nothing but stops. -/
def opcodeAt (code : ByteArray) (p : Nat) : UInt8 := Bytes.byteAt code p

/-- The word of the `size` bytes behind the instruction at `p`. -/
def immediateAt (code : ByteArray) (p size : Nat) : BitVec 256 :=
  let number := if size = 32 then Bytes.wordAt code (p + 1) else Bytes.numberAt code (p + 1) size
  BitVec.ofNat 256 number

theorem jumpDestsFrom_of_le {code : ByteArray} {p : Nat} (h : code.size ≤ p)
    (found : Std.ExtTreeSet Nat) : jumpDestsFrom code p found = found := by
  rw [jumpDestsFrom, dif_neg (Nat.not_lt.2 h)]

theorem jumpDestsFrom_of_lt {code : ByteArray} {p : Nat} (h : p < code.size)
    (found : Std.ExtTreeSet Nat) :
    jumpDestsFrom code p found =
      jumpDestsFrom code (p + 1 + Operation.immediatesOf code[p])
        (if code[p] = Operation.jumpDestByte then found.insert p else found) := by
  rw [jumpDestsFrom, dif_pos h]

end EvmHarness.Code
