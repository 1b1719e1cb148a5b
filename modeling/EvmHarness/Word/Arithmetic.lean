import EvmHarness.Word
set_option autoImplicit false

/-!
# Word arithmetic of the instruction set

The functions that the computing instructions apply to words.  Unsigned operations wrap at 256
bits, signed ones read a word as a two's complement integer, and a division by zero is zero.
-/

namespace EvmHarness.Word

/-- The unsigned remainder, zero for a zero modulus. -/
def mod (a n : Word) : Word := if n = 0 then 0 else a % n

/-- The signed quotient, truncated toward zero; zero for a zero divisor.  The least value
divided by minus one wraps to itself. -/
def signedDiv (a b : Word) : Word := if b = 0 then 0 else a.sdiv b

/-- The remainder of the truncated signed division, with the sign of the dividend; zero for a
zero modulus. -/
def signedMod (a n : Word) : Word := if n = 0 then 0 else a.srem n

/-- The sum of two words modulo a third, without wrapping in between. -/
def addMod (a b n : Word) : Word :=
  if n = 0 then 0 else BitVec.ofNat 256 ((a.toNat + b.toNat) % n.toNat)

/-- The product of two words modulo a third, without wrapping in between. -/
def mulMod (a b n : Word) : Word :=
  if n = 0 then 0 else BitVec.ofNat 256 ((a.toNat * b.toNat) % n.toNat)

/-- The power of `a` whose exponent is the low `bits` bits of `e`, by repeated squaring. -/
def powLow (a : Word) (e : Nat) : Nat → Word
  | 0 => 1
  | bits + 1 =>
    let half := powLow a (e / 2) bits
    if e % 2 = 1 then half * half * a else half * half

/-- The power of two words, wrapped at 256 bits. -/
def pow (a e : Word) : Word := powLow a e.toNat (e.toNat.log2 + 1)

/-- The low `x + 1` bytes of a word, read as a two's complement number; from index 31 on the
word is whole already. -/
def signExtend (x w : Word) : Word :=
  if x.toNat < 31 then (w.setWidth (8 * (x.toNat + 1))).signExtend 256 else w

/-- The byte at index `i`, counted from the most significant one; zero past the last. -/
def byte (i w : Word) : Word :=
  if i.toNat < 32 then (w >>> (8 * (31 - i.toNat))) &&& 0xff else 0

/-- The word moved left by `s` bits; zero from 256 on. -/
def shiftLeft (s w : Word) : Word := if s.toNat < 256 then w <<< s.toNat else 0

/-- The word moved right by `s` bits; zero from 256 on. -/
def shiftRight (s w : Word) : Word := if s.toNat < 256 then w >>> s.toNat else 0

/-- The word moved right by `s` bits under copies of its sign bit.  After 255 places only signs
are left, so a longer move is no different. -/
def arithmeticShiftRight (s w : Word) : Word := w.sshiftRight (min s.toNat 255)

theorem powLow_eq (a : Word) (bits e : Nat) : powLow a e bits = a ^ (e % 1 <<< bits) := by
  induction bits generalizing e with
  | zero => simp [powLow, Nat.mod_one]
  | succ bits ih =>
    have split : e % 1 <<< (bits + 1) = 2 * (e / 2 % 1 <<< bits) + e % 2 := by
      rw [Nat.shiftLeft_succ, Nat.mod_mul]; omega
    have square : ∀ k : Nat, a ^ (2 * k) = a ^ k * a ^ k := by
      intro k; rw [Nat.two_mul, BitVec.pow_add]
    rcases Nat.mod_two_eq_zero_or_one e with h | h
    · simp [powLow, ih, split, h, square]
    · simp [powLow, ih, split, h, square, BitVec.pow_succ]

/-- Repeated squaring computes the power. -/
theorem pow_eq (a e : Word) : pow a e = a ^ e.toNat := by
  rw [pow, powLow_eq, Nat.one_shiftLeft, Nat.mod_eq_of_lt Nat.lt_log2_self]

end EvmHarness.Word
