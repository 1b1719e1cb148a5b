set_option autoImplicit false

/-!
# Byte strings as endless tapes

Code, calldata and memory are byte strings that instructions read past the end: every byte there
is zero.  `byteAt` is that view, and the other readers agree with it.  Numbers are written and
read with the most significant byte first.
-/

namespace EvmHarness.Bytes

/-- Two byte strings are equal when their bytes are. -/
instance instDecidableEqByteArray : DecidableEq ByteArray := fun a b =>
  decidable_of_iff (a.data = b.data) ⟨fun h => by cases a; cases b; simp_all, fun h => by rw [h]⟩

/-- The byte at `i` of `b` continued by endless zeros. -/
def byteAt (b : ByteArray) (i : Nat) : UInt8 := if h : i < b.size then b[i] else 0

/-- `b` followed by `n` zeros. -/
def pushZeros (b : ByteArray) : Nat → ByteArray
  | 0 => b
  | n + 1 => pushZeros (b.push 0) n

/-- The `size` bytes from `offset` on, with zeros where `b` has ended. -/
def slice (b : ByteArray) (offset size : Nat) : ByteArray :=
  if offset < b.size then
    let taken := b.extract offset (offset + size)
    pushZeros taken (size - taken.size)
  else
    pushZeros (ByteArray.emptyWithCapacity size) size

/-- `b` with the bytes of `value` written over those from `offset` on. -/
def overwrite (b : ByteArray) (offset : Nat) (value : ByteArray) : ByteArray :=
  value.copySlice 0 b offset value.size

/-- The number whose digits are the `n` bytes from `offset` on, with zeros past the end. -/
def numberAt (b : ByteArray) (offset : Nat) : Nat → Nat
  | 0 => 0
  | n + 1 => numberAt b offset n * 256 + (byteAt b (offset + n)).toNat

/-- The number of `7 * chunks` bytes from `offset` on, seven bytes at a time: so many are read
without a number of more than one machine register. -/
def numberOfChunks (b : ByteArray) (offset : Nat) : Nat → Nat
  | 0 => 0
  | chunks + 1 =>
    numberOfChunks b offset chunks * 0x100000000000000 + numberAt b (offset + 7 * chunks) 7

/-- The number that the 32 bytes from `offset` on write, with zeros past the end. -/
def wordAt (b : ByteArray) (offset : Nat) : Nat :=
  numberOfChunks b offset 4 * 0x100000000 + numberAt b (offset + 28) 4

/-- `b` followed by the `n` low bytes of a number. -/
def pushNumber (b : ByteArray) (value : Nat) : Nat → ByteArray
  | 0 => b
  | n + 1 => pushNumber (b.push (UInt8.ofNat (value >>> (8 * n)))) value n

/-- `b` followed by the `7 * chunks` low bytes of a number, seven bytes at a time. -/
def pushChunks (b : ByteArray) (value : Nat) : Nat → ByteArray
  | 0 => b
  | chunks + 1 =>
    pushNumber (pushChunks b (value / 0x100000000000000) chunks) (value % 0x100000000000000) 7

/-- A number as exactly `n` bytes, its digits beyond them lost. -/
def ofNumber (n value : Nat) : ByteArray := pushNumber (ByteArray.emptyWithCapacity n) value n

/-- A number as exactly 32 bytes. -/
def ofWord (value : Nat) : ByteArray :=
  pushNumber (pushChunks (ByteArray.emptyWithCapacity 32) (value / 0x100000000) 4)
    (value % 0x100000000) 4

/-- The number that a whole byte string writes. -/
def toNumber (b : ByteArray) : Nat := numberAt b 0 b.size

theorem byteAt_of_lt {b : ByteArray} {i : Nat} (h : i < b.size) : byteAt b i = b[i] := dif_pos h

theorem byteAt_of_le {b : ByteArray} {i : Nat} (h : b.size ≤ i) : byteAt b i = 0 :=
  dif_neg (Nat.not_lt.2 h)

/-- One byte more moves a number by a factor of 256. -/
theorem shiftLeft_byte (value n : Nat) : value <<< (8 * (n + 1)) = value <<< (8 * n) * 256 := by
  rw [Nat.mul_succ, Nat.shiftLeft_add]
  omega

theorem numberAt_lt (b : ByteArray) (offset n : Nat) :
    numberAt b offset n < 1 <<< (8 * n) := by
  induction n with
  | zero => simp [numberAt]
  | succ n ih =>
    have := (byteAt b (offset + n)).toNat_lt
    rw [numberAt, shiftLeft_byte]
    omega

theorem numberAt_add (b : ByteArray) (offset m n : Nat) :
    numberAt b offset (m + n) =
      numberAt b offset m <<< (8 * n) + numberAt b (offset + m) n := by
  induction n with
  | zero => simp [numberAt]
  | succ n ih =>
    rw [← Nat.add_assoc, numberAt, ih, numberAt, shiftLeft_byte, Nat.add_assoc offset m n]
    omega

theorem numberOfChunks_eq (b : ByteArray) (offset chunks : Nat) :
    numberOfChunks b offset chunks = numberAt b offset (7 * chunks) := by
  induction chunks with
  | zero => rfl
  | succ chunks ih =>
    rw [numberOfChunks, ih, show 7 * (chunks + 1) = 7 * chunks + 7 from rfl, numberAt_add]
    omega

/-- Reading in chunks gives the number of the bytes. -/
theorem wordAt_eq (b : ByteArray) (offset : Nat) : wordAt b offset = numberAt b offset 32 := by
  have split : numberAt b offset 32 =
      numberAt b offset 28 <<< (8 * 4) + numberAt b (offset + 28) 4 := numberAt_add b offset 28 4
  rw [wordAt, numberOfChunks_eq, show 7 * 4 = 28 from rfl]
  omega

theorem size_pushZeros (b : ByteArray) (n : Nat) : (pushZeros b n).size = b.size + n := by
  induction n generalizing b with
  | zero => rfl
  | succ n ih => rw [pushZeros, ih, ByteArray.size_push]; omega

theorem size_pushNumber (b : ByteArray) (value n : Nat) :
    (pushNumber b value n).size = b.size + n := by
  induction n generalizing b with
  | zero => rfl
  | succ n ih => rw [pushNumber, ih, ByteArray.size_push]; omega

theorem pushNumber_mod (b : ByteArray) (value n k : Nat) (h : n ≤ k) :
    pushNumber b (value % 1 <<< (8 * k)) n = pushNumber b value n := by
  induction n generalizing b with
  | zero => rfl
  | succ n ih =>
    have same : UInt8.ofNat ((value % 1 <<< (8 * k)) >>> (8 * n)) =
        UInt8.ofNat (value >>> (8 * n)) := by
      apply UInt8.toNat_inj.1
      have pow : (2 : Nat) ^ (8 * k) = 2 ^ (8 * n) * (256 * 2 ^ (8 * (k - n - 1))) := by
        rw [show (256 : Nat) = 2 ^ 8 by rfl, ← Nat.pow_add, ← Nat.pow_add]
        congr 1; omega
      simp only [UInt8.toNat_ofNat', Nat.one_shiftLeft, Nat.shiftRight_eq_div_pow]
      rw [pow, Nat.mod_mul_right_div_self, Nat.mod_mul_right_mod]
    rw [pushNumber, pushNumber, same, ih _ (by omega)]

theorem pushNumber_add (b : ByteArray) (value m n : Nat) :
    pushNumber b value (m + n) = pushNumber (pushNumber b (value >>> (8 * n)) m) value n := by
  induction m generalizing b with
  | zero => simp [pushNumber]
  | succ m ih =>
    have shift : value >>> (8 * (m + n)) = (value >>> (8 * n)) >>> (8 * m) := by
      rw [← Nat.shiftRight_add, Nat.mul_add, Nat.add_comm]
    rw [show m + 1 + n = (m + n) + 1 by omega, pushNumber, ih, shift, pushNumber]

theorem pushChunks_eq (b : ByteArray) (value chunks : Nat) :
    pushChunks b value chunks = pushNumber b value (7 * chunks) := by
  induction chunks generalizing value with
  | zero => rfl
  | succ chunks ih =>
    rw [pushChunks, ih, show 7 * (chunks + 1) = 7 * chunks + 7 from rfl, pushNumber_add,
      show value / 0x100000000000000 = value >>> (8 * 7) by omega]
    exact pushNumber_mod _ value 7 7 (Nat.le_refl 7)

/-- Writing in chunks gives the bytes of the number. -/
theorem ofWord_eq (value : Nat) : ofWord value = ofNumber 32 value := by
  rw [ofWord, pushChunks_eq, ofNumber, show 32 = 7 * 4 + 4 from rfl,
    pushNumber_add _ value (7 * 4) 4, show value / 0x100000000 = value >>> (8 * 4) by omega]
  exact pushNumber_mod _ value 4 4 (Nat.le_refl 4)

end EvmHarness.Bytes
