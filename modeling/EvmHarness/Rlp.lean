import EvmHarness.Bytes
set_option autoImplicit false

/-!
# Recursive length prefixes

A byte string and a list of encoded items are both written behind a header that gives their
length.  A single byte below `0x80` is its own encoding, and a number is written as the byte
string of its digits, without leading zeros.
-/

namespace EvmHarness.Rlp

/-- The bytes of a number without leading zeros: none for zero. -/
def minimalBytes (n : Nat) : ByteArray :=
  if n = 0 then ByteArray.empty else Bytes.ofNumber (n.log2 / 8 + 1) n

/-- The header of `length` bytes of content: one byte up to 55, else the length itself behind
its own length.  `base` is `0x80` for a byte string and `0xc0` for a list. -/
def header (base length : Nat) : ByteArray :=
  if length ≤ 55 then ByteArray.empty.push (UInt8.ofNat (base + length))
  else
    let digits := minimalBytes length
    ByteArray.empty.push (UInt8.ofNat (base + 55 + digits.size)) ++ digits

/-- The encoding of a byte string. -/
def encodeBytes (b : ByteArray) : ByteArray :=
  if b.size = 1 ∧ Bytes.byteAt b 0 < 0x80 then b else header 0x80 b.size ++ b

/-- The encoding of a number. -/
def encodeNumber (n : Nat) : ByteArray := encodeBytes (minimalBytes n)

/-- The encoding of a list of encoded items. -/
def encodeList (items : List ByteArray) : ByteArray :=
  let content := items.foldl (· ++ ·) ByteArray.empty
  header 0xc0 content.size ++ content

end EvmHarness.Rlp
