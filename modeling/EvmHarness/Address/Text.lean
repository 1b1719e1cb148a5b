import EvmHarness.Word
import EvmHarness.Bytes
import EvmHarness.Hex
import EvmHarness.Keccak
import EvmHarness.Text.Quoted
set_option autoImplicit false

/-!
# Addresses as text

An address is written as 40 digits after `0x`.  In the checked form the case of a letter carries
a checksum: it is a capital where the digit at the same place in the digest of the digits is at
least eight.  Reading accepts any case.
-/

namespace EvmHarness.Address

/-- The 40 digits of an address. -/
def digits (a : Address) : List Char := Hex.digits a.toNat 40

/-- The address in lower case. -/
def toHex (a : Address) : String := Hex.markedWidth 40 a.toNat

/-- The bytes of an address, most significant first. -/
def toBytes (a : Address) : ByteArray := Bytes.ofNumber 20 a.toNat

/-- The address with its checksum in the case of its letters. -/
def checksum (a : Address) : String :=
  let digest := Hex.digits (Keccak.digest (String.ofList a.digits).toUTF8).toNat 64
  "0x" ++ String.ofList (a.digits.zipWith (fun c h => if '8' ≤ h then c.toUpper else c) digest)

/-- Why a text is not an address. -/
inductive TextFault where
  /-- the text has an odd number of bytes -/
  | oddLength
  /-- there are not exactly 40 digits after the mark -/
  | wrongLength
  /-- the byte at `index` after the mark is no digit -/
  | notDigit (byte : UInt8) (index : Nat)
  deriving DecidableEq, Repr, Inhabited

namespace TextFault

/-- The text of a fault; the offending byte is shown as the character of the same number, quoted
and escaped. -/
def message : TextFault → String
  | oddLength => "odd number of digits"
  | wrongLength => "invalid string length"
  | notDigit byte index =>
    "invalid character " ++ Text.quoteOne (Char.ofNat byte.toNat) ++ " at position " ++
      toString index

end TextFault

/-- The bytes after one mark `0x` or `0X`. -/
def dropMark : List UInt8 → List UInt8
  | 0x30 :: 0x78 :: rest => rest
  | 0x30 :: 0x58 :: rest => rest
  | bytes => bytes

/-- The number that digits continue, or the first byte that is none, with its place. -/
def readDigits : List UInt8 → Nat → Nat → Except TextFault Nat
  | [], _, value => .ok value
  | byte :: rest, index, value =>
    match Hex.digitValue? (Char.ofNat byte.toNat) with
    | some d => readDigits rest (index + 1) (value * 16 + d)
    | none => .error (.notDigit byte index)

/-- Reads an address.  Of several faults the length of the whole text comes first, then the
number of digits, then the first byte that is no digit. -/
def parse (text : String) : Except TextFault Address :=
  let bytes := text.toUTF8.data.toList
  if bytes.length % 2 ≠ 0 then .error .oddLength
  else
    let digits := dropMark bytes
    if digits.length ≠ 40 then .error .wrongLength
    else (readDigits digits 0 0).map (BitVec.ofNat 160)

end EvmHarness.Address
